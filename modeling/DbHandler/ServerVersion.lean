import Mathlib.Algebra.Group.Nat.Defs
import DbHandler.Client
import DbHandler.Foundation.Comparison

namespace DbHandler.ServerVersion

open Foundation.Comparison

structure Fields where
  serverVersion : Text
  versionMajor : ℕ
  versionMinor : ℕ
  versionRevision : ℕ
  clientVersionMajor : ℕ
  clientVersionMinor : ℕ
  clientVersionRevision : ℕ
  deriving DecidableEq, Repr

def ulongSub (a b : ℕ) : ℕ := (a + 2 ^ 64 - b) % 2 ^ 64

theorem ulongSub_of_le {a b : ℕ} (h : b ≤ a) (ha : a < 2 ^ 64) : ulongSub a b = a - b := by
  unfold ulongSub
  omega

namespace Postgres

structure Library where
  serverVersion : ℕ
  errorMessage : Text
  parameterStatus : Text
  libVersion : ℕ

def recordServer (versionInt : ℕ) (f : Fields) : Fields :=
  { f with
    versionMajor := versionInt / 10000
    versionMinor := ulongSub versionInt (versionInt / 10000 * 10000) / 100
    versionRevision := versionInt % 100 }

def recordClient (versionInt : ℕ) (f : Fields) : Fields :=
  { f with
    clientVersionMajor := versionInt % 10000
    clientVersionMinor := ulongSub versionInt (versionInt % 10000) % 100 }

def getServerVersion (library : Library) (f : Fields) (errorMsg : List Text) : ℕ × Fields × List Text :=
  if library.serverVersion = 0 then
    (1, recordClient library.libVersion f, errorMsg ++ [executingQuery ++ library.errorMessage])
  else
    (0, recordClient library.libVersion
      (recordServer library.serverVersion { f with serverVersion := library.parameterStatus }), errorMsg)

/-- The test of `CreateSystemObjectsAndGetDatabaseInfo`. -/
def createsIndexIfNotExists (f : Fields) : Bool := f.versionMajor ≥ 9 && f.versionMinor ≥ 5

/-- The test of `NewTableCreation`. -/
def countsTables (f : Fields) : Bool := f.versionMajor ≤ 9 && f.versionMinor < 3

end Postgres

namespace MySQL

def getServerVersion (serverVersion clientVersion : ℕ) (f : Fields) : ℕ × Fields :=
  let f := { f with versionRevision := serverVersion % 100 }
  let f := { f with versionMajor := serverVersion / 10000 }
  let f := { f with versionRevision := ulongSub serverVersion f.versionMajor / 100 }
  let f := { f with clientVersionMajor := clientVersion % 10000 }
  let f := { f with clientVersionMinor := ulongSub clientVersion f.clientVersionMajor % 100 }
  let f := { f with
    clientVersionRevision :=
      ulongSub clientVersion (f.clientVersionMajor * 10000 + f.clientVersionMinor * 100) }
  (0, f)

end MySQL

namespace ODBC

/-- The two numbers are columns of the answer, so they are not decoded; every call succeeds. -/
def getServerVersion (version : Text) (versionMajor versionMinor : ℕ) (f : Fields) : ℕ × Fields :=
  (0, { f with
    serverVersion := version
    versionMajor := versionMajor
    versionMinor := versionMinor
    clientVersionMajor := 0
    clientVersionMinor := 0 })

/-- The test of `CreateSystemObjectsAndGetDatabaseInfo`, made there twice. -/
def createsIndexIfNotExists (f : Fields) : Bool := f.versionMajor ≥ 9 && f.versionMinor ≥ 5

/-- The test of `Connect` before the event trigger is made, and of `Disconnect` before it is dropped. -/
def hasEventTriggers (f : Fields) : Bool := f.versionMajor ≥ 9 && f.versionMinor > 3

/-- The test of `Connect` that guards an empty block. -/
def lacksEventTriggers (f : Fields) : Bool := f.versionMajor ≤ 9 && f.versionMinor ≤ 2

end ODBC

inductive Driver
  | mySQL
  | postgres
  | odbc
  deriving DecidableEq, Repr

/-- A version as it is released; PostgreSQL has no revision from 10 on. -/
structure Version where
  major : ℕ
  minor : ℕ
  revision : ℕ
  deriving DecidableEq, Repr

namespace Version

def threePart (v : Version) : ℕ := 10000 * v.major + 100 * v.minor + v.revision

def mySQLNumber (v : Version) : ℕ := v.threePart

def postgresNumber (v : Version) : ℕ := if v.major < 10 then v.threePart else 10000 * v.major + v.minor

/-- The parts that make up a number, and the bounds of its C type; PostgreSQL's library answers 0 where it has none. -/
def WellFormed : Driver → Version → Prop
  | .mySQL, v => v.minor < 100 ∧ v.revision < 100 ∧ v.mySQLNumber < 2 ^ 64
  | .postgres, v =>
    (v.major < 10 → v.minor < 100 ∧ v.revision < 100) ∧ 0 < v.postgresNumber ∧ v.postgresNumber < 2 ^ 31
  | .odbc, v => v.major < 2 ^ 31 ∧ v.minor < 2 ^ 31

def AtLeast (major minor : ℕ) (v : Version) : Prop := toLex (major, minor) ≤ toLex (v.major, v.minor)

def Above (major minor : ℕ) (v : Version) : Prop := toLex (major, minor) < toLex (v.major, v.minor)

def Below (major minor : ℕ) (v : Version) : Prop := toLex (v.major, v.minor) < toLex (major, minor)

end Version

open Version

def after (server client : Version) (text : Text) (before : Fields) : Driver → Fields
  | .mySQL => (MySQL.getServerVersion server.mySQLNumber client.mySQLNumber before).2
  | .postgres =>
    (Postgres.getServerVersion ⟨server.postgresNumber, [], text, client.postgresNumber⟩ before []).2.1
  | .odbc => (ODBC.getServerVersion text server.major server.minor before).2

def StoresServer (v : Version) (f : Fields) : Prop :=
  f.versionMajor = v.major ∧ f.versionMinor = v.minor ∧ f.versionRevision = v.revision

def StoresClient (v : Version) (f : Fields) : Prop :=
  f.clientVersionMajor = v.major ∧ f.clientVersionMinor = v.minor ∧ f.clientVersionRevision = v.revision

def Decodes (server client : Version) (f : Fields) : Driver → Prop
  | .mySQL => StoresServer server f ∧ StoresClient client f
  | .postgres =>
    (f.versionMajor = server.major ∧ f.versionMinor = server.minor ∧
      (server.major < 10 → f.versionRevision = server.revision)) ∧
    f.clientVersionMajor = client.major ∧ f.clientVersionMinor = client.minor ∧
      (client.major < 10 → f.clientVersionRevision = client.revision)
  | .odbc => True

def Gates (server : Version) (f : Fields) : Driver → Prop
  | .mySQL => True
  | .postgres =>
    (Postgres.createsIndexIfNotExists f ↔ server.AtLeast 9 5) ∧ (Postgres.countsTables f ↔ server.Below 9 3)
  | .odbc =>
    (ODBC.createsIndexIfNotExists f ↔ server.AtLeast 9 5) ∧ (ODBC.hasEventTriggers f ↔ server.Above 9 3) ∧
      (ODBC.lacksEventTriggers f ↔ server.Below 9 3)

def Spared (server client : Version) (before : Fields) : Driver → Prop
  | .mySQL =>
    (server.major = 0 ∧ server.minor = server.revision ∧ before.versionMinor = server.minor) ∧
      client.minor = 0 ∧ client.revision = client.major
  | .postgres =>
    (server.major < 10 ∧ (server.major < 9 → server.minor < 3)) ∧
      client.major < 10 ∧ client.minor = 0 ∧ client.revision = client.major ∧
        before.clientVersionRevision = client.revision
  | .odbc => (9 < server.major → 5 ≤ server.minor) ∧ (server.major < 9 → server.minor < 3)

section Tests

variable (f : Fields) (v : Version)

theorem atLeast_test_iff (hmajor : f.versionMajor = v.major) (hminor : f.versionMinor = v.minor) :
    (Postgres.createsIndexIfNotExists f ↔ v.AtLeast 9 5) ↔ ¬ (9 < v.major ∧ v.minor < 5) := by
  rw [← le_parts_iff]
  simp [Postgres.createsIndexIfNotExists, AtLeast, hmajor, hminor]

theorem above_test_iff (hmajor : f.versionMajor = v.major) (hminor : f.versionMinor = v.minor) :
    (ODBC.hasEventTriggers f ↔ v.Above 9 3) ↔ ¬ (9 < v.major ∧ v.minor ≤ 3) := by
  rw [← lt_parts_iff]
  simp [ODBC.hasEventTriggers, Above, hmajor, hminor]

theorem below_test_iff (hmajor : f.versionMajor = v.major) (hminor : f.versionMinor = v.minor) :
    (Postgres.countsTables f ↔ v.Below 9 3) ↔ ¬ (v.major < 9 ∧ 3 ≤ v.minor) := by
  rw [← lt_parts_iff]
  simp [Postgres.countsTables, Below, hmajor, hminor]

theorem lacksEventTriggers_eq : ODBC.lacksEventTriggers f = Postgres.countsTables f := by
  simp only [ODBC.lacksEventTriggers, Postgres.countsTables, Nat.lt_succ_iff]

end Tests

namespace MySQL

variable {v : Version} {f : Fields}

theorem storesServer_iff (hv : WellFormed .mySQL v) (client : ℕ) :
    StoresServer v (getServerVersion v.mySQLNumber client f).2 ↔
      v.major = 0 ∧ v.minor = v.revision ∧ f.versionMinor = v.minor := by
  obtain ⟨hminor, hrevision, hnumber⟩ := hv
  have hmajor : v.mySQLNumber / 10000 = v.major := by
    simp only [mySQLNumber, threePart]
    omega
  have hsub : ulongSub v.mySQLNumber v.major = v.mySQLNumber - v.major := by
    apply ulongSub_of_le _ hnumber
    simp only [mySQLNumber, threePart]
    omega
  have hleft : v.mySQLNumber - v.major = 9999 * v.major + 100 * v.minor + v.revision := by
    simp only [mySQLNumber, threePart]
    omega
  simp only [StoresServer, getServerVersion, hmajor, hsub, hleft, true_and]
  constructor
  · rintro ⟨hbefore, hdecoded⟩
    have hzero : v.major = 0 := by omega
    rw [hzero] at hdecoded
    exact ⟨hzero, by omega, hbefore⟩
  · rintro ⟨hzero, hsame, hbefore⟩
    exact ⟨hbefore, by omega⟩

theorem storesClient_iff (hv : WellFormed .mySQL v) (server : ℕ) :
    StoresClient v (getServerVersion server v.mySQLNumber f).2 ↔ v.minor = 0 ∧ v.revision = v.major := by
  obtain ⟨hminor, hrevision, hnumber⟩ := hv
  have hlow : v.mySQLNumber % 10000 = 100 * v.minor + v.revision := by
    simp only [mySQLNumber, threePart]
    omega
  have hsub : ulongSub v.mySQLNumber (100 * v.minor + v.revision) = 10000 * v.major := by
    rw [ulongSub_of_le _ hnumber]
    · simp only [mySQLNumber, threePart]
      omega
    · simp only [mySQLNumber, threePart]
      omega
  simp only [StoresClient, getServerVersion, hlow, hsub]
  constructor
  · rintro ⟨hmajor, hzero, -⟩
    omega
  · rintro ⟨hzero, hsame⟩
    refine ⟨by omega, by omega, ?_⟩
    rw [ulongSub_of_le _ hnumber]
    · simp only [mySQLNumber, threePart]
      omega
    · simp only [mySQLNumber, threePart]
      omega

end MySQL

namespace Postgres

variable {library : Library} {f : Fields} {errorMsg : List Text}

theorem getServerVersion_fields (h : 0 < library.serverVersion) :
    (getServerVersion library f errorMsg).2.1 = recordClient library.libVersion
      (recordServer library.serverVersion { f with serverVersion := library.parameterStatus }) := by
  unfold getServerVersion
  rw [if_neg (by omega)]

theorem recordServer_minor (n : ℕ) (hn : n < 2 ^ 31) : (recordServer n f).versionMinor = n % 10000 / 100 := by
  have hsub : ulongSub n (n / 10000 * 10000) = n - n / 10000 * 10000 := by
    apply ulongSub_of_le <;> omega
  simp only [recordServer, hsub]
  omega

theorem recordClient_minor (n : ℕ) (hn : n < 2 ^ 31) : (recordClient n f).clientVersionMinor = 0 := by
  have hsub : ulongSub n (n % 10000) = n - n % 10000 := by
    apply ulongSub_of_le <;> omega
  simp only [recordClient, hsub]
  omega

variable {v : Version}

theorem recordServer_threePart (hv : WellFormed .postgres v) (h : v.major < 10) :
    StoresServer v (recordServer v.postgresNumber f) := by
  obtain ⟨hparts, -, hnumber⟩ := hv
  obtain ⟨hminor, hrevision⟩ := hparts h
  refine ⟨?_, ?_, ?_⟩
  · simp only [recordServer, postgresNumber, if_pos h, threePart]
    omega
  · rw [recordServer_minor _ hnumber]
    simp only [postgresNumber, if_pos h, threePart]
    omega
  · simp only [recordServer, postgresNumber, if_pos h, threePart]
    omega

theorem recordServer_twoPart (hv : WellFormed .postgres v) (h : 10 ≤ v.major)
    (hmajor : (recordServer v.postgresNumber f).versionMajor = v.major)
    (hminor : (recordServer v.postgresNumber f).versionMinor = v.minor) : v.minor = 0 := by
  obtain ⟨-, -, hnumber⟩ := hv
  rw [recordServer_minor _ hnumber] at hminor
  simp only [recordServer, postgresNumber, if_neg (show ¬ v.major < 10 by omega)] at hmajor hminor
  omega

theorem recordClient_iff (hv : WellFormed .postgres v) :
    ((recordClient v.postgresNumber f).clientVersionMajor = v.major ∧
      (recordClient v.postgresNumber f).clientVersionMinor = v.minor ∧
        (v.major < 10 → (recordClient v.postgresNumber f).clientVersionRevision = v.revision)) ↔
      v.major < 10 ∧ v.minor = 0 ∧ v.revision = v.major ∧ f.clientVersionRevision = v.revision := by
  obtain ⟨hparts, hpos, hnumber⟩ := hv
  rw [recordClient_minor _ hnumber]
  simp only [recordClient]
  by_cases h : v.major < 10
  · obtain ⟨hminor, hrevision⟩ := hparts h
    simp only [postgresNumber, if_pos h, threePart]
    constructor
    · rintro ⟨hmajor, hzero, hbefore⟩
      exact ⟨h, hzero.symm, by omega, hbefore h⟩
    · rintro ⟨-, hzero, hsame, hbefore⟩
      exact ⟨by omega, hzero.symm, fun _ => hbefore⟩
  · simp only [postgresNumber, if_neg h]
    constructor
    · rintro ⟨hmajor, hzero, -⟩
      omega
    · rintro ⟨hten, -⟩
      exact absurd hten h

theorem gates_iff (hmajor : f.versionMajor = v.major) (hminor : f.versionMinor = v.minor) :
    Gates v f .postgres ↔ ¬ (9 < v.major ∧ v.minor < 5) ∧ ¬ (v.major < 9 ∧ 3 ≤ v.minor) := by
  simp only [Gates]
  rw [atLeast_test_iff f v hmajor hminor, below_test_iff f v hmajor hminor]

theorem spared_iff {server client : Version} (text : Text) (before : Fields)
    (hserver : WellFormed .postgres server) (hclient : WellFormed .postgres client) :
    (Decodes server client (after server client text before .postgres) .postgres ∧
        Gates server (after server client text before .postgres) .postgres) ↔
      Spared server client before .postgres := by
  have hafter : after server client text before .postgres = recordClient client.postgresNumber
      (recordServer server.postgresNumber { before with serverVersion := text }) :=
    getServerVersion_fields hserver.2.1
  rw [hafter]
  simp only [Decodes, Spared]
  rw [recordClient_iff hclient]
  constructor
  · rintro ⟨⟨⟨hmajor, hminor, -⟩, hrecorded⟩, hgates⟩
    obtain ⟨hatLeast, hbelow⟩ := (gates_iff hmajor hminor).mp hgates
    have hten : server.major < 10 := by
      by_contra hten
      have hzero := recordServer_twoPart (f := { before with serverVersion := text }) hserver (by omega) hmajor hminor
      omega
    exact ⟨⟨hten, by omega⟩, hrecorded⟩
  · rintro ⟨⟨hten, hbelow⟩, hrecorded⟩
    obtain ⟨hmajor, hminor, hrevision⟩ :=
      recordServer_threePart (f := { before with serverVersion := text }) hserver hten
    refine ⟨⟨⟨hmajor, hminor, fun _ => hrevision⟩, hrecorded⟩, ?_⟩
    apply (gates_iff hmajor hminor).mpr
    omega

end Postgres

theorem ODBC.gates_iff (text : Text) (before : Fields) (server client : Version) :
    Gates server (after server client text before .odbc) .odbc ↔ Spared server client before .odbc := by
  simp only [Gates, Spared]
  rw [lacksEventTriggers_eq, below_test_iff _ _ rfl rfl, above_test_iff _ _ rfl rfl]
  have htest := atLeast_test_iff (after server client text before .odbc) server rfl rfl
  simp only [Postgres.createsIndexIfNotExists] at htest
  simp only [ODBC.createsIndexIfNotExists]
  rw [htest]
  omega

theorem decodes_and_gates_iff (driver : Driver) (server client : Version) (text : Text) (before : Fields)
    (hserver : WellFormed driver server) (hclient : WellFormed driver client) :
    (Decodes server client (after server client text before driver) driver ∧
        Gates server (after server client text before driver) driver) ↔
      Spared server client before driver := by
  cases driver with
  | mySQL =>
    simp only [Decodes, Gates, Spared, and_true]
    exact and_congr (MySQL.storesServer_iff hserver _) (MySQL.storesClient_iff hclient _)
  | postgres => exact Postgres.spared_iff text before hserver hclient
  | odbc =>
    simp only [Decodes, true_and]
    exact ODBC.gates_iff text before server client

def noVersion : Fields := ⟨[], 0, 0, 0, 0, 0, 0⟩

theorem nine_two_decoded :
    Decodes ⟨9, 2, 24⟩ ⟨9, 0, 9⟩ (after ⟨9, 2, 24⟩ ⟨9, 0, 9⟩ [] { noVersion with clientVersionRevision := 9 } .postgres)
        .postgres ∧
      Gates ⟨9, 2, 24⟩ (after ⟨9, 2, 24⟩ ⟨9, 0, 9⟩ [] { noVersion with clientVersionRevision := 9 } .postgres)
        .postgres :=
  (decodes_and_gates_iff .postgres ⟨9, 2, 24⟩ ⟨9, 0, 9⟩ [] { noVersion with clientVersionRevision := 9 }
    (by simp [WellFormed, postgresNumber, threePart])
    (by simp [WellFormed, postgresNumber, threePart])).mpr (by simp [Spared])

theorem ten_one_misread :
    WellFormed .postgres ⟨10, 1, 0⟩ ∧
      (after ⟨10, 1, 0⟩ ⟨10, 1, 0⟩ [] noVersion .postgres).versionMinor = 0 ∧
      ¬ (Decodes ⟨10, 1, 0⟩ ⟨10, 1, 0⟩ (after ⟨10, 1, 0⟩ ⟨10, 1, 0⟩ [] noVersion .postgres) .postgres ∧
        Gates ⟨10, 1, 0⟩ (after ⟨10, 1, 0⟩ ⟨10, 1, 0⟩ [] noVersion .postgres) .postgres) := by
  have hversion : WellFormed .postgres ⟨10, 1, 0⟩ := by simp [WellFormed, postgresNumber]
  refine ⟨hversion, by decide, fun h => ?_⟩
  have hspared := (Postgres.spared_iff [] noVersion hversion hversion).mp h
  simp [Spared] at hspared

end DbHandler.ServerVersion
