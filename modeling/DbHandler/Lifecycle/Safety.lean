import DbHandler.Foundation.Runs
import DbHandler.Lifecycle.Calls

namespace DbHandler.Lifecycle

open Foundation.Faults Foundation.Runs

structure Decided {d : Driver} (c : Conditions d) (Sound : Object → Prop) : Prop where
  connectToDb : ∀ name r, Decides (c.connectToDb name r) (d.connectToDb name r) fun o => ∀ p ∈ o, Sound p
  createDatabase : ∀ o, Sound o → ∀ r name,
    Decides (c.createDatabase o) (d.createDatabase r name o) fun p => Sound p.2
  dropDatabase : ∀ o, Sound o → ∀ r name,
    Decides (c.dropDatabase name r o) (d.dropDatabase r name o) fun p => Sound p.2
  close : ∀ o, Sound o → ∀ r, Decides (c.close o) (d.close r o) fun _ => True
  discard : ∀ o, Sound o → Decides (c.discard o) (d.discard o) fun _ => True

theorem Decided.act {d : Driver} {c : Conditions d} {Sound : Object → Prop} (h : Decided c Sound)
    {o : Option Object} (ho : ∀ p ∈ o, Sound p) {e : Event d} {w : World} (hact : d.act o e = some w) :
    Decides (c.Holds o e) w fun o => ∀ p ∈ o, Sound p := by
  cases o with
  | none =>
    cases e with
    | connectToDb name r =>
      obtain rfl := Option.some.inj hact
      exact h.connectToDb name r
    | _ => simp [Driver.act] at hact
  | some o =>
    have hsound : Sound o := ho o rfl
    cases e with
    | connectToDb name r => simp [Driver.act] at hact
    | createDatabase name r =>
      obtain rfl := Option.some.inj hact
      exact (h.createDatabase o hsound r name).map _ fun p hp => by simpa using hp
    | dropDatabase name r =>
      obtain rfl := Option.some.inj hact
      exact (h.dropDatabase o hsound r name).map _ fun p hp => by simpa using hp
    | close r =>
      obtain rfl := Option.some.inj hact
      exact (h.close o hsound r).map _ fun _ _ => by simp
    | discard =>
      obtain rfl := Option.some.inj hact
      exact (h.discard o hsound).map _ fun _ _ => by simp

def SoundWorld (Sound : Object → Prop) (w : World) : Prop := Returns w fun o => ∀ p ∈ o, Sound p

theorem Decided.eachStep_iff {d : Driver} {c : Conditions d} {Sound : Object → Prop} (h : Decided c Sound)
    (es : List (Event d)) :
    EachStep d.step (fun _ _ w => Returns w fun _ => True) (.ok none) es ↔
      EachStep d.step (fun w e _ => c.HoldsIn w e) (.ok none) es := by
  have hdecides : ∀ w e w', SoundWorld Sound w → d.step w e = some w' →
      Decides (c.HoldsIn w e) w' fun o => ∀ p ∈ o, Sound p := by
    rintro w e w' ⟨o, rfl, ho⟩ hstep
    exact (h.act ho hstep).congr (by simp [Conditions.HoldsIn])
  apply Foundation.Runs.eachStep_iff (P := SoundWorld Sound)
  · intro w e w' hw hstep hreturns
    exact (hdecides w e w' hw hstep).returns ((hdecides w e w' hw hstep).returns_iff.mp hreturns)
  · intro w e w' hw hstep
    exact (hdecides w e w' hw hstep).returns_iff
  · exact ⟨none, rfl, by simp⟩

namespace SQLite

structure Sound (o : Object) : Prop where
  driverImpl : o.driverImpl.isSome = o.pimpl.isSome
  db : o.pimpl.isSome → o.db ≠ .closed
  tables : ∀ impl ∈ o.pimpl, AllAlive impl.tables

@[simp] theorem usable_some (impl : Impl) (driverImpl : Option Text) (db : Handle) (b c : Bool) :
    Usable ⟨some impl, driverImpl, db, b, c⟩ := rfl

@[simp] theorem sound_some (impl : Impl) (catalog : Text) (db : Handle) (b c : Bool) :
    Sound ⟨some impl, some catalog, db, b, c⟩ ↔ db ≠ .closed ∧ AllAlive impl.tables := by
  constructor
  · intro h
    exact ⟨h.db rfl, h.tables impl rfl⟩
  · rintro ⟨hdb, halive⟩
    exact ⟨rfl, fun _ => hdb, by simpa using halive⟩

@[simp] theorem sound_none (db : Handle) (b c : Bool) : Sound ⟨none, none, db, b, c⟩ :=
  ⟨rfl, by simp, by simp⟩

theorem connect_returns {o : Object} (himpl : o.pimpl = none) (hdriver : o.driverImpl = none) (r : Replies)
    (name : Text) : Returns (connect r name o) fun p => Sound p.2 ∧ Usable p.2 := by
  cases hopening : r.opening <;> simp [connect, getTableListFromDb, hopening, Opening.handle, himpl, hdriver]

theorem disconnect_returns {o : Object} (h : Sound o) (husable : Usable o) (r : Replies) :
    Returns (disconnect r o) fun p => (p.1 = .done ↔ r.closed = true) ∧ p.2.pimpl = none ∧ p.2.driverImpl = none := by
  obtain ⟨impl, himpl⟩ := Option.isSome_iff_exists.mp husable
  obtain ⟨catalog, hcatalog⟩ := Option.isSome_iff_exists.mp (h.driverImpl.trans husable)
  simp [disconnect, himpl, hcatalog, (h.tables impl himpl).filter, h.db husable]

theorem impl_aborts {α : Type} {o : Object} (h : ¬ Usable o) (f : Impl → Guarded α) : Aborts (o.impl >>= f) := by
  have himpl : o.pimpl = none := by simpa [Usable] using h
  exact (aborts_iff _).mpr (by simp [himpl])

theorem connectToDb_returns (name : Text) (r : Replies) :
    Returns (Native.sqlite.driver.connectToDb name r) fun o => ∀ p ∈ o, Sound p := by
  simp only [Driver.connectToDb, Native.driver, returns_bind]
  refine (connect_returns rfl rfl r name).mono fun p hp => ?_
  cases hcode : p.1 with
  | done => simp [hp.1]
  | thrown => simp
  | failed =>
    simp only [returns_bind]
    refine (disconnect_returns hp.1 hp.2 r).mono fun q hq => ?_
    simp [destroy, hq.2.1]

theorem createDatabase_returns {o : Object} (h : Sound o) (husable : Usable o) (r : Replies) (name : Text) :
    Returns (createDatabase r name o) fun p => Sound p.2 := by
  simp only [createDatabase, returns_bind]
  refine (disconnect_returns h husable r).mono fun p hp => ?_
  rw [returns_ite]
  refine ⟨fun _ => (connect_returns hp.2.1 hp.2.2 r name).mono fun q hq => hq.1, fun _ => ?_⟩
  obtain ⟨code, ⟨pimpl, driverImpl, db, b, c⟩⟩ := p
  obtain ⟨-, rfl, rfl⟩ := hp
  simp

theorem dropDatabase_decides {o : Object} (h : Sound o) (r : Replies) (name : Text) :
    Decides (∃ impl ∈ o.pimpl, impl.dbName = name → r.closed = false) (dropDatabase r name o)
      fun p => Sound p.2 := by
  cases himpl : o.pimpl with
  | none => exact .of_aborts (by simp) ((aborts_iff _).mpr (by simp [dropDatabase, himpl]))
  | some impl =>
    have husable : Usable o := by simp [Usable, himpl]
    obtain ⟨catalog, hcatalog⟩ := Option.isSome_iff_exists.mp (h.driverImpl.trans husable)
    by_cases hname : impl.dbName = name
    · have hdrop : ∀ Q : Code × Object → Prop, Returns (dropDatabase r name o) Q ↔
          r.closed = false ∧ Q (.failed, { o with pimpl := none, driverImpl := none }) := by
        intro Q
        cases hclosed : r.closed <;>
          simp [dropDatabase, disconnect, himpl, hcatalog, hname, hclosed, h.db husable,
            (h.tables impl himpl).filter]
      refine .of_iff ?_ ?_
      · simp [hdrop, hname]
      · simp [hdrop, hname]
    · refine .of_returns (by simp [hname]) ?_
      simpa [dropDatabase, himpl, hcatalog, hname] using h

theorem decided : Decided conditions Sound where
  connectToDb name r := .of_returns trivial (connectToDb_returns name r)
  createDatabase o h r name := by
    refine ⟨fun husable => createDatabase_returns h husable r name, fun hn => (aborts_iff _).mpr ?_⟩
    have himpl : o.pimpl = none := by simpa [conditions, Usable] using hn
    simp [Native.driver, createDatabase, disconnect, himpl]
  dropDatabase o h r name := dropDatabase_decides h r name
  close o h r := by
    refine ⟨fun husable => ?_, fun hn => impl_aborts hn _⟩
    obtain ⟨impl, himpl⟩ := Option.isSome_iff_exists.mp husable
    simp only [Driver.close, Native.driver, returns_bind, Object.impl_returns]
    refine ⟨impl, himpl, (disconnect_returns h husable r).mono fun p hp => ?_⟩
    simp [destroy, hp.2.1]
  discard o h := by
    refine ⟨fun husable => ?_, fun hn => impl_aborts hn _⟩
    obtain ⟨impl, himpl⟩ := Option.isSome_iff_exists.mp husable
    obtain ⟨catalog, hcatalog⟩ := Option.isSome_iff_exists.mp (h.driverImpl.trans husable)
    simp [Driver.discard, Native.driver, destroy, himpl, hcatalog,
      (h.tables impl himpl).filter]

end SQLite

namespace Postgres

structure Sound (o : Object) : Prop where
  driverImpl : o.driverImpl.isSome = o.pimpl.isSome
  isConnected : o.isConnected = o.pimpl.isSome
  db : o.db ≠ .null
  tables : ∀ impl ∈ o.pimpl, AllAlive impl.tables

@[simp] theorem sound_some (impl : Impl) (catalog : Text) (db : Handle) (b c : Bool) :
    Sound ⟨some impl, some catalog, db, b, c⟩ ↔ b = true ∧ db ≠ .null ∧ AllAlive impl.tables := by
  constructor
  · intro h
    exact ⟨h.isConnected, h.db, h.tables impl rfl⟩
  · rintro ⟨hb, hdb, halive⟩
    exact ⟨rfl, hb, hdb, by simpa using halive⟩

@[simp] theorem sound_none (db : Handle) (b c : Bool) : Sound ⟨none, none, db, b, c⟩ ↔ b = false ∧ db ≠ .null := by
  constructor
  · intro h
    exact ⟨h.isConnected, h.db⟩
  · rintro ⟨hb, hdb⟩
    exact ⟨rfl, hb, hdb, by simp⟩

theorem disconnect_returns {o : Object} (h : Sound o) (Q : Code × Object → Prop) :
    Returns (disconnect o) Q ↔
      Usable o ∧ Q (.done, { o with pimpl := none, driverImpl := none, db := .closed, isConnected := false }) := by
  cases himpl : o.pimpl with
  | none => simp [disconnect, himpl, Usable]
  | some impl =>
    have hconnected : o.isConnected = true := by simp [h.isConnected, himpl]
    have hdb := h.db
    cases hval : o.db <;>
      simp_all [disconnect, Usable, h.tables impl himpl]

theorem createSystemObjects_returns {o : Object} (h : Sound o) (husable : Usable o) (r : Replies) :
    Returns (createSystemObjectsAndGetDatabaseInfo r o) fun p => Sound p.2 ∧ (p.1 = .failed → ¬ Usable p.2) ∧
      (r.systemObjects = true ∧ r.commit = true ∧ r.listed = true ↔ p.1 ≠ .failed) := by
  obtain ⟨pimpl, driverImpl, db, b, c⟩ := o
  obtain ⟨impl, rfl⟩ := Option.isSome_iff_exists.mp husable.1
  obtain ⟨catalog, rfl⟩ := Option.isSome_iff_exists.mp h.driverImpl
  obtain rfl : db = .opened := husable.2
  obtain ⟨rfl, -, halive⟩ := (sound_some impl catalog .opened b c).mp h
  have hloaded : AllAlive (impl.load r.catalog r.loaded).tables := by simpa using halive
  by_cases hcommit : (r.systemObjects && r.commit) = true
  · by_cases hlisted : r.listed = true
    · simp_all [createSystemObjectsAndGetDatabaseInfo]
    · simp_all [createSystemObjectsAndGetDatabaseInfo, disconnect_returns, Usable]
  · simp_all [createSystemObjectsAndGetDatabaseInfo, disconnect_returns, Usable]

theorem connect_returns {o : Object} (himpl : o.pimpl = none) (hdriver : o.driverImpl = none) (r : Replies)
    (name : Text) : Returns (connect r name o) fun p => Sound p.2 ∧
      (o.connectToDatabase = false → (r.Clean name ↔ (p.1 = .failed → Usable p.2))) := by
  by_cases hstatus : r.status = true
  · by_cases hversion : r.version = true
    · by_cases hparsed : r.parsed = true
      · by_cases hnamed : (o.connectToDatabase || namesDatabase name) = true
        · have hobjects := createSystemObjects_returns
            (o := ⟨some ⟨[], []⟩, some [], .opened, true, true⟩) (by simp) ⟨rfl, rfl⟩ r
          simp only [connect, himpl, hdriver, hnamed]
          simp [hstatus, hversion, hparsed]
          refine hobjects.mono fun p hp => ⟨hp.1, fun hnew => ?_⟩
          have hname : namesDatabase name = true := by simpa [hnew] using hnamed
          have hclean : r.Clean name ↔ r.systemObjects = true ∧ r.commit = true ∧ r.listed = true := by
            simp [Replies.Clean, hstatus, hversion, hparsed, hname]
          rw [hclean, hp.2.2]
          exact ⟨fun hdone hfailed => absurd hfailed hdone, fun h hfailed => hp.2.1 hfailed (h hfailed)⟩
        · obtain ⟨hold, hname⟩ : o.connectToDatabase = false ∧ namesDatabase name = false := by simpa using hnamed
          cases hserver : r.serverQuery <;>
            simp [connect, himpl, hdriver, hstatus, hversion, hparsed, hserver, Usable, Replies.Clean, hold, hname]
      · simp [connect, himpl, hdriver, hstatus, hversion, hparsed, Replies.Clean]
    · simp [connect, himpl, hdriver, hstatus, hversion, Usable, Replies.Clean]
  · simp [connect, himpl, hdriver, hstatus, Usable, Replies.Clean]

theorem connectToDb_decides (name : Text) (r : Replies) :
    Decides (r.Clean name) (Native.postgres.driver.connectToDb name r) fun o => ∀ p ∈ o, Sound p := by
  obtain ⟨⟨code, o⟩, hconnect, hsound, hclean⟩ := connect_returns (o := fresh) rfl rfl r name
  rw [hclean rfl]
  have hloader : ∀ Q : Option Object → Prop, Returns (Native.postgres.driver.connectToDb name r) Q ↔
      (code = .failed → Usable o) ∧ (code = .done → Q (some o)) ∧ (code ≠ .done → Q none) := by
    intro Q
    simp only [Driver.connectToDb, Native.driver, returns_bind, hconnect, returns_ok]
    cases code <;> simp [disconnect_returns hsound, destroy]
  refine .of_iff (by simp [hloader]) fun husable => (hloader _).mpr ⟨husable, fun _ => by simpa using hsound, by simp⟩

theorem createDatabase_decides {o : Object} (h : Sound o) (r : Replies) (name : Text) :
    Decides (Usable o) (createDatabase r name o) fun p => Sound p.2 := by
  have hconnect := connect_returns (o := { o with pimpl := none, driverImpl := none, db := .closed, isConnected := false })
    rfl rfl r name
  refine .of_iff ?_ fun husable => ?_
  · simp only [createDatabase, returns_bind, disconnect_returns h, if_true]
    exact ⟨And.left, fun husable => ⟨husable, hconnect.mono fun _ _ => trivial⟩⟩
  · simp only [createDatabase, returns_bind, disconnect_returns h, if_true]
    exact ⟨husable, hconnect.mono fun _ hp => hp.1⟩

theorem dropDatabase_decides {o : Object} (h : Sound o) (r : Replies) (name : Text) :
    Decides (Usable o ∧ ∀ impl ∈ o.pimpl, impl.dbName ≠ name) (dropDatabase r name o) fun p => Sound p.2 := by
  cases himpl : o.pimpl with
  | none =>
    refine .of_aborts (by simp [Usable, himpl]) ((aborts_iff _).mpr ?_)
    simp [dropDatabase, himpl]
  | some impl =>
    obtain ⟨catalog, hcatalog⟩ := Option.isSome_iff_exists.mp (h.driverImpl.trans (by simp [himpl]))
    by_cases hname : impl.dbName = name
    · refine .of_aborts (by simp [hname]) ((aborts_iff _).mpr ?_)
      simp [dropDatabase, himpl, hname, disconnect_returns h]
    · refine .of_iff ?_ fun husable => ?_
      · simp [dropDatabase, himpl, hcatalog, hname, Usable]
      · simpa [dropDatabase, himpl, hcatalog, hname, husable.1.2] using h

theorem decided : Decided conditions Sound where
  connectToDb := connectToDb_decides
  createDatabase o h r name := createDatabase_decides h r name
  dropDatabase o h r name := dropDatabase_decides h r name
  close o h r := by
    have hclose : ∀ Q : Unit → Prop, Returns (Native.postgres.driver.close r o) Q ↔ Usable o ∧ Q () := by
      intro Q
      cases himpl : o.pimpl <;> simp [Driver.close, Native.driver, disconnect_returns h, destroy, himpl, Usable]
    exact .of_iff (by simp [hclose, conditions]) fun husable => (hclose _).mpr ⟨husable, trivial⟩
  discard o h := by
    cases himpl : o.pimpl with
    | none =>
      refine .of_aborts (by simp [conditions, himpl]) ((aborts_iff _).mpr ?_)
      simp [Driver.discard, himpl]
    | some impl => exact .of_returns (by simp [conditions, himpl]) (by simp [Driver.discard, Native.driver, destroy, himpl])

end Postgres

namespace MySQL

structure Sound (o : Object) : Prop where
  driverImpl : o.driverImpl.isSome
  db : o.db = .opened
  tables : ∃ impl, o.pimpl = some impl ∧ AllAlive impl.tables

@[simp] theorem sound_some (impl : Impl) (catalog : Text) (b c : Bool) :
    Sound ⟨some impl, some catalog, .opened, b, c⟩ ↔ AllAlive impl.tables := by
  constructor
  · rintro ⟨-, -, i, hi, halive⟩
    obtain rfl := Option.some.inj hi
    exact halive
  · intro halive
    exact ⟨rfl, rfl, impl, rfl, halive⟩

theorem disconnect_returns {o : Object} {impl : Impl} (himpl : o.pimpl = some impl) (hdb : o.db ≠ .closed)
    (Q : Code × Object → Prop) :
    Returns (disconnect o) Q ↔ AllAlive impl.tables ∧ Q (.done, { o with
      pimpl := some { impl with tables := impl.tables.map fun t => { t with life := .released } }
      driverImpl := none
      db := .null }) := by
  simp [disconnect, himpl, hdb]

theorem createSystemObjects_returns (catalog : Text) (b c : Bool) (r : Replies) :
    Returns (createSystemObjectsAndGetDatabaseInfo r ⟨some ⟨[], []⟩, some catalog, .opened, b, c⟩) fun p =>
      (p.1 = .done → Sound p.2) ∧ p.2.db ≠ .closed ∧ ∃ impl, p.2.pimpl = some impl ∧
      ((r.systemObjects = true → r.listed = true ∨ r.loaded = 0) ↔ (p.1 = .failed → AllAlive impl.tables)) := by
  cases hobjects : r.systemObjects with
  | false => simp [createSystemObjectsAndGetDatabaseInfo, hobjects]
  | true =>
    cases hlisted : r.listed with
    | false =>
      simp [createSystemObjectsAndGetDatabaseInfo, getTableListFromDb, disconnect, hobjects, hlisted,
        allAlive_released, Impl.load]
    | true =>
      cases huser : r.user <;>
        simp [createSystemObjectsAndGetDatabaseInfo, getTableListFromDb, hobjects, hlisted, huser]

theorem connect_returns (r : Replies) (name : Text) :
    Returns (connect r name fresh) fun p => (p.1 = .done → Sound p.2) ∧ p.2.db ≠ .closed ∧
      ∃ impl, p.2.pimpl = some impl ∧ (r.Clean ↔ (p.1 = .failed → AllAlive impl.tables)) := by
  by_cases hreached : (r.initialised && r.tokenized && r.connected) = true
  · obtain ⟨⟨hinitialised, htokenized⟩, hconnected⟩ : (r.initialised = true ∧ r.tokenized = true) ∧ r.connected = true := by
      simpa using hreached
    cases hnamed : r.namesDatabase with
    | false =>
      cases hserver : (!r.serverQuery && r.stored) <;>
        simp [connect, fresh, hinitialised, htokenized, hconnected, hnamed, hserver, Replies.Clean]
    | true =>
      simp [connect, fresh, hinitialised, htokenized, hconnected, hnamed, Replies.Clean]
      refine (createSystemObjects_returns [] false true r).mono fun p hp => ⟨fun hdone => ?_, fun _ => hp⟩
      obtain ⟨impl, himpl, -⟩ := (hp.1 hdone).tables
      exact ⟨(hp.1 hdone).db, ⟨impl, himpl⟩, hp⟩
  · cases hinitialised : r.initialised <;> cases htokenized : r.tokenized <;> cases hconnected : r.connected <;>
      simp_all [connect, fresh, Replies.Clean]

theorem connectToDb_decides (name : Text) (r : Replies) :
    Decides r.Clean (Native.mySQL.driver.connectToDb name r) fun o => ∀ p ∈ o, Sound p := by
  obtain ⟨⟨code, o⟩, hconnect, hsound, hdb, impl, himpl, hclean⟩ := connect_returns r name
  rw [hclean]
  have hloader : ∀ Q : Option Object → Prop, Returns (Native.mySQL.driver.connectToDb name r) Q ↔
      (code = .failed → AllAlive impl.tables) ∧ (code = .done → Q (some o)) ∧ (code ≠ .done → Q none) := by
    intro Q
    simp only [Driver.connectToDb, Native.driver, returns_bind, hconnect, returns_ok]
    cases code <;> simp [disconnect_returns himpl hdb, destroy]
  exact .of_iff (by simp [hloader]) fun halive => (hloader _).mpr ⟨halive, fun hdone => by simpa using hsound hdone, by simp⟩

theorem decided : Decided conditions Sound where
  connectToDb := connectToDb_decides
  createDatabase o h r name := by
    obtain ⟨impl, himpl, halive⟩ := h.tables
    refine .of_aborts id ((aborts_iff _).mpr ?_)
    simp [Native.driver, createDatabase, disconnect, himpl]
  dropDatabase o h r name := by
    obtain ⟨catalog, hcatalog⟩ := Option.isSome_iff_exists.mp h.driverImpl
    refine .of_returns trivial ?_
    simpa [Native.driver, dropDatabase, hcatalog, h.db] using h
  close o h r := by
    obtain ⟨impl, himpl, halive⟩ := h.tables
    refine .of_returns trivial ?_
    simp [Driver.close, Native.driver, disconnect, destroy, himpl, h.db, halive]
  discard o h := by
    obtain ⟨impl, himpl, halive⟩ := h.tables
    obtain ⟨catalog, hcatalog⟩ := Option.isSome_iff_exists.mp h.driverImpl
    refine .of_returns trivial ?_
    simp [Driver.discard, Native.driver, destroy, himpl, hcatalog, halive.filter]

end MySQL

theorem Native.decided : ∀ n : Native, ∃ Sound, Decided n.conditions Sound
  | .sqlite => ⟨_, SQLite.decided⟩
  | .postgres => ⟨_, Postgres.decided⟩
  | .mySQL => ⟨_, MySQL.decided⟩

theorem lifecycle_safe_iff (n : Native) (es : List (Event n.driver)) :
    EachStep n.driver.step (fun _ _ w => Returns w fun _ => True) (.ok none) es ↔
      EachStep n.driver.step (fun w e _ => n.conditions.HoldsIn w e) (.ok none) es := by
  obtain ⟨Sound, hdecided⟩ := n.decided
  exact hdecided.eachStep_iff es

def withoutVersion : Postgres.Replies :=
  { status := true, version := false, parsed := true, serverQuery := true, start := true, tables := [],
    indexes := true, commit := true, catalog := "shop".toList, loaded := 3, listed := true, dropped := true }

theorem version_failure_closes_twice :
    ¬ EachStep Native.postgres.driver.step (fun _ _ w => Returns w fun _ => True) (.ok none)
      [.connectToDb "user = bob dbname = shop".toList withoutVersion] := by
  intro h
  rw [eachStep_cons] at h
  obtain ⟨⟨o, ho, -⟩, -⟩ := h (.error .closedTwice) rfl
  cases ho

end DbHandler.Lifecycle
