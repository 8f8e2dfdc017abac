import DbHandler.Odbc.SystemObjects

namespace DbHandler.OdbcSystemObjects

open Odbc Odbc.Session

/-- The server behind the driver: its objects with and without the open transaction, whether the result set of
the last statement has a row, what was looked for and found, and what was to be created. -/
structure Database where
  existing : SystemObject → Bool
  committed : SystemObject → Bool
  rows : Option Bool
  queried : List (SystemObject × Bool)
  attempted : List SystemObject

namespace Database

def look (o : SystemObject) (db : Database) : Database := { db with queried := db.queried ++ [(o, db.existing o)] }

def add (o : SystemObject) (db : Database) : Database :=
  { db with existing := fun x => x = o || db.existing x, attempted := db.attempted ++ [o], rows := none }

/-- What is there is not created again: with IF NOT EXISTS that is a success, without it an error. -/
def execute (db : Database) : Option Effect → Ret × Database
  | none => (.success, { db with rows := none })
  | some (.ensure o) => (.success, if db.existing o then { db.look o with rows := none } else (db.look o).add o)
  | some (.create o) => (if db.existing o then .error else .success, db.add o)
  | some (.find o) => (.success, { db.look o with rows := some (db.existing o) })
  | some (.offer o) => (.success, { db.look o with rows := some true })

def fetched (db : Database) : Ret :=
  match db.rows with
  | none => .error
  | some true => .success
  | some false => .noData

def serve (db : Database) (statement : Option SystemStatement) : Site → Ret × Database
  | .exec _ | .findIndex _ | .createIndex _ => db.execute (statement.map SystemStatement.effect)
  | .fetch _ | .fetchIndex _ => (db.fetched, db)
  | .commit => (.success, { db with committed := db.existing })
  | .rollback _ => (.success, { db with existing := db.committed })
  | _ => (.success, db)

def opened (existed : SystemObject → Bool) : Database := ⟨existed, existed, none, [], []⟩

end Database

/-- Each call succeeds or fails; no call is made twice. -/
def server (ok : Site → Bool) : Driver Database where
  answer db site statement := if ok site then db.serve statement site else (.error, db)
  diagnostics _ := []

structure Tracked (existed : SystemObject → Bool) (db : Database) : Prop where
  committed : ∀ o, existed o → db.committed o
  existing : ∀ o, db.committed o → db.existing o
  added : ∀ o, db.existing o → existed o ∨ o ∈ db.attempted
  attempted : ∀ o ∈ db.attempted, existed o = false
  queried : ∀ o, (o, false) ∈ db.queried → existed o = false

namespace Tracked

theorem opened (existed : SystemObject → Bool) : Tracked existed (Database.opened existed) :=
  ⟨fun _ ho => ho, fun _ ho => ho, fun _ ho => .inl ho, by simp [Database.opened], by simp [Database.opened]⟩

variable {existed : SystemObject → Bool} {db : Database} (h : Tracked existed db)

include h

theorem absent {o : SystemObject} (ho : db.existing o = false) : existed o = false := by
  by_contra hex
  have hthere := h.existing o (h.committed o (by simpa using hex))
  rw [ho] at hthere
  cases hthere

theorem look (o : SystemObject) : Tracked existed (db.look o) where
  committed := h.committed
  existing := h.existing
  added := h.added
  attempted := h.attempted
  queried x hx := by
    rcases List.mem_append.mp hx with hx | hx
    · exact h.queried x hx
    · obtain ⟨rfl, hnot⟩ := Prod.mk.inj (List.mem_singleton.mp hx)
      exact h.absent hnot.symm

theorem add {o : SystemObject} (ho : db.existing o = false) : Tracked existed (db.add o) where
  committed := h.committed
  existing x hx := by simp [Database.add, h.existing x hx]
  added x hx := by
    simp only [Database.add, Bool.or_eq_true, decide_eq_true_eq] at hx
    rcases hx with rfl | hx
    · exact .inr (by simp [Database.add])
    · exact (h.added x hx).imp id fun hmem => List.mem_append_left _ hmem
  attempted x hx := by
    rcases List.mem_append.mp hx with hx | hx
    · exact h.attempted x hx
    · obtain rfl := List.mem_singleton.mp hx
      exact h.absent ho
  queried := h.queried

theorem withRows (rows : Option Bool) : Tracked existed { db with rows := rows } :=
  ⟨h.committed, h.existing, h.added, h.attempted, h.queried⟩

theorem commit : Tracked existed { db with committed := db.existing } :=
  ⟨fun o ho => h.existing o (h.committed o ho), fun _ ho => ho, h.added, h.attempted, h.queried⟩

theorem rollback : Tracked existed { db with existing := db.committed } :=
  ⟨h.committed, fun _ ho => ho, fun o ho => h.added o (h.existing o ho), h.attempted, h.queried⟩

theorem execute (effect : Option Effect) (hcreate : ∀ o, effect = some (.create o) → db.existing o = false) :
    Tracked existed (db.execute effect).2 := by
  match effect with
  | none => exact h.withRows none
  | some (.ensure o) =>
    rw [Database.execute]
    by_cases ho : db.existing o
    · rw [if_pos ho]
      exact (h.look o).withRows none
    · rw [if_neg ho]
      exact (h.look o).add ((Bool.not_eq_true _).mp ho)
  | some (.create o) => exact h.add (hcreate o rfl)
  | some (.find o) => exact (h.look o).withRows _
  | some (.offer o) => exact (h.look o).withRows _

theorem answer {ok : Site → Bool} {site : Site} {statement : Option SystemStatement}
    (hcreate : ∀ o, statement.map SystemStatement.effect = some (.create o) → db.existing o = false) :
    Tracked existed ((server ok).answer db site statement).2 := by
  change Tracked existed (if ok site then db.serve statement site else (.error, db)).2
  by_cases hok : ok site
  · rw [if_pos hok]
    cases site with
    | exec | findIndex | createIndex => exact h.execute _ hcreate
    | commit => exact h.commit
    | rollback => exact h.rollback
    | _ => exact h
  · rw [if_neg hok]
    exact h

end Tracked

structure Extends (existed : SystemObject → Bool) (built : Option SystemStatement → Prop) (s t : Session Database) :
    Prop where
  tracked : Tracked existed s.driver → Tracked existed t.driver
  executed : ∃ more, t.executed = s.executed ++ more ∧ ∀ q ∈ more, built q

namespace Extends

variable {existed : SystemObject → Bool} {built : Option SystemStatement → Prop} {s t u : Session Database}

theorem of_eq (hdriver : t.driver = s.driver) (hexecuted : t.executed = s.executed) : Extends existed built s t where
  tracked h := hdriver ▸ h
  executed := ⟨[], by simp [hexecuted]⟩

theorem refl (s : Session Database) : Extends existed built s s := of_eq rfl rfl

theorem trans (h₁ : Extends existed built s t) (h₂ : Extends existed built t u) : Extends existed built s u where
  tracked h := h₂.tracked (h₁.tracked h)
  executed := by
    obtain ⟨more₁, he₁, hb₁⟩ := h₁.executed
    obtain ⟨more₂, he₂, hb₂⟩ := h₂.executed
    refine ⟨more₁ ++ more₂, by rw [he₂, he₁, List.append_assoc], fun q hq => ?_⟩
    exact (List.mem_append.mp hq).elim (hb₁ q) (hb₂ q)

theorem mem_executed {q : Option SystemStatement} (h : Extends existed built s t) (hq : q ∈ s.executed) :
    q ∈ t.executed := by
  obtain ⟨more, hmore, -⟩ := h.executed
  rw [hmore]
  exact List.mem_append_left _ hq

theorem same (h : Extends existed built s t) (hdriver : u.driver = t.driver) (hexecuted : u.executed = t.executed) :
    Extends existed built s u := h.trans (of_eq hdriver hexecuted)

variable (ok : Site → Bool) (site : Site)

theorem ask {statement : Option SystemStatement}
    (hcreate : ∀ o, statement.map SystemStatement.effect = some (.create o) → s.driver.existing o = false) :
    Extends existed built s (s.ask (server ok) site statement) where
  tracked h := h.answer hcreate
  executed := ⟨[], (List.append_nil _).symm, by simp⟩

theorem ask_none : Extends existed built s (s.ask (server ok) site none) := ask ok site (by simp)

theorem onStatement {statement : Option SystemStatement}
    (hcreate : ∀ o, statement.map SystemStatement.effect = some (.create o) → s.driver.existing o = false) :
    Extends existed built s (s.onStatement (server ok) site statement) := by
  rw [Session.onStatement]
  cases s.hstmt with
  | live => exact ask ok site hcreate
  | null => exact of_eq rfl rfl
  | freed => exact of_eq rfl rfl

theorem onStatement_none : Extends existed built s (s.onStatement (server ok) site none) := onStatement ok site (by simp)

@[simp] theorem onStatement_executed (statement : Option SystemStatement) :
    (s.onStatement (server ok) site statement).executed = s.executed := by
  rw [Session.onStatement]
  cases s.hstmt <;> rfl

theorem execAt {statement : Option SystemStatement} (hbuilt : built statement)
    (hcreate : ∀ o, statement.map SystemStatement.effect = some (.create o) → s.driver.existing o = false) :
    Extends existed built s (s.execAt (server ok) site statement) where
  tracked := (onStatement ok site hcreate : Extends existed built s _).tracked
  executed := ⟨[statement], rfl, by simpa using hbuilt⟩

theorem alloc : Extends existed built s (s.alloc (server ok) site) := (ask_none ok site).same rfl rfl

theorem free : Extends existed built s (s.free (server ok) site) := by
  rw [Session.free]
  cases s.hstmt with
  | live => exact (ask_none ok site).same rfl rfl
  | null => exact of_eq rfl rfl
  | freed => exact of_eq rfl rfl

theorem statementError : Extends existed built s (s.statementError (server ok)) := by
  rw [Session.statementError]
  cases s.hstmt <;> exact of_eq rfl rfl

theorem rollBack : Extends existed built s (s.rollBack (server ok) site) :=
  (statementError ok).trans ((ask_none ok (.rollback site)).same rfl rfl)

theorem check (looked : Bool) : Extends existed built s (s.check (server ok) site looked) := by
  rw [Session.check]
  split
  · exact refl s
  · exact rollBack ok site

end Extends

def Guards (qs : ℕ → Option SystemStatement) (p : Pair) : Prop :=
  ∀ o, (qs (p.number + 1)).map SystemStatement.effect = some (.create o) →
    p.fetches = true → (qs p.number).map SystemStatement.effect = some (.find o)

section Pairs

variable {existed : SystemObject → Bool} {built : Option SystemStatement → Prop} {ok : Site → Bool}
  {qs : ℕ → Option SystemStatement} {s : Session Database} {o : SystemObject} {n : ℕ}

theorem rows_of_find {site : Site} {statement : Option SystemStatement}
    (hsite : ∀ db : Database, db.serve statement site = db.execute (statement.map SystemStatement.effect))
    (hfind : statement.map SystemStatement.effect = some (.find o))
    (hret : (s.execAt (server ok) site statement).ret.isOk) :
    (s.execAt (server ok) site statement).driver.rows =
      some ((s.execAt (server ok) site statement).driver.existing o) := by
  simp only [execAt, onStatement] at hret ⊢
  cases hhandle : s.hstmt with
  | null => simp [hhandle, invalid, Ret.isOk] at hret
  | freed => simp [hhandle, invalid, Ret.isOk] at hret
  | live =>
    simp only [hhandle, ask, server] at hret ⊢
    by_cases hok : ok site
    · simp [hok, hsite, Database.execute, hfind, Database.look]
    · simp [hok, Ret.isOk] at hret

theorem existing_of_noData {site : Site} (hsite : ∀ db : Database, db.serve none site = (db.fetched, db))
    (hrows : s.driver.rows = some (s.driver.existing o))
    (hret : (s.onStatement (server ok) site none).ret = .noData) :
    (s.onStatement (server ok) site none).driver.existing o = false := by
  rw [onStatement] at hret ⊢
  cases hhandle : s.hstmt with
  | null => simp [hhandle, invalid] at hret
  | freed => simp [hhandle, invalid] at hret
  | live =>
    simp only [hhandle, ask, server] at hret ⊢
    by_cases hok : ok site
    · simp only [hok, if_true, hsite, Database.fetched, hrows] at hret ⊢
      cases hex : s.driver.existing o with
      | true => simp [hex] at hret
      | false => rfl
    · simp [hok] at hret

section Idle

variable {site : Site} (hidle : ∀ db : Database, db.serve none site = (.success, db))

include hidle

theorem driver_ask : (s.ask (server ok) site none).driver = s.driver := by
  simp only [ask, server, hidle]
  split <;> rfl

theorem driver_onStatement : (s.onStatement (server ok) site none).driver = s.driver := by
  rw [onStatement]
  cases s.hstmt with
  | live => exact driver_ask hidle
  | null => rfl
  | freed => rfl

theorem driver_free : (s.free (server ok) site).driver = s.driver := by
  rw [free]
  cases s.hstmt with
  | live => exact driver_ask hidle
  | null => rfl
  | freed => rfl

theorem driver_alloc : (s.alloc (server ok) site).driver = s.driver := driver_ask hidle

end Idle

theorem extends_createMissing (hbuilt : built (qs (n + 1)))
    (hcreate : ∀ o, (qs (n + 1)).map SystemStatement.effect = some (.create o) → s.driver.existing o = false) :
    Extends existed built s (s.createMissing (server ok) qs n) := by
  rw [createMissing]
  refine (Extends.free ok (.freeTest n)).trans ?_
  split
  · have hclear : Extends existed built (s.free (server ok) (.freeTest n)) (s.free (server ok) (.freeTest n)).clear :=
      .of_eq rfl rfl
    refine (hclear.trans (Extends.alloc ok (.allocAgain n))).trans ?_
    dsimp only
    split
    · refine (Extends.execAt ok _ hbuilt fun o ho => ?_).trans (Extends.check ok _ true)
      rw [driver_alloc fun _ => rfl]
      change (s.free (server ok) (.freeTest n)).driver.existing o = false
      rw [driver_free fun _ => rfl]
      exact hcreate o ho
    · exact Extends.rollBack ok _
  · exact Extends.rollBack ok _

theorem extends_testAndCreate {p : Pair} (htest : built (qs p.number)) (hnext : built (qs (p.number + 1)))
    (hguards : Guards qs p)
    (hfirst : ∀ o, (qs p.number).map SystemStatement.effect ≠ some (.create o)) :
    Extends existed built s (s.testAndCreate (server ok) qs p) := by
  rw [testAndCreate]
  refine (Extends.execAt ok (.exec p.number) htest fun o ho => absurd ho (hfirst o)).trans ?_
  dsimp only
  split
  · rename_i hret
    by_cases hfetches : p.fetches = true
    · rw [if_pos hfetches]
      refine (Extends.onStatement_none ok (.fetch p.number)).trans ?_
      split
      · rename_i hnoData
        refine extends_createMissing hnext fun o ho => ?_
        exact existing_of_noData (fun _ => rfl) (rows_of_find (fun _ => rfl) (hguards o ho hfetches) hret) hnoData
      · exact Extends.check ok _ _
    · rw [if_neg hfetches]
      split
      · rename_i hnoData
        rw [hnoData] at hret
        cases hret
      · exact Extends.check ok _ _
  · exact Extends.check ok _ _

theorem extends_freePair {p : Pair} : Extends existed built s (s.freePair (server ok) p) :=
  ((Extends.free ok (.free p.number)).trans (Extends.check ok (.free p.number) true)).same rfl rfl

theorem extends_pair {p : Pair} (htest : built (qs p.number)) (hnext : built (qs (p.number + 1)))
    (hguards : Guards qs p) (hfirst : ∀ o, (qs p.number).map SystemStatement.effect ≠ some (.create o)) :
    Extends existed built s (s.pair (server ok) qs p) := by
  rw [pair]
  split
  · exact .refl s
  · refine (Extends.alloc ok (.alloc p.number)).trans ?_
    dsimp only
    split
    · exact (extends_testAndCreate htest hnext hguards hfirst).trans extends_freePair
    · refine (Extends.check ok (.alloc p.number) p.allocLooked).trans ?_
      split
      · exact extends_freePair
      · exact .refl _

theorem extends_runTexts {ns : List ℕ} (hbuilt : ∀ n ∈ ns, built (qs n))
    (hcreate : ∀ n ∈ ns, ∀ o, (qs n).map SystemStatement.effect ≠ some (.create o)) :
    Extends existed built s (s.runTexts (server ok) qs ns) := by
  induction ns generalizing s with
  | nil => exact .refl s
  | cons n ns ih =>
    have hexec : Extends existed built s (s.execAt (server ok) (.exec n) (qs n)) :=
      Extends.execAt ok _ (hbuilt n (by simp)) fun o ho => absurd ho (hcreate n (by simp) o)
    rw [runTexts]
    split
    · exact hexec.trans (ih (fun m hm => hbuilt m (by simp [hm])) fun m hm => hcreate m (by simp [hm]))
    · exact hexec

theorem effect_postgresFind (i : SystemIndex) :
    (some (SystemStatement.postgresFind i)).map SystemStatement.effect = some (.find (.index i)) := rfl

theorem effect_postgresCreate (i : SystemIndex) :
    (some (SystemStatement.postgresCreate i)).map SystemStatement.effect = some (.create (.index i)) := rfl

theorem extends_createIndexOnPostgreConnection (hbuilt : ∀ statement, built (some statement)) (i : SystemIndex) :
    Extends existed built s (s.createIndexOnPostgreConnection (server ok) i).2 := by
  rw [createIndexOnPostgreConnection]
  have hfind := effect_postgresFind i
  have hcreate := effect_postgresCreate i
  have hfindBuilt := hbuilt (SystemStatement.postgresFind i)
  have hcreateBuilt := hbuilt (SystemStatement.postgresCreate i)
  generalize some (SystemStatement.postgresFind i) = find at *
  generalize some (SystemStatement.postgresCreate i) = create at *
  refine (Extends.execAt ok (.findIndex i) hfindBuilt (by simp [hfind])).trans ?_
  dsimp only
  split
  · rename_i hret
    refine (Extends.onStatement_none ok (.fetchIndex i)).trans ?_
    split
    · rename_i hnoData
      refine (Extends.onStatement_none ok (.closeTest i)).trans ?_
      split
      · have habsent := existing_of_noData (fun _ => rfl) (rows_of_find (fun _ => rfl) hfind hret) hnoData
        refine (Extends.execAt ok (.createIndex i) hcreateBuilt fun o ho => ?_).trans ?_
        · obtain rfl : SystemObject.index i = o := by simpa [hcreate] using ho
          rw [driver_onStatement fun _ => rfl]
          exact habsent
        · split
          · exact .refl _
          · exact Extends.statementError ok
      · exact Extends.statementError ok
    · split
      · exact .refl _
      · exact Extends.statementError ok
  · exact Extends.statementError ok

theorem extends_createIndexesOnPostgreConnection (hbuilt : ∀ statement, built (some statement)) :
    Extends existed built s (s.createIndexesOnPostgreConnection (server ok)).2 := by
  rw [createIndexesOnPostgreConnection]
  have hfirst : Extends existed built s (s.createIndexOnPostgreConnection (server ok) .abcattbl_tnam_ownr).2 :=
    extends_createIndexOnPostgreConnection hbuilt _
  generalize s.createIndexOnPostgreConnection (server ok) .abcattbl_tnam_ownr = first at *
  obtain ⟨failed, t⟩ := first
  cases failed with
  | true => exact hfirst.same rfl rfl
  | false =>
    have hclose : Extends existed built s (t.onStatement (server ok) .closeFirst none) :=
      hfirst.trans (Extends.onStatement_none ok .closeFirst)
    simp only [Bool.false_eq_true, if_false]
    split
    · exact (hclose.trans (extends_createIndexOnPostgreConnection hbuilt _)).same rfl rfl
    · exact (hclose.trans (Extends.statementError ok)).same rfl rfl

end Pairs

end DbHandler.OdbcSystemObjects
