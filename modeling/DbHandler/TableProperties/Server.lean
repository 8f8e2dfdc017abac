import Mathlib.Algebra.Group.Nat.Defs
import Mathlib.Algebra.Group.Int.Defs
import Mathlib.Data.List.DropRight
import DbHandler.TableProperties.Agreement
import DbHandler.Sqlite.TableProperties
import DbHandler.Postgres.TableProperties

namespace DbHandler.PropertyStatements

open Foundation.Sql Foundation.Encoding

def tnamColumn : Text := "abt_tnam".toList

def tidColumn : Text := "abt_tid".toList

def ownrColumn : Text := "abt_ownr".toList

def cmntColumn : Text := "abt_cmnt".toList

def keyOf (row : Row) : Option Text × Option Text := (row tnamColumn, row ownrColumn)

/-- The rows of `abcattbl`; the name of the table and its owner are the primary key. -/
structure Content where
  rows : List Row
  keys_nodup : (rows.map keyOf).Nodup

namespace Content

def ofRows (rows : List Row) : Option Content :=
  if h : (rows.map keyOf).Nodup then some ⟨rows, h⟩ else none

def ofKey (content : Content) (tnam ownr : Text) : List Row :=
  content.rows.filter fun row => keyOf row = (some tnam, some ownr)

def update (content : Content) (u : Update) : Option Content :=
  ofRows (content.rows.map fun row => if u.Selects row then u.apply row else row)

def insert (content : Content) (i : Insert) : Option Content :=
  if i.values.length = abcattblColumns.length then ofRows (content.rows ++ [i.row abcattblColumns]) else none

/-- A statement on the table; PostgreSQL refuses more than one assignment to a column. -/
def perform (content : Content) (repeatable : Bool) (catalog text : Text) : Option Content :=
  match interpretUpdate text with
  | some u =>
    if u.table = catalog ∧ (repeatable ∨ (u.assignments.map Prod.fst).Nodup) then content.update u else none
  | none => (interpretInsert text).bind fun i => if i.table = catalog then content.insert i else none

end Content

/-- A server that may refuse any statement, and for SQLite what it makes of a statement that was cut short. -/
structure Engine where
  refuses : Text → Content → Bool
  cutShort : Text → Content → Option Content

def sqliteCatalog : Text := "sys.abcattbl".toList

def postgresCatalog : Text := "abcattbl".toList

namespace Engine

def refused : Text := "refused".toList

def Arrives (text : Text) : Prop := (utf8 text).length ≤ text.length + 1

instance (text : Text) : Decidable (Arrives text) := inferInstanceAs (Decidable (_ ≤ _))

def sqliteRun (e : Engine) (text : Text) (content : Content) : Option Content :=
  if Arrives text then if e.refuses text content then none else content.perform true sqliteCatalog text
  else e.cutShort text content

def postgresRun (e : Engine) (text : Text) (content : Content) : Option Content :=
  if e.refuses text content then none else content.perform false postgresCatalog text

def storedValue (stored : Option Text) : Sqlite.Value := stored.elim .null .text

def storedColumns (row : Row) : List Sqlite.Value := abcattblColumns.map fun column => storedValue (row column)

def sqlite (e : Engine) : Sqlite.Client Content where
  exec content statement := if e.refuses statement.text content then (some refused, content) else (none, content)
  prepare content _ := (none, content)
  bindText content _ _ _ := (none, content)
  step content query values :=
    let rows := content.ofKey (values.getD 0 []) (values.getD 1 [])
    match query with
    | .commandCut text =>
      match e.sqliteRun text content with
      | some after => (⟨[], none⟩, after)
      | none => (⟨[], some refused⟩, content)
    | .tableProperties => (⟨rows.map storedColumns, none⟩, content)
    | _ => (⟨rows.map fun _ => [.integer 1], none⟩, content)

def bytes (count : ℕ) (n : ℤ) : Text :=
  (List.range count).reverse.map fun i => Char.ofNat ((n % 2 ^ (8 * count)).toNat / 2 ^ (8 * i) % 256)

/-- The binary form of a column; a value that is NULL has no bytes. -/
def binary (count : ℕ) (stored : Option Text) : Text := stored.elim [] fun text => bytes count (leadingInt text)

def rtrim (text : Text) : Text := text.rdropWhile (· = ' ')

def trimmed (stored : Option Text) : Text := stored.elim [] rtrim

def binaryFont (row : Row) (c : FontColumns) : List Text :=
  [binary 2 (row c.fhgt.toList), binary 2 (row c.fwgt.toList), (row c.fitl.toList).getD [], binary 4 (row c.funl.toList),
    binary 4 (row c.fstr.toList), binary 2 (row c.fchr.toList), binary 2 (row c.fptc.toList), trimmed (row c.ffce.toList)]

def binaryColumns (row : Row) : List Text :=
  [trimmed (row tnamColumn), binary 4 (row tidColumn), trimmed (row ownrColumn)] ++ binaryFont row dataColumns ++
    binaryFont row headingColumns ++ binaryFont row labelColumns ++ [trimmed (row cmntColumn)]

def matching (content : Content) (values : List Bytes) : List Row :=
  content.rows.filter fun row =>
    [(row tnamColumn).map utf8, (row ownrColumn).map utf8] = values.map some

def postgres (e : Engine) : Postgres.Client Content where
  exec content statement :=
    match statement.entry with
    | .work text =>
      match e.postgresRun text content with
      | some after => (.commandOk, after)
      | none => (.failed refused, content)
    | _ => if e.refuses statement.text content then (.failed refused, content) else (.commandOk, content)
  execParams content query values :=
    match query with
    | .tableProperties => (.tuplesOk ((matching content values).map binaryColumns), content)
    | _ => (.tuplesOk ((matching content values).map fun _ => [['1']]), content)

end Engine

inductive Server
  | sqlite
  | postgres (connectedUser : Text)

def setTableProperties (server : Server) (e : Engine) (content : Content) (t : DatabaseTable) (p : LoadedProperties) :
    ℕ × Content :=
  match server with
  | .sqlite =>
    let r := Sqlite.setTableProperties e.sqlite t p.written false [] ⟨content, [], []⟩
    (r.1, r.2.2.server)
  | .postgres user =>
    let r := Postgres.setTableProperties e.postgres user t p.written false [] ⟨content, [], []⟩
    (r.1, r.2.2.server)

def getTableProperties (server : Server) (e : Engine) (content : Content) (t : DatabaseTable) (old : LoadedProperties) :
    Option (ℕ × LoadedProperties) :=
  match server with
  | .sqlite => (Sqlite.getTableProperties e.sqlite t old ⟨content, [], []⟩).map fun r => (r.1, r.2.1)
  | .postgres _ =>
    let r := Postgres.getTableProperties e.postgres t old ⟨content, [], []⟩
    some (r.1, r.2.1)

section Sqlite

variable {e : Engine} {content after : Content} {t : DatabaseTable} {p : LoadedProperties}

theorem sqlite_isTablePropertiesExist (s : Sqlite.Session Content) :
    Sqlite.isTablePropertiesExist e.sqlite t s = (!(s.server.ofKey t.tableName t.owner).isEmpty, s) := by
  simp only [Sqlite.isTablePropertiesExist, Sqlite.Session.prepare, Sqlite.Session.report, Engine.sqlite, if_true,
    Sqlite.tableKey, Sqlite.bindAll, Sqlite.Session.bindText, Sqlite.Session.step, List.append_nil]
  cases hrows : s.server.ofKey t.tableName t.owner <;> simp [hrows]

theorem sqlite_setTableProperties (h : setTableProperties .sqlite e content t p = (0, after)) :
    e.sqliteRun (Driver.sqlite.command (!(content.ofKey t.tableName t.owner).isEmpty) [] t p.written) content =
      some after := by
  have hidle : (⟨content, [], []⟩ : Sqlite.Session Content).active = false := by
    simp [Sqlite.Session.active, Foundation.Journal.Store.idle]
  simp only [setTableProperties, Sqlite.setTableProperties] at h
  generalize hcommand : Driver.sqlite.command (!(content.ofKey t.tableName t.owner).isEmpty) [] t p.written = command
  by_cases hbegin : e.refuses Statement.beginTransaction.text content
  · have hexec : (⟨content, [], []⟩ : Sqlite.Session Content).exec e.sqlite .beginTransaction =
        (false, ⟨content, [], [Engine.refused]⟩) := by
      simp only [Sqlite.Session.exec, hidle, Bool.false_eq_true, and_false, if_false, Sqlite.Session.report, Engine.sqlite,
        hbegin, if_true, List.nil_append]
    simp only [hexec, Bool.false_eq_true, if_false, Bool.false_and] at h
    exact absurd (congrArg Prod.fst h) Nat.one_ne_zero
  · have hexec : (⟨content, [], []⟩ : Sqlite.Session Content).exec e.sqlite .beginTransaction =
        (true, ⟨content, [.start], []⟩) := by
      simp only [Sqlite.Session.exec, hidle, Bool.false_eq_true, and_false, if_false, Sqlite.Session.report, Engine.sqlite,
        hbegin, List.nil_append, Statement.beginTransaction_entry]
    simp only [hexec, if_true, sqlite_isTablePropertiesExist, ne_eq, not_true_eq_false, if_false, hcommand,
      Bool.false_eq_true] at h
    have hprepare : (⟨content, [.start], []⟩ : Sqlite.Session Content).prepare e.sqlite (.commandCut command) =
        (true, ⟨content, [.start], []⟩) := rfl
    simp only [hprepare, if_true] at h
    cases hrun : e.sqliteRun command content with
    | none =>
      have hfail : (⟨content, [.start], []⟩ : Sqlite.Session Content).run e.sqlite (.commandCut command) [] command =
          (false, ⟨content, [.start], [Engine.refused]⟩) := by
        simp [Sqlite.Session.run, Sqlite.Session.step, Engine.sqlite, hrun, Sqlite.Session.fail]
      simp only [hfail, Bool.false_eq_true, if_false, Bool.false_and] at h
      exact absurd (congrArg Prod.fst h) Nat.one_ne_zero
    | some reached =>
      have hdone : (⟨content, [.start], []⟩ : Sqlite.Session Content).run e.sqlite (.commandCut command) [] command =
          (true, ⟨reached, [.start, .work command], []⟩) := by
        simp [Sqlite.Session.run, Sqlite.Session.step, Engine.sqlite, hrun, Sqlite.Session.perform]
      simp only [hdone, if_true] at h
      have hserver : ((⟨reached, [.start, .work command], []⟩ : Sqlite.Session Content).exec e.sqlite
          Sqlite.commitStatement).2.server = reached := by
        simp only [Sqlite.Session.exec, Sqlite.commitStatement_entry, reduceCtorEq, false_and, if_false, Engine.sqlite]
        split_ifs <;> rfl
      rw [← hserver]
      exact congrArg some (congrArg Prod.snd h)

theorem sqlite_getTableProperties (old : LoadedProperties) :
    getTableProperties .sqlite e content t old =
      (((content.ofKey t.tableName t.owner).map Engine.storedColumns).foldlM Sqlite.readTableProperties old).map
        fun r => (0, r) := by
  simp only [getTableProperties, Sqlite.getTableProperties, Sqlite.Session.prepare, Sqlite.Session.report, Engine.sqlite,
    if_true, Sqlite.tableKey, Sqlite.bindAll, Sqlite.Session.bindText, Sqlite.Session.step, List.append_nil,
    Option.map_map]
  rfl

end Sqlite

section Postgres

variable {e : Engine} {content after : Content} {t : DatabaseTable} {p : LoadedProperties} {user : Text}

theorem matching_eq (content : Content) (tnam ownr : Text) :
    Engine.matching content [utf8 tnam, utf8 ownr] = content.ofKey tnam ownr := by
  refine List.filter_congr fun row _ => ?_
  rw [decide_eq_decide, keyOf, Prod.mk.injEq]
  simp only [List.map_cons, List.map_nil, List.cons.injEq, and_true]
  have hmap : ∀ stored : Option Text, ∀ name : Text, stored.map utf8 = some (utf8 name) ↔ stored = some name := by
    intro stored name
    cases stored with
    | none => simp
    | some text => simpa using utf8_injective.eq_iff
  rw [hmap, hmap]

theorem postgres_isTablePropertiesExist (s : Postgres.Session Content) :
    Postgres.isTablePropertiesExist e.postgres t s = (!(s.server.ofKey (qualifiedName t) t.owner).isEmpty, s) := by
  simp only [Postgres.isTablePropertiesExist, Postgres.Session.execParams, Engine.postgres, matching_eq]
  cases s.server.ofKey (qualifiedName t) t.owner <;> simp

theorem postgres_setTableProperties (h : setTableProperties (.postgres user) e content t p = (0, after)) :
    e.postgresRun (Driver.postgres.command (!(content.ofKey (qualifiedName t) t.owner).isEmpty) user t p.written)
      content = some after := by
  simp only [setTableProperties, Postgres.setTableProperties] at h
  generalize hcommand :
    Driver.postgres.command (!(content.ofKey (qualifiedName t) t.owner).isEmpty) user t p.written = command
  by_cases hbegin : e.refuses Statement.beginTransaction.text content
  · have hexec : (⟨content, [], []⟩ : Postgres.Session Content).exec e.postgres .beginTransaction =
        (.failed Engine.refused, ⟨content, [], []⟩) := by
      simp [Postgres.Session.exec, Engine.postgres, hbegin, Postgres.Status.isOk]
    simp only [hexec, reduceCtorEq, if_false, Bool.false_eq_true] at h
    split at h <;> simp at h
  · have hexec : (⟨content, [], []⟩ : Postgres.Session Content).exec e.postgres .beginTransaction =
        (.commandOk, ⟨content, [.start], []⟩) := by
      simp [Postgres.Session.exec, Engine.postgres, hbegin, Postgres.Status.isOk]
    simp only [hexec, if_true, postgres_isTablePropertiesExist, ne_eq, not_true_eq_false, if_false, hcommand,
      Bool.false_eq_true] at h
    cases hrun : e.postgresRun command content with
    | none =>
      have hfail : (⟨content, [.start], []⟩ : Postgres.Session Content).exec e.postgres (.command command) =
          (.failed Engine.refused, ⟨content, [.start], []⟩) := by
        simp [Postgres.Session.exec, Engine.postgres, hrun, Postgres.Status.isOk]
      simp only [hfail, reduceCtorEq, if_false, Bool.false_eq_true] at h
      split at h <;> simp at h
    | some reached =>
      have hdone : (⟨content, [.start], []⟩ : Postgres.Session Content).exec e.postgres (.command command) =
          (.commandOk, ⟨reached, [.start, .work command], []⟩) := by
        simp [Postgres.Session.exec, Engine.postgres, hrun, Postgres.Status.isOk]
      simp only [hdone, if_true] at h
      have hserver : ((⟨reached, [.start, .work command], []⟩ : Postgres.Session Content).exec e.postgres
          .commit).2.server = reached := by
        simp only [Postgres.Session.exec, Engine.postgres, Statement.commit_entry]
        split_ifs <;> rfl
      split_ifs at h
      · rw [← hserver]
        exact congrArg some (congrArg Prod.snd h)
      · simp at h

theorem postgres_getTableProperties (old : LoadedProperties) :
    getTableProperties (.postgres user) e content t old =
      some (0, ((content.ofKey (qualifiedName t) t.owner).map Engine.binaryColumns).foldl Postgres.readTableProperties old) := by
  simp only [getTableProperties, Postgres.getTableProperties, Postgres.Session.execParams, Engine.postgres, matching_eq]

end Postgres

end DbHandler.PropertyStatements
