import DbHandler.Sqlite.Indexes
import DbHandler.Postgres.Indexes
import DbHandler.MySQL.Indexes
import DbHandler.Odbc.Indexes

namespace DbHandler.Indexes

open Foundation.Journal Foundation.Encoding

structure IndexEntry where
  schemaName : Text
  tableName : Text
  indexName : Text
  unique : Bool
  deriving DecidableEq, Repr

structure Catalog where
  indexes : List IndexEntry
  same : Bytes → Bytes → Bool
  same_refl : ∀ name, same name name = true

structure IndexCall where
  command : Text
  indexName : Text
  schemaName : Text
  tableName : Text
  errorMsg : List Text

namespace Catalog

def lookup (c : Catalog) (schemaName tableName indexName : Bytes) : List IndexEntry :=
  c.indexes.filter fun e =>
    c.same (utf8 e.schemaName) schemaName && c.same (utf8 e.tableName) tableName && c.same (utf8 e.indexName) indexName

/-- SQLite looks for the table in every schema. -/
def indexesOf (c : Catalog) (tableName : Bytes) : List IndexEntry :=
  c.indexes.filter fun e => c.same (utf8 e.tableName) tableName

def flag (b : Bool) : Text := if b then ['1'] else ['0']

/-- `seq`, `name`, `unique`, `origin`, `partial`. -/
def pragmaRows (entries : List IndexEntry) : List (List Sqlite.Value) :=
  entries.mapIdx fun i e =>
    [.integer i, .text e.indexName, .integer (if e.unique then 1 else 0), .text ['c'], .integer 0]

def rowsOf (entries : List IndexEntry) : List (List Text) := entries.map fun _ => [['1']]

def sqlite (c : Catalog) : Sqlite.Client Unit where
  exec _ _ := (none, ())
  prepare _ _ := (none, ())
  bindText _ _ _ _ := (none, ())
  step _ query _ :=
    match query with
    | .indexList table => (⟨pragmaRows (c.indexesOf table), none⟩, ())
    | _ => (⟨[], none⟩, ())

def invalidByteSequence : Text := "invalid byte sequence for encoding \"UTF8\": 0x00".toList

/-- A text parameter with a zero in it is rejected. -/
def postgres (c : Catalog) : Postgres.Client Unit where
  exec _ _ := (.commandOk, ())
  execParams _ _ values :=
    if values.any (0 ∈ ·) then (.failed invalidByteSequence, ())
    else (.tuplesOk (rowsOf (c.lookup (values.getD 0 []) (values.getD 1 []) (values.getD 2 []))), ())

def mySQL (c : Catalog) : MySQL.Client Unit where
  query _ _ := (none, ())
  stmtInit _ := (none, ())
  stmtPrepare _ _ := (none, ())
  bindParam _ _ _ := (none, ())
  execute _ _ _ := (none, ())
  fetch _ _ values := (c.lookup (values.getD 0 []) (values.getD 1 []) (values.getD 2 []) ≠ [], ())
  storeResult _ := (none, ())
  stmtClose _ := (none, ())

def odbc (found : Bool) : Odbc.Manager Unit where
  answer _ r := (if r = .fetch ∧ !found then .noData else .success, ())
  diagnostics _ := []

end Catalog

def IndexCall.exists (b : Backend) (c : Catalog) (call : IndexCall) : Prop :=
  match b with
  | .sqlite => ∃ e ∈ c.indexesOf (utf8 call.tableName), c.same (utf8 e.indexName) (utf8 call.indexName)
  | _ => c.lookup (utf8 call.schemaName) (utf8 call.tableName) (utf8 call.indexName) ≠ []

def createIndex (b : Backend) (c : Catalog) (subtype : Text) (call : IndexCall) : Option (ℕ × List (Entry Text)) :=
  match b with
  | .sqlite =>
    let r := Sqlite.createIndex c.sqlite call.command call.indexName call.tableName ⟨(), [], call.errorMsg⟩
    some (r.1, r.2.journal)
  | .postgres =>
    let r := Postgres.createIndex c.postgres call.command call.indexName call.schemaName call.tableName
      ⟨(), [], call.errorMsg⟩
    some (r.1, r.2.journal)
  | .mySQL =>
    (MySQL.createIndex c.mySQL call.command call.indexName call.schemaName call.tableName ⟨(), [], call.errorMsg⟩).map
      fun r => (r.1, r.2.journal)
  | .odbc =>
    let found := c.lookup (utf8 call.schemaName) (utf8 call.tableName) (utf8 call.indexName) ≠ []
    match Odbc.createIndex (Catalog.odbc found) call.command call.indexName call.schemaName call.tableName
        ⟨(), .null, some ⟨subtype, 0, 0⟩, [], call.errorMsg⟩ with
    | .ok r => some (r.1, r.2.journal)
    | .error _ => none

def CreatesIffAbsent (b : Backend) (c : Catalog) (subtype : Text) (call : IndexCall) : Prop :=
  ∃ code journal, createIndex b c subtype call = some (code, journal) ∧
    (call.command ∈ (replay .idle journal).durable ↔ ¬ call.exists b c) ∧
    ((code ≠ 0 ∧ .work call.command ∉ journal) ↔ call.exists b c)

/-- What the driver tests for: SQLite's reads the first character of the table's name, and the column `unique`. -/
def IndexCall.tested (b : Backend) (c : Catalog) (call : IndexCall) : Prop :=
  match b with
  | .sqlite => ∃ e ∈ c.indexesOf (cString (wide call.tableName)), Catalog.flag e.unique = call.indexName
  | .mySQL => c.lookup (cut call.schemaName) (cut call.tableName) (cut call.indexName) ≠ []
  | _ => True

def IndexCall.stopped (b : Backend) (c : Catalog) (call : IndexCall) : Prop :=
  match b with
  | .sqlite => call.tested b c ∨ call.errorMsg ≠ []
  | _ => call.tested b c

section Results

variable {c : Catalog} {subtype : Text} {call : IndexCall}

theorem any_pragmaRows (entries : List IndexEntry) (indexName : Text) :
    (Catalog.pragmaRows entries).any (fun row => (Sqlite.column row 2).columnText = some indexName) = true ↔
      ∃ e ∈ entries, Catalog.flag e.unique = indexName := by
  have hflag : ∀ unique : Bool, (Sqlite.Value.integer (if unique then 1 else 0)).columnText = some (Catalog.flag unique) := by
    intro unique
    cases unique <;> rfl
  rw [Catalog.pragmaRows]
  simp [List.mem_iff_getElem, Sqlite.column, hflag]

section Sqlite

variable (s : Sqlite.Session Unit)

theorem sqlite_prepare (query : Sqlite.Query) : s.prepare c.sqlite query = (true, s) := by
  simp [Sqlite.Session.prepare, Sqlite.Session.report, Catalog.sqlite]

theorem sqlite_exec {statement : Statement} (h : ¬ (statement.entry = .start ∧ s.active)) :
    s.exec c.sqlite statement = (true, { s with journal := s.journal ++ [statement.entry] }) := by
  rw [Sqlite.Session.exec, if_neg h]
  rfl

theorem sqlite_isIndexExists (indexName tableName : Text) :
    Sqlite.isIndexExists c.sqlite indexName tableName s =
      if (Catalog.pragmaRows (c.indexesOf (cString (wide tableName)))).any (fun row => (Sqlite.column row 2).columnText = some indexName) then
        (true, s.fail indexAlreadyExist)
      else (false, s) := by
  rw [Sqlite.isIndexExists, sqlite_prepare]
  rfl

theorem sqlite_createIndex (errorMsg : List Text) :
    Sqlite.createIndex c.sqlite call.command call.indexName call.tableName ⟨(), [], errorMsg⟩ =
      if (Catalog.pragmaRows (c.indexesOf (cString (wide call.tableName)))).any (fun row => (Sqlite.column row 2).columnText = some call.indexName) then
        (1, ⟨(), [.start], errorMsg ++ [indexAlreadyExist] ++ [indexAlreadyExists call.indexName]⟩)
      else if errorMsg ≠ [] then (1, ⟨(), [.start], errorMsg⟩)
      else (0, ⟨(), [.start, .work call.command, .commit], errorMsg⟩) := by
  have hidle : ¬ (Statement.beginTransaction.entry = .start ∧ (⟨(), [], errorMsg⟩ : Sqlite.Session Unit).active) := by
    simp [Sqlite.Session.active, Store.idle]
  rw [Sqlite.createIndex, sqlite_exec _ hidle]
  simp only [if_true, sqlite_isIndexExists]
  by_cases hany : (Catalog.pragmaRows (c.indexesOf (cString (wide call.tableName)))).any
      (fun row => (Sqlite.column row 2).columnText = some call.indexName) = true
  · simp only [hany, if_true]
    rfl
  · by_cases herrors : errorMsg = []
    · subst herrors
      simp only [hany]
      rfl
    · simp only [hany, Bool.false_eq_true, if_false, ne_eq, herrors, not_false_eq_true, if_true]
      rfl

end Sqlite

theorem postgres_isIndexExists (indexName schemaName tableName : Text) (s : Postgres.Session Unit) :
    Postgres.isIndexExists c.postgres indexName schemaName tableName s = (true, s) ∨
      Postgres.isIndexExists c.postgres indexName schemaName tableName s =
        (false, s.fail (executingQuery ++ Catalog.invalidByteSequence)) := by
  rw [Postgres.isIndexExists]
  simp only [Postgres.Session.execParams, Catalog.postgres]
  split_ifs
  · exact .inr rfl
  · exact .inl rfl

theorem postgres_createIndex (c : Catalog) (call : IndexCall) :
    ∃ errorMsg', Postgres.createIndex c.postgres call.command call.indexName call.schemaName call.tableName
      ⟨(), [], call.errorMsg⟩ = (1, ⟨(), [.start], errorMsg'⟩) := by
  have hbegin : Postgres.Session.exec c.postgres .beginTransaction ⟨(), [], call.errorMsg⟩ =
      (.commandOk, ⟨(), [.start], call.errorMsg⟩) := rfl
  rw [Postgres.createIndex, hbegin]
  rcases postgres_isIndexExists (c := c) call.indexName call.schemaName call.tableName ⟨(), [.start], call.errorMsg⟩ with h | h
  · simp only [h]
    exact ⟨_, rfl⟩
  · have hfail : (Postgres.Session.fail (executingQuery ++ Catalog.invalidByteSequence)
        (⟨(), [.start], call.errorMsg⟩ : Postgres.Session Unit)).errorMsg ≠ [] := List.append_ne_nil_of_right_ne_nil _ (by simp)
    simp only [h, Bool.false_eq_true, if_false, hfail, ne_eq, not_false_eq_true, if_true]
    exact ⟨_, rfl⟩

theorem stopped_result (subtype : Text) (b : Backend) (h : call.stopped b c) :
    ∃ code journal, createIndex b c subtype call = some (code, journal) ∧ code ≠ 0 ∧ (journal = [] ∨ journal = [.start]) := by
  cases b with
  | sqlite =>
    refine ⟨1, [.start], ?_, by decide, .inr rfl⟩
    rw [createIndex, sqlite_createIndex]
    rw [IndexCall.stopped, IndexCall.tested, ← any_pragmaRows] at h
    rcases h with hany | herrors
    · rw [if_pos hany]
    · rw [if_pos herrors]
      split_ifs <;> rfl
  | postgres =>
    obtain ⟨errorMsg, hresult⟩ := postgres_createIndex c call
    exact ⟨1, [.start], by rw [createIndex, hresult], by decide, .inr rfl⟩
  | mySQL =>
    refine ⟨1, [], ?_, by decide, .inl rfl⟩
    have hfetch : decide (c.lookup (cut call.schemaName) (cut call.tableName) (cut call.indexName) ≠ []) = true :=
      decide_eq_true h
    simp only [createIndex, MySQL.createIndex, MySQL.isIndexExists, Catalog.mySQL, MySQL.Session.report]
    simp [hfetch, MySQL.Session.fail]
  | odbc => exact ⟨1, [.start], rfl, by decide, .inr rfl⟩

theorem performed_result (subtype : Text) (b : Backend) (h : ¬ call.stopped b c) :
    ∃ journal, createIndex b c subtype call = some (0, journal) ∧
      (journal = [.work call.command] ∨ journal = [.start, .work call.command, .commit]) := by
  cases b with
  | sqlite =>
    refine ⟨[.start, .work call.command, .commit], ?_, .inr rfl⟩
    rw [IndexCall.stopped, IndexCall.tested, ← any_pragmaRows, not_or] at h
    rw [createIndex, sqlite_createIndex, if_neg h.1, if_neg h.2]
  | postgres => exact absurd trivial h
  | mySQL =>
    refine ⟨[.work call.command], ?_, .inl rfl⟩
    have hfetch : decide (c.lookup (cut call.schemaName) (cut call.tableName) (cut call.indexName) ≠ []) = false :=
      decide_eq_false h
    simp only [createIndex, MySQL.createIndex, MySQL.isIndexExists, Catalog.mySQL, MySQL.Session.report]
    simp [hfetch]
  | odbc => exact absurd trivial h

theorem createsIffAbsent_iff (b : Backend) (c : Catalog) (subtype : Text) (call : IndexCall) :
    CreatesIffAbsent b c subtype call ↔ (call.stopped b c ↔ call.exists b c) := by
  by_cases hstopped : call.stopped b c
  · obtain ⟨code, journal, hresult, hcode, hjournal⟩ := stopped_result subtype b hstopped
    have hdurable : call.command ∉ (replay .idle journal).durable := by
      rcases hjournal with rfl | rfl <;> simp [Store.idle, Store.apply]
    have hleft : .work call.command ∉ journal := by rcases hjournal with rfl | rfl <;> simp
    simp [CreatesIffAbsent, hresult, hcode, hdurable, hleft, hstopped]
  · obtain ⟨journal, hresult, hjournal⟩ := performed_result subtype b hstopped
    have hdurable : call.command ∈ (replay .idle journal).durable := by
      rcases hjournal with rfl | rfl <;> simp [Store.idle, Store.apply]
    have hin : .work call.command ∈ journal := by rcases hjournal with rfl | rfl <;> simp
    simp [CreatesIffAbsent, hresult, hdurable, hin, hstopped]

theorem mySQL_agrees_of_ascii (hschema : Ascii call.schemaName) (htable : Ascii call.tableName)
    (hindex : Ascii call.indexName) : call.stopped .mySQL c ↔ call.exists .mySQL c := by
  simp only [IndexCall.stopped, IndexCall.tested, IndexCall.exists, cut_of_ascii hschema, cut_of_ascii htable,
    cut_of_ascii hindex]

end Results

theorem sameBytes_refl (name : Bytes) : decide (name = name) = true := decide_eq_true rfl

def invoiceCatalog : Catalog where
  indexes := [⟨"main".toList, "invoice".toList, "invoice_number".toList, true⟩]
  same a b := a = b
  same_refl := sameBytes_refl

def secondIndex : IndexCall :=
  ⟨"CREATE UNIQUE INDEX invoice_number ON invoice(number)".toList, "invoice_number".toList, "main".toList,
    "invoice".toList, []⟩

theorem existing_index_created_again : ¬ CreatesIffAbsent .sqlite invoiceCatalog [] secondIndex := by
  rintro ⟨code, journal, hresult, hcreated, -⟩
  have hrun : createIndex .sqlite invoiceCatalog [] secondIndex =
      some (0, [.start, .work secondIndex.command, .commit]) := by decide
  obtain ⟨-, rfl⟩ : code = 0 ∧ journal = [.start, .work secondIndex.command, .commit] := by
    simpa using hresult.symm.trans hrun
  have hdurable : secondIndex.command ∈ (replay .idle [.start, .work secondIndex.command, .commit]).durable := by
    simp [Store.idle, Store.apply]
  refine hcreated.mp hdurable ⟨_, List.mem_singleton_self _, ?_⟩
  decide

end DbHandler.Indexes
