import DbHandler.Sqlite.FieldProperties
import DbHandler.Postgres.FieldProperties
import DbHandler.MySQL.FieldProperties
import DbHandler.Odbc.FieldProperties

namespace DbHandler.FieldCommands

open Foundation.Encoding

structure ColumnRow where
  key : ColumnKey
  label : Option Text
  labelPosition : ℤ
  heading : Option Text
  headingPosition : ℤ
  comment : Option Text
  deriving DecidableEq, Repr

structure Content where
  rows : List ColumnRow
  keys_nodup : (rows.map (·.key)).Nodup

/-- How a server executes a text, as the one statement that it begins with: an INSERT that is accepted adds
rows, an UPDATE neither adds nor removes any. -/
structure Engine where
  exec : Text → Content → Option Content
  insert_grows : ∀ text content content', insertHead <+: text → exec text content = some content' →
    content.rows.length < content'.rows.length
  update_keeps : ∀ text content content', updateHead <+: text → exec text content = some content' →
    content'.rows.length = content.rows.length

namespace Content

def has (content : Content) (key : ColumnKey) : Bool := content.rows.any (·.key = key)

def ofKey (content : Content) (key : ColumnKey) : List ColumnRow := content.rows.filter (·.key = key)

def others (content : Content) (key : ColumnKey) : List ColumnRow := content.rows.filter (·.key ≠ key)

theorem length_rows (content : Content) (key : ColumnKey) :
    content.rows.length = (content.ofKey key).length + (content.others key).length := by
  rw [ofKey, others, ← List.length_append]
  refine (List.Perm.length_eq ?_).symm
  simpa using List.filter_append_perm (fun row : ColumnRow => decide (row.key = key)) content.rows

theorem length_ofKey (content : Content) (key : ColumnKey) :
    (content.ofKey key).length = if content.has key then 1 else 0 := by
  obtain ⟨rows, hnodup⟩ := content
  simp only [ofKey, has]
  induction rows with
  | nil => rfl
  | cons row rows ih =>
    obtain ⟨hrow, hrest⟩ := List.nodup_cons.mp hnodup
    have hih := ih hrest
    by_cases hkey : row.key = key
    · have hnone : rows.filter (·.key = key) = [] := by
        rw [List.filter_eq_nil_iff]
        intro other hother heq
        have hsame : other.key = row.key := (of_decide_eq_true heq).trans hkey.symm
        have hmem : other.key ∈ rows.map (·.key) := List.mem_map_of_mem hother
        rw [hsame] at hmem
        exact hrow hmem
      simp [hkey, hnone]
    · simpa [hkey] using hih

end Content

/-- The columns of `abcatcol` in their order; those that are not the column properties are empty. -/
def ColumnRow.columns (row : ColumnRow) : List (Option Text) :=
  [some row.key.tableName, none, some row.key.ownerName, some row.key.fieldName, none, row.label,
    some (digits row.labelPosition), row.heading, some (digits row.headingPosition)] ++ List.replicate 8 none ++
    [row.comment, none, none]

namespace Engine

def rejected : Text := "syntax error".toList

def answer (e : Engine) (content : Content) (statement : Statement) : Option Content :=
  match statement.entry with
  | .work text => e.exec text content
  | _ => some content

def sqlite (e : Engine) : Sqlite.Client Content where
  exec content statement :=
    match e.answer content statement with
    | some content => (none, content)
    | none => (some rejected, content)
  prepare content _ := (none, content)
  bindText content _ _ _ := (none, content)
  step content query values :=
    let key := ColumnKey.mk (values.getD 0 []) (values.getD 1 []) (values.getD 2 [])
    match query with
    | .fieldPropertiesExist => (⟨(content.ofKey key).map fun _ => [.integer 1], none⟩, content)
    | .fieldProperties =>
      let value : Option Text → Sqlite.Value := fun t => t.elim .null .text
      (⟨(content.ofKey key).map fun row => row.columns.map value, none⟩, content)
    | _ => (⟨[], none⟩, content)

def matching (content : Content) (values : List Bytes) : List ColumnRow :=
  content.rows.filter fun row =>
    [utf8 row.key.tableName, utf8 row.key.ownerName, utf8 row.key.fieldName] = values

def postgres (e : Engine) : Postgres.Client Content where
  exec content statement :=
    match e.answer content statement with
    | some content => (.commandOk, content)
    | none => (.failed rejected, content)
  execParams content query values :=
    match query with
    | .fieldProperties => (.tuplesOk ((matching content values).map fun row => row.columns.map (·.getD [])), content)
    | _ => (.tuplesOk ((matching content values).map fun _ => [['1']]), content)

def commandsOutOfSync : Text := "Commands out of sync; you can't run this command now".toList

/-- `mysql_store_result` after `mysql_stmt_execute` is out of sync. -/
def mySQL (e : Engine) : MySQL.Client Content where
  query content statement :=
    match e.answer content statement with
    | some content => (none, content)
    | none => (some rejected, content)
  stmtInit content := (none, content)
  stmtPrepare content _ := (none, content)
  bindParam content _ _ := (none, content)
  execute content _ _ := (none, content)
  fetch content _ values := (matching content values ≠ [], content)
  storeResult content := (some commandsOutOfSync, content)
  stmtClose content := (none, content)

def odbc (e : Engine) (key : ColumnKey) : Odbc.Manager Content where
  answer content r :=
    match r with
    | .execDirect text =>
      match e.exec text content with
      | some content => (.success, content)
      | none => (.error, content)
    | .fetch => (if content.has key then .success else .noData, content)
    | _ => (.success, content)
  diagnostics _ := [rejected]

end Engine

def setFieldProperties (b : Backend) (e : Engine) (content : Content) (key : ColumnKey) (p : FieldProperties) :
    Option (ℕ × Content) :=
  match b with
  | .sqlite =>
    let r := Sqlite.setFieldProperties e.sqlite key p false [] ⟨content, [], []⟩
    some (r.1, r.2.2.server)
  | .postgres =>
    let r := Postgres.setFieldProperties e.postgres key p false ⟨content, [], []⟩
    some (r.1, r.2.2.server)
  | .mySQL =>
    let r := MySQL.setFieldProperties e.mySQL key p false ⟨content, [], []⟩
    some (r.1, r.2.2.server)
  | .odbc =>
    match Odbc.setFieldProperties (e.odbc key) key p false [] ⟨content, .null, none, [], []⟩ with
    | .ok r => some (r.1, r.2.2.manager)
    | .error _ => none

def fieldOfKey (b : Backend) (e : Engine) (content : Content) (schemaName : Text) (key : ColumnKey) (p : FieldProperties) :
    Option (ℕ × FieldProperties) :=
  match b with
  | .sqlite =>
    let r := Sqlite.getFieldProperties e.sqlite key p ⟨content, [], []⟩
    some (r.1, r.2.1)
  | .postgres =>
    let r := Postgres.getFieldProperties e.postgres schemaName key p ⟨content, [], []⟩
    some (r.1, r.2.1)
  | .mySQL =>
    (MySQL.getFieldProperties e.mySQL schemaName key p ⟨content, [], []⟩).map fun r => (r.1, r.2.1)
  | .odbc =>
    let r := Odbc.getFieldProperties (e.odbc key) p ⟨content, .null, none, [], []⟩
    some (r.1, r.2.1)

structure Upserted (before after : Content) (key : ColumnKey) : Prop where
  one : (after.ofKey key).length = 1
  others : (after.others key).Perm (before.others key)

def Upserts (b : Backend) (e : Engine) (content : Content) (schemaName : Text) (key : ColumnKey)
    (p old : FieldProperties) : Prop :=
  ∃ after, setFieldProperties b e content key p = some (0, after) ∧ Upserted content after key ∧
    fieldOfKey b e after schemaName key old = some (0, p)

section Sqlite

variable {e : Engine} {content : Content} {key : ColumnKey} {p : FieldProperties}
variable {journal : List (Foundation.Journal.Entry Text)} {errorMsg : List Text}

theorem sqlite_exec {statement : Statement} {s : Sqlite.Session Content} (after : Content)
    (h : ¬ (statement.entry = .start ∧ s.active)) (hexec : e.answer s.server statement = some after) :
    s.exec e.sqlite statement = (true, { s with server := after, journal := s.journal ++ [statement.entry] }) := by
  simp only [Sqlite.Session.exec, if_neg h, Sqlite.Session.report, Engine.sqlite, hexec]

theorem sqlite_exec_rejected {text : Text} (hexec : e.exec text content = none) :
    (⟨content, journal, errorMsg⟩ : Sqlite.Session Content).exec e.sqlite (.command text) =
      (false, ⟨content, journal, errorMsg ++ [Engine.rejected]⟩) := by
  have hanswer : e.answer content (.command text) = none := hexec
  simp only [Sqlite.Session.exec, Statement.command_entry, reduceCtorEq, false_and, if_false, Sqlite.Session.report,
    Engine.sqlite, hanswer]

theorem sqlite_isFieldPropertiesExist (s : Sqlite.Session Content) :
    Sqlite.isFieldPropertiesExist e.sqlite key s = (s.server.has key, s) := by
  have hexist : (!((s.server.ofKey key).map fun _ => [Sqlite.Value.integer 1]).isEmpty) = s.server.has key := by
    rw [Bool.eq_iff_iff]
    simp [Content.ofKey, Content.has]
  rw [← hexist]
  simp only [Sqlite.isFieldPropertiesExist, Sqlite.Session.prepare, Sqlite.Session.report, Engine.sqlite, if_true,
    Sqlite.keyValues, Sqlite.bindAll, Sqlite.Session.bindText, Sqlite.Session.step, List.append_nil]
  rfl

theorem sqlite_setFieldProperties :
    setFieldProperties .sqlite e content key p =
      match e.exec (fieldCommand .quoted (assignments .quoted p) (content.has key) key p) content with
      | some after => some (0, after)
      | none => some (1, content) := by
  have hidle : ¬ (Statement.begin.entry = .start ∧ (⟨content, [], []⟩ : Sqlite.Session Content).active) := by
    simp [Sqlite.Session.active, Foundation.Journal.Store.idle]
  simp only [setFieldProperties, Sqlite.setFieldProperties, sqlite_exec content hidle rfl, if_true,
    sqlite_isFieldPropertiesExist]
  generalize fieldCommand .quoted (assignments .quoted p) (content.has key) key p = text
  cases hexec : e.exec text content with
  | none =>
    simp only [Bool.false_eq_true, if_false, sqlite_exec_rejected hexec]
    rfl
  | some after =>
    have hcommand : e.answer content (.command text) = some after := hexec
    have hwork : ¬ ((Statement.command text).entry = .start ∧
        (⟨content, [.start], []⟩ : Sqlite.Session Content).active) := by simp
    have hcommit : ¬ (Statement.commit.entry = .start ∧
        (⟨after, [.start, .work text], []⟩ : Sqlite.Session Content).active) := by simp
    simp only [Bool.false_eq_true, if_false, List.nil_append, Statement.begin_entry, sqlite_exec after hwork hcommand,
      if_true, Statement.command_entry, List.singleton_append, sqlite_exec after hcommit rfl]
    rfl

theorem sqlite_not_upserted {after : Content} (h : setFieldProperties .sqlite e content key p = some (0, after)) :
    ¬ Upserted content after key := by
  intro hup
  have hafter := after.length_rows key
  have hbefore := content.length_rows key
  have hothers := hup.others.length_eq
  rw [hup.one] at hafter
  rw [content.length_ofKey key] at hbefore
  rw [sqlite_setFieldProperties] at h
  cases hexec : e.exec (fieldCommand .quoted (assignments .quoted p) (content.has key) key p) content with
  | none => simp [hexec] at h
  | some reached =>
    obtain rfl : reached = after := by simpa [hexec] using h
    cases hhas : content.has key with
    | true =>
      rw [hhas] at hexec hbefore
      have hgrows := e.insert_grows _ _ _ (insertCommand_begins .quoted key p) hexec
      simp only [if_true] at hbefore
      omega
    | false =>
      rw [hhas] at hexec hbefore
      have hkeeps := e.update_keeps _ _ _ (updateCommand_begins .quoted key (assignments .quoted p)) hexec
      simp only [Bool.false_eq_true, if_false] at hbefore
      omega

end Sqlite

variable {e : Engine} {content : Content} {key : ColumnKey} {p : FieldProperties}

theorem postgres_status_rejected (status : Postgres.Status) : status ≠ .commandOk ∨ !status.isTuples := by
  cases status <;> simp [Postgres.Status.isTuples]

theorem postgres_setFieldProperties_code (e : Engine) (content : Content) (key : ColumnKey) (p : FieldProperties) :
    ∃ after, setFieldProperties .postgres e content key p = some (1, after) := by
  simp only [setFieldProperties, Postgres.setFieldProperties, Bool.false_eq_true, if_false, postgres_status_rejected,
    if_true]
  exact ⟨_, rfl⟩

theorem mySQL_fieldOfKey_code (schemaName : Text) :
    fieldOfKey .mySQL e content schemaName key p = some (1, p) := rfl

theorem odbc_isFieldPropertiesExist (o : Odbc.Object Content) :
    Odbc.isFieldPropertiesExist (e.odbc key) key o = .ok (o.manager.has key, { o with hstmt := .null }) := by
  cases hhas : o.manager.has key <;>
    simp [Odbc.isFieldPropertiesExist, Odbc.Object.allocStatement, Odbc.quietRequests, Odbc.Object.useStatement,
      Odbc.Object.statement, Odbc.Object.freeStatement, Engine.odbc, Odbc.Ret.isOk, hhas, pure, bind, Except.pure, Except.bind]

theorem odbc_setFieldProperties_faults : setFieldProperties .odbc e content key p = none := by
  have halloc : (⟨content, .null, none, [], []⟩ : Odbc.Object Content).allocStatement (e.odbc key) =
      (.success, ⟨content, .live, none, [], []⟩) := rfl
  have hexec (statement : Statement) :
      (⟨content, .null, none, [], []⟩ : Odbc.Object Content).execDirect (e.odbc key) statement =
        .error .nullStatement := rfl
  have hset : Odbc.setFieldProperties (e.odbc key) key p false [] ⟨content, .null, none, [], []⟩ =
      .error .nullStatement := by
    simp only [Odbc.setFieldProperties, halloc, Odbc.Ret.isOk, decide_true, Bool.true_or, if_true,
      odbc_isFieldPropertiesExist, bind, Except.bind, Bool.false_eq_true, if_false, hexec]
  simp only [setFieldProperties, hset]

theorem never_upserts (b : Backend) (e : Engine) (content : Content) (schemaName : Text) (key : ColumnKey)
    (p old : FieldProperties) : ¬ Upserts b e content schemaName key p old := by
  rintro ⟨after, hset, hup, hget⟩
  cases b with
  | sqlite => exact sqlite_not_upserted hset hup
  | postgres =>
    obtain ⟨reached, hcode⟩ := postgres_setFieldProperties_code e content key p
    rw [hcode] at hset
    simp at hset
  | mySQL =>
    rw [mySQL_fieldOfKey_code] at hget
    simp at hget
  | odbc =>
    rw [odbc_setFieldProperties_faults] at hset
    simp at hset

def Engine.rejecting : Engine where
  exec _ _ := none
  insert_grows := by simp
  update_keeps := by simp

def invoiceNumber : ColumnKey := ⟨"invoice".toList, "dba".toList, "number".toList⟩

def numberProperties : FieldProperties := ⟨"number".toList, "Number".toList, "Number".toList, 0, 0⟩

theorem new_row_not_written :
    ¬ Upserts .sqlite Engine.rejecting ⟨[], List.nodup_nil⟩ [] invoiceNumber numberProperties numberProperties := by
  rintro ⟨after, hset, -, -⟩
  have hcode : (setFieldProperties .sqlite Engine.rejecting ⟨[], List.nodup_nil⟩ invoiceNumber numberProperties).map
      Prod.fst = some 1 := by decide
  simp [hset] at hcode

end DbHandler.FieldCommands
