import DbHandler.Columns.SqliteLoading
import DbHandler.Sqlite.ForeignKeys
import DbHandler.Sqlite.TableProperties

namespace DbHandler.SqliteNullSafety

open Foundation Sqlite Sqlite.ForeignKeys
open SqliteColumns (IndexRow)

structure MasterRow where
  type : Text
  tblName : Text
  sql : Option Text
  deriving DecidableEq, Repr

def tableType : Text := "table".toList

/-- A table or view: its keys, columns and indexes, and its rows in `sys.abcattbl`. -/
structure Relation where
  name : Text
  keys : List ForeignKeyRow
  columns : List ColumnRow
  indexes : List IndexRow
  tableRows : List (List Value)

/-- `select` is what the query of `ApplyForeignKey` finds when a name is written between its apostrophes. -/
structure Content where
  relations : List Relation
  master : List MasterRow
  select : Text → List MasterRow
  table_sql : ∀ row ∈ master, row.type = tableType → row.sql.isSome
  select_plain : ∀ name, Sql.apostrophe ∉ name →
    select name = master.filter fun row => row.tblName = name ∧ row.type = tableType

def sqlValue (sql : Option Text) : Value := sql.elim .null .text

def schemaRows (db : Content) (name : Text) : List (List Value) := (db.select name).map fun row => [sqlValue row.sql]

/-- The rows of a query, up to the step that failed. -/
structure Gives {ρ σ : Type} (rows : List ρ) (read : σ → ρ) (given : Rows σ) : Prop where
  prefix_ : given.rows.map read <+: rows
  complete : given.complete = true → given.rows.map read = rows

/-- What `AddDropTable` can be answered for a table, with any of the calls failing. -/
structure Answers (r : Relation) (a : TableAnswers) : Prop where
  first : Gives r.keys id a.firstPass
  second : Gives r.keys id a.secondPass
  columns : Gives r.columns ColumnAnswer.row a.columns
  indexes : Gives (r.indexes.map IndexRow.readCell) id a.indexes

def LoadsSafely (r : Relation) : Prop :=
  ∀ a, Answers r a → ∀ catalog errorMsg s, addDropTable r.name catalog errorMsg a s ≠ none

/-- The rows that were read before a failure. -/
def PropertiesSafely (r : Relation) : Prop :=
  ∀ n p, (r.tableRows.take n).foldlM readTableProperties p ≠ none

def AppliesSafely (db : Content) (r : Relation) : Prop :=
  ∀ n, readSql ((schemaRows db r.name).take n) ≠ none

/-- No string is made from a null pointer, whichever calls fail; a text that `GetFieldProperties` reads is tested. -/
structure NullSafe (db : Content) (r : Relation) : Prop where
  loads : LoadsSafely r
  properties : PropertiesSafely r
  applies : AppliesSafely db r

structure HoldsWhen (db : Content) (r : Relation) : Prop where
  keys : ∀ row ∈ r.keys, row.toColumn.isSome
  comments : ∀ row ∈ r.tableRows, column row 27 ≠ .null
  sql : ∀ row ∈ db.select r.name, row.sql.isSome

/-- A plain name finds tables only, whose text is there. -/
theorem select_isSome (db : Content) {name : Text} (h : Sql.apostrophe ∉ name) : ∀ row ∈ db.select name, row.sql.isSome := by
  intro row hrow
  rw [db.select_plain name h, List.mem_filter, decide_eq_true_eq] at hrow
  exact db.table_sql row hrow.1 hrow.2.2

section Loading

variable {r : Relation} {a : TableAnswers}

theorem avoids_cText {text : Option Text} (h : text.isSome) : Faults.Avoids Failure.nullText (cText text) := by
  obtain ⟨t, rfl⟩ := Option.isSome_iff_exists.mp h
  exact Faults.Avoids.ok _ _

theorem avoids_rowsCheck {ρ : Type} (rows : Rows ρ) : Faults.Avoids Failure.nullText rows.check := by
  unfold Rows.check
  split
  · exact Faults.Avoids.ok _ _
  · simp [Faults.Avoids]

theorem Gives.forall_mem {ρ σ : Type} {rows : List ρ} {read : σ → ρ} {given : Rows σ} (h : Gives rows read given)
    {P : ρ → Prop} (hrows : ∀ row ∈ rows, P row) : ∀ row ∈ given.rows, P (read row) := fun _ hrow =>
  hrows _ (h.prefix_.subset (List.mem_map_of_mem hrow))

theorem readForeignKeys_avoids (tableName : Text) (h : ∀ row ∈ r.keys, row.toColumn.isSome) (ha : Answers r a) :
    Faults.Avoids .nullText (readForeignKeys tableName a) := by
  have hfirst : ∀ row ∈ a.firstPass.rows, row.toColumn.isSome := ha.first.forall_mem h
  have hsecond : ∀ row ∈ a.secondPass.rows, row.toColumn.isSome := ha.second.forall_mem h
  unfold readForeignKeys
  split
  · apply Faults.Avoids.bind (SqliteForeignKeys.avoids_checked _)
    intro _
    apply Faults.Avoids.bind
    · apply Faults.Avoids.foldlM_mem
      intro lists row hrow
      exact Faults.Avoids.bind (avoids_cText (hfirst row hrow)) fun _ => Faults.Avoids.ok _ _
    · intro lists
      apply Faults.Avoids.bind (avoids_rowsCheck _)
      intro _
      apply Faults.Avoids.bind
      · apply Faults.Avoids.foldlM_mem
        intro scan row hrow
        exact Faults.Avoids.bind (avoids_cText (hsecond row hrow)) fun _ => Faults.Avoids.ok _ _
      · exact fun _ => Faults.Avoids.bind (avoids_rowsCheck _) fun _ => Faults.Avoids.ok _ _
  · exact Faults.Avoids.ok _ _

theorem readColumns_avoids (tableName : Text) (fkNames : List Text) (errorMsg : List Text) (a : TableAnswers) :
    Faults.Avoids .nullText (readColumns tableName fkNames errorMsg a) := by
  apply Faults.Avoids.bind (SqliteForeignKeys.avoids_checked _)
  intro _
  apply Faults.Avoids.bind (SqliteForeignKeys.avoids_checked _)
  intro _
  apply Faults.Avoids.bind
  · apply Faults.Avoids.foldlM
    intro fields c
    unfold loadColumn
    split
    · simp [Faults.Avoids]
    · split_ifs <;> simp [Faults.Avoids]
  · exact fun _ => Faults.Avoids.bind (avoids_rowsCheck _) fun _ => Faults.Avoids.ok _ _

theorem readIndexes_avoids (a : TableAnswers) : Faults.Avoids .nullText (readIndexes a) := by
  unfold readIndexes
  split
  · exact Faults.Avoids.bind (SqliteForeignKeys.avoids_checked _) fun _ => Faults.Avoids.bind (avoids_rowsCheck _) fun _ =>
      Faults.Avoids.ok _ _
  · exact Faults.Avoids.ok _ _

theorem loadTable_avoids (tableName : Text) (errorMsg : List Text) (h : ∀ row ∈ r.keys, row.toColumn.isSome)
    (ha : Answers r a) : Faults.Avoids .nullText (loadTable tableName errorMsg a) := by
  apply Faults.Avoids.bind (readForeignKeys_avoids tableName h ha)
  intro keys
  apply Faults.Avoids.bind (readColumns_avoids tableName keys.fkNames errorMsg a)
  intro fields
  apply Faults.Avoids.bind (readIndexes_avoids a)
  intro indexes
  exact Faults.Avoids.bind (SqliteForeignKeys.avoids_checked _) fun _ => Faults.Avoids.ok _ _

theorem addDropTable_ne_none (tableName catalog : Text) (errorMsg : List Text) (s : Catalogs)
    (h : Faults.Avoids .nullText (loadTable tableName errorMsg a)) : addDropTable tableName catalog errorMsg a s ≠ none := by
  unfold addDropTable
  cases hload : loadTable tableName errorMsg a with
  | ok table => simp
  | error failure =>
    cases failure with
    | call => simp
    | nullText => exact absurd hload h

/-- The answers of a table on which no call fails. -/
def allAnswers (r : Relation) : TableAnswers where
  foreignKeysPrepared := true
  foreignKeysBound := true
  firstPass := ⟨r.keys, true⟩
  secondPass := ⟨r.keys, true⟩
  columnsPrepared := true
  columnsBound := true
  columns := ⟨r.columns.map fun row => ⟨row, some false, true⟩, true⟩
  indexesPrepared := true
  indexesBound := true
  indexes := ⟨r.indexes.map IndexRow.readCell, true⟩
  propertiesRead := true

theorem answers_allAnswers (r : Relation) : Answers r (allAnswers r) where
  first := ⟨by simp [allAnswers], by simp [allAnswers]⟩
  second := ⟨by simp [allAnswers], by simp [allAnswers]⟩
  columns := ⟨by simp [allAnswers, Function.comp_def], by simp [allAnswers, Function.comp_def]⟩
  indexes := ⟨by simp [allAnswers], by simp [allAnswers]⟩

theorem loadsSafely_iff (r : Relation) : LoadsSafely r ↔ ∀ row ∈ r.keys, row.toColumn.isSome := by
  constructor
  · intro h
    by_contra hunnamed
    have hreads : SqliteForeignKeys.Reads (allAnswers r) r.keys := ⟨rfl, rfl, rfl, rfl⟩
    have hnone : addDropTable r.name [] [] (allAnswers r) ⟨.ofEntries [], []⟩ = none :=
      SqliteColumns.addDropTable_unnamed hunnamed hreads [] _
    exact h (allAnswers r) (answers_allAnswers r) [] [] _ hnone
  · intro h a ha catalog errorMsg s
    exact addDropTable_ne_none r.name catalog errorMsg s (loadTable_avoids r.name errorMsg h ha)

end Loading

section Texts

theorem columnText_eq_none_iff (v : Value) : v.columnText = none ↔ v = .null := by
  cases v <;> simp [Value.columnText]

theorem foldlM_eq_none_iff {σ ρ : Type} {f : σ → ρ → Option σ} {reads : ρ → Prop} (hf : ∀ s row, f s row = none ↔ ¬ reads row)
    (rows : List ρ) (s : σ) : rows.foldlM f s = none ↔ ¬ ∀ row ∈ rows, reads row := by
  induction rows generalizing s with
  | nil => simp
  | cons row rows ih =>
    rw [List.foldlM_cons, List.forall_mem_cons, not_and_or]
    cases hrow : f s row with
    | none => exact iff_of_true rfl (Or.inl ((hf s row).mp hrow))
    | some next =>
      have hreads : reads row := by
        by_contra hnot
        rw [(hf s row).mpr hnot] at hrow
        cases hrow
      exact (ih next).trans ⟨Or.inr, fun h => h.resolve_left (not_not_intro hreads)⟩

theorem readTableProperties_eq_none_iff (p : LoadedProperties) (row : List Value) :
    readTableProperties p row = none ↔ ¬ column row 27 ≠ .null := by
  rw [readTableProperties, Option.map_eq_none_iff, columnText_eq_none_iff, not_not]

theorem foldlM_take_ne_none_iff {σ ρ : Type} {f : σ → ρ → Option σ} {reads : ρ → Prop}
    (hf : ∀ s row, f s row = none ↔ ¬ reads row) (rows : List ρ) (s : σ) :
    (∀ n, (rows.take n).foldlM f s ≠ none) ↔ ∀ row ∈ rows, reads row := by
  constructor
  · intro h
    have hall := h rows.length
    rw [List.take_length, Ne, foldlM_eq_none_iff hf, not_not] at hall
    exact hall
  · intro h n hnone
    exact (foldlM_eq_none_iff hf _ s).mp hnone fun row hrow => h row (List.mem_of_mem_take hrow)

def emptyFont : LoadedFont := ⟨⟨0, 0, false, false, false, 0, 0, []⟩, 0⟩

def emptyProperties : LoadedProperties := ⟨[], emptyFont, emptyFont, emptyFont⟩

theorem propertiesSafely_iff (r : Relation) : PropertiesSafely r ↔ ∀ row ∈ r.tableRows, column row 27 ≠ .null := by
  constructor
  · intro h
    exact (foldlM_take_ne_none_iff readTableProperties_eq_none_iff r.tableRows emptyProperties).mp fun n => h n _
  · intro h n p
    exact (foldlM_take_ne_none_iff readTableProperties_eq_none_iff r.tableRows p).mpr h n

theorem appliesSafely_iff (db : Content) (r : Relation) : AppliesSafely db r ↔ ∀ row ∈ db.select r.name, row.sql.isSome := by
  have hread (text : Text) (row : List Value) : (column row 0).columnText = none ↔ ¬ column row 0 ≠ .null := by
    rw [columnText_eq_none_iff, not_not]
  have hsql (row : MasterRow) : column [sqlValue row.sql] 0 ≠ .null ↔ row.sql.isSome := by
    cases hsql : row.sql <;> simp [sqlValue, column]
  refine (foldlM_take_ne_none_iff hread (schemaRows db r.name) []).trans ?_
  rw [schemaRows, List.forall_mem_map]
  exact forall₂_congr fun row _ => hsql row

end Texts

section Functions

variable {δ : Type} (c : Client δ)

/-- Where the query was given its rows to the end, `GetTableProperties` ends as its loop over them does. -/
theorem getTableProperties_rows (t : DatabaseTable) (p : LoadedProperties) {s bound next : Session δ} {rows : List (List Value)}
    (hprepared : (s.prepare c .tableProperties).1 = true)
    (hbound : bindAll c .tableProperties 1 (tableKey t) (s.prepare c .tableProperties).2 = (true, bound))
    (hstep : bound.step c .tableProperties (tableKey t) = (⟨rows, none⟩, next)) :
    getTableProperties c t p s = (rows.foldlM readTableProperties p).map fun p => (0, p, next) := by
  simp only [getTableProperties, hprepared, if_true, hbound, hstep]

/-- `ApplyForeignKey` stops where the text of the statement is NULL. -/
theorem applyForeignKey_null (call : AlterTable.ForeignKeyCall) (s : KeySession δ) {opened prepared next : Session δ}
    {cursor : Cursor} (hopened : openSchema c call.logOnly s.session = (true, opened))
    (hprepared : opened.prepare c (.tableSql s.table.tableName) = (true, prepared))
    (hstep : prepared.step c (.tableSql s.table.tableName) [] = (cursor, next)) (hnull : readSql cursor.rows = none) :
    applyForeignKey c call s = .stopped .undefined (s.withSession next) := by
  simp only [applyForeignKey, hopened, if_true, hprepared, hstep, hnull]

end Functions

/-- The key of `orders` references the primary key of `clients` without naming it. -/
def orders : Relation where
  name := "orders".toList
  keys := [⟨0, 0, "clients".toList, "client".toList, none, "NO ACTION".toList, "NO ACTION".toList⟩]
  columns := [⟨"client".toList, some "INTEGER".toList, 0, none, 0⟩]
  indexes := []
  tableRows := []

def ordersSql : Text := "CREATE TABLE orders(client INTEGER REFERENCES clients)".toList

def shop : Content where
  relations := [orders]
  master := [⟨tableType, "orders".toList, some ordersSql⟩]
  select name := [⟨tableType, "orders".toList, some ordersSql⟩].filter fun row => row.tblName = name ∧ row.type = tableType
  table_sql := by simp
  select_plain _ _ := rfl

end DbHandler.SqliteNullSafety
