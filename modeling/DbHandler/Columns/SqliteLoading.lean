import DbHandler.ForeignKeys.SqliteLoading

namespace DbHandler.SqliteColumns

open Foundation Sqlite

/-- A row of `pragma_index_list`. -/
structure IndexRow where
  seq : ℕ
  name : Text
  unique : Bool
  origin : Text
  isPartial : Bool
  deriving DecidableEq, Repr

def flagText (flag : Bool) : Text := if flag then ['1'] else ['0']

/-- The row as `sqlite3_column_text` gives it. -/
def IndexRow.cells (row : IndexRow) : List Text :=
  [Nat.toDigits 10 row.seq, row.name, flagText row.unique, row.origin, flagText row.isPartial]

/-- The column of the index list that `AddDropTable` reads. -/
def IndexRow.readCell (row : IndexRow) : Text := row.cells.getD 2 []

/-- All calls succeed on a table with these keys, columns and indexes. -/
structure Succeeds (rows : List ForeignKeyRow) (columns : List ColumnRow) (indexes : List IndexRow) (a : TableAnswers) :
    Prop where
  keys : SqliteForeignKeys.Reads a rows
  columnsPrepared : a.columnsPrepared = true
  columnsBound : a.columnsBound = true
  columnRows : a.columns.rows.map ColumnAnswer.row = columns
  columnCalls : ∀ c ∈ a.columns.rows, c.autoinc.isSome ∧ c.propertiesRead
  columnsComplete : a.columns.complete = true
  indexesPrepared : a.indexesPrepared = true
  indexesBound : a.indexesBound = true
  indexRows : a.indexes = ⟨indexes.map IndexRow.readCell, true⟩
  propertiesRead : a.propertiesRead = true

/-- A field as its column has it; without a default the text is empty. -/
structure Describes (field : TableField) (row : ColumnRow) : Prop where
  name : field.columnName = row.name
  nullable : field.columnIsNull ↔ row.notNull = 0
  default : field.columnDefaultValue = row.defaultValue.getD []
  pk : field.columnPK ↔ row.pk ≥ 1

structure Loads (columns : List ColumnRow) (indexes : List IndexRow) (table : LoadedTable) : Prop where
  fields : List.Forall₂ Describes table.tableFields columns
  pkFields : table.pkFields = (columns.filter fun row => row.pk ≥ 1).map ColumnRow.name
  numFields : table.numFields = columns.length
  numIndex : table.numIndex = indexes.length
  indexes : table.indexes = indexes.map IndexRow.name

def HoldsWhen (rows : List ForeignKeyRow) (columns : List ColumnRow) (indexes : List IndexRow) : Prop :=
  (∀ row ∈ rows, row.toColumn.isSome) ∧ columns = [] ∧ ∀ index ∈ indexes, index.name = flagText index.unique

section Keys

variable {tableName : Text} {rows : List ForeignKeyRow}

theorem collectRow_unnamed {row : ForeignKeyRow} (h : row.toColumn = none) (lists : KeyLists ℕ) :
    collectRow lists row = .error .nullText := by
  rw [collectRow, h]
  rfl

theorem collectRows_unnamed (h : ¬ ∀ row ∈ rows, row.toColumn.isSome) (lists : KeyLists ℕ) :
    rows.foldlM collectRow lists = .error .nullText := by
  induction rows generalizing lists with
  | nil => exact absurd (by simp) h
  | cons row rows ih =>
    rw [List.foldlM_cons]
    cases hrow : row.toColumn with
    | none =>
      rw [collectRow_unnamed hrow]
      rfl
    | some name =>
      have hrest : ¬ ∀ row ∈ rows, row.toColumn.isSome := fun hrest => h (by simpa [hrow] using hrest)
      have hcollect : collectRow lists row = .ok
          ⟨lists.origFields.push row.id row.fromColumn, lists.refFields.push row.id name⟩ := by
        rw [collectRow, hrow]
        rfl
      rw [hcollect]
      exact ih hrest _

theorem loadRows_named (h : ∀ row ∈ rows, row.toColumn.isSome) (lists : KeyLists ℕ) (st : KeyScan) :
    ∃ scan, rows.foldlM (loadRow tableName lists) st = .ok scan := by
  induction rows generalizing st with
  | nil => exact ⟨st, rfl⟩
  | cons row rows ih =>
    obtain ⟨next, hnext⟩ : ∃ next, loadRow tableName lists st row = .ok next := by
      rw [loadRow, SqliteForeignKeys.cText_toColumn (h row (by simp))]
      exact ⟨_, rfl⟩
    rw [List.foldlM_cons, hnext]
    exact ih (fun r hr => h r (List.mem_cons_of_mem _ hr)) next

variable {a : TableAnswers}

theorem readForeignKeys_named (h : ∀ row ∈ rows, row.toColumn.isSome) (ha : SqliteForeignKeys.Reads a rows) :
    ∃ keys, readForeignKeys tableName a = .ok keys := by
  obtain ⟨scan, hscan⟩ : ∃ scan, rows.foldlM (loadRow tableName
      ⟨(OrderedMap.ofEntries [] .nil).gather ForeignKeyRow.id ForeignKeyRow.fromColumn rows,
        (OrderedMap.ofEntries [] .nil).gather ForeignKeyRow.id SqliteForeignKeys.toName rows⟩)
      ⟨.noAction, .noAction, .empty⟩ = .ok scan := loadRows_named h _ _
  have hcheck : (Rows.check ⟨rows, true⟩ : Except Failure Unit) = .ok () := rfl
  have hbound : checked true = .ok () := rfl
  refine ⟨scan.keys, ?_⟩
  rw [readForeignKeys, if_pos ha.prepared, ha.bound, ha.first, ha.second, hbound, Faults.ok_bind,
    SqliteForeignKeys.foldlM_collectRow h, Faults.ok_bind, hcheck, Faults.ok_bind, KeyLists.empty, hscan]
  rfl

theorem readForeignKeys_unnamed (h : ¬ ∀ row ∈ rows, row.toColumn.isSome) (ha : SqliteForeignKeys.Reads a rows) :
    readForeignKeys tableName a = .error .nullText := by
  have hbound : checked true = .ok () := rfl
  rw [readForeignKeys, if_pos ha.prepared, ha.bound, ha.first, hbound, Faults.ok_bind, collectRows_unnamed h]
  rfl

end Keys

section Table

variable {tableName : Text} {rows : List ForeignKeyRow} {columns : List ColumnRow} {indexes : List IndexRow}
  {a : TableAnswers}

/-- What a field keeps of its column; a column that is declared `NOT NULL` is one in which NULL is allowed. -/
structure Keeps (field : TableField) (row : ColumnRow) : Prop where
  name : field.columnName = row.name
  nullable : field.columnIsNull ↔ row.notNull ≠ 0
  default : field.columnDefaultValue = row.defaultValue.getD []
  pk : field.columnPK ↔ row.pk ≥ 1

theorem keeps_tableField (fkNames : List Text) (row : ColumnRow) (autoinc : Bool) :
    Keeps (tableField tableName fkNames row autoinc) row where
  name := rfl
  nullable := by simp [tableField]
  default := rfl
  pk := by simp [tableField]

theorem Keeps.not_describes {field : TableField} {row : ColumnRow} (h : Keeps field row) : ¬ Describes field row := by
  intro hd
  have hflip : row.notNull ≠ 0 ↔ row.notNull = 0 := h.nullable.symm.trans hd.nullable
  omega

theorem no_columns {fields : List TableField} (hkeeps : List.Forall₂ Keeps fields columns)
    (hdescribes : List.Forall₂ Describes fields columns) : columns = [] := by
  cases hkeeps with
  | nil => rfl
  | cons hfield _ =>
    cases hdescribes with
    | cons hdescribed _ => exact absurd hdescribed hfield.not_describes

theorem loadColumns_keeps {answers : List ColumnAnswer} {fkNames : List Text} {before : List TableField}
    (h : ∀ c ∈ answers, c.autoinc.isSome ∧ c.propertiesRead) :
    ∃ fields, answers.foldlM (loadColumn tableName fkNames []) before = .ok (before ++ fields) ∧
      List.Forall₂ Keeps fields (answers.map ColumnAnswer.row) := by
  induction answers generalizing before with
  | nil => exact ⟨[], by simp; rfl, .nil⟩
  | cons c answers ih =>
    obtain ⟨hautoinc, hproperties⟩ := h c (by simp)
    obtain ⟨autoinc, hautoinc⟩ := Option.isSome_iff_exists.mp hautoinc
    obtain ⟨fields, hfields, hkeeps⟩ : ∃ fields, answers.foldlM (loadColumn tableName fkNames [])
        (before ++ [tableField tableName fkNames c.row autoinc]) = .ok (_ ++ fields) ∧ _ :=
      ih fun d hd => h d (List.mem_cons_of_mem _ hd)
    refine ⟨tableField tableName fkNames c.row autoinc :: fields, ?_, .cons (keeps_tableField fkNames c.row autoinc) hkeeps⟩
    rw [List.foldlM_cons, loadColumn, hautoinc]
    simp only [List.isEmpty_nil, if_true, hproperties]
    refine Eq.trans ?_ (hfields.trans (by simp))
    rfl

theorem pkFieldsOf_keeps {fields : List TableField} (h : List.Forall₂ Keeps fields columns) :
    pkFieldsOf fields = (columns.filter fun row => row.pk ≥ 1).map ColumnRow.name := by
  induction h with
  | nil => rfl
  | @cons field row fields columns hrow _ ih =>
    have hpk : field.columnPK = decide (row.pk ≥ 1) := by
      rw [Bool.eq_iff_iff, hrow.pk]
      simp
    by_cases hkey : row.pk ≥ 1
    · rw [pkFieldsOf, List.filter_cons_of_pos (by simpa [hpk] using hkey),
        List.filter_cons_of_pos (by simpa using hkey), List.map_cons, List.map_cons, hrow.name, ← ih]
      rfl
    · rw [pkFieldsOf, List.filter_cons_of_neg (by simpa [hpk] using hkey),
        List.filter_cons_of_neg (by simpa using hkey), ← ih]
      rfl

structure LoadsAsRead (columns : List ColumnRow) (indexes : List IndexRow) (table : LoadedTable) : Prop where
  fields : List.Forall₂ Keeps table.tableFields columns
  pkFields : table.pkFields = (columns.filter fun row => row.pk ≥ 1).map ColumnRow.name
  numFields : table.numFields = columns.length
  numIndex : table.numIndex = indexes.length
  indexes : table.indexes = indexes.map fun index => flagText index.unique

theorem loadTable_eq (h : ∀ row ∈ rows, row.toColumn.isSome) (ha : Succeeds rows columns indexes a) :
    ∃ table, loadTable tableName [] a = .ok table ∧ LoadsAsRead columns indexes table := by
  obtain ⟨keys, hkeys⟩ : ∃ keys, readForeignKeys tableName a = .ok keys := readForeignKeys_named h ha.keys
  obtain ⟨fields, hfields, hkeeps⟩ : ∃ fields,
      a.columns.rows.foldlM (loadColumn tableName keys.fkNames []) [] = .ok ([] ++ fields) ∧ _ :=
    loadColumns_keeps ha.columnCalls
  rw [ha.columnRows] at hkeeps
  have hread : readColumns tableName keys.fkNames [] a = .ok fields := by
    have hcheck : a.columns.check = .ok () := if_pos ha.columnsComplete
    rw [readColumns, ha.columnsPrepared, ha.columnsBound, hfields, hcheck]
    rfl
  have hindexes : readIndexes a = .ok (indexes.map IndexRow.readCell) := by
    rw [readIndexes, if_pos ha.indexesPrepared, ha.indexesBound, ha.indexRows]
    rfl
  refine ⟨⟨⟨mainSchema, tableName, keys.foreignKeys, 0, [], []⟩, fields, fields.length, pkFieldsOf fields,
    indexes.map IndexRow.readCell, (indexes.map IndexRow.readCell).length⟩, ?_, ?_⟩
  · rw [loadTable, hkeys, Faults.ok_bind, hread, Faults.ok_bind, hindexes, Faults.ok_bind, ha.propertiesRead]
    rfl
  · exact ⟨hkeeps, pkFieldsOf_keeps hkeeps, hkeeps.length_eq, List.length_map .., rfl⟩

theorem LoadsAsRead.loads_iff {table : LoadedTable} (h : LoadsAsRead columns indexes table) :
    Loads columns indexes table ↔ columns = [] ∧ ∀ index ∈ indexes, index.name = flagText index.unique := by
  have hnames : table.indexes = indexes.map IndexRow.name ↔ ∀ index ∈ indexes, index.name = flagText index.unique := by
    rw [h.indexes, List.map_inj_left]
    exact forall₂_congr fun index _ => eq_comm
  constructor
  · intro hl
    refine ⟨?_, hnames.mp hl.indexes⟩
    exact no_columns h.fields hl.fields
  · rintro ⟨rfl, hindexes⟩
    refine ⟨?_, h.pkFields, h.numFields, h.numIndex, hnames.mpr hindexes⟩
    rw [List.forall₂_nil_right_iff.mp h.fields]
    exact .nil

theorem addDropTable_unnamed (h : ¬ ∀ row ∈ rows, row.toColumn.isSome) (ha : SqliteForeignKeys.Reads a rows)
    (catalog : Text) (s : Catalogs) : addDropTable tableName catalog [] a s = none := by
  have hload : loadTable tableName [] a = .error .nullText := by
    rw [loadTable, readForeignKeys_unnamed h ha]
    rfl
  rw [addDropTable, hload]

end Table

theorem columns_and_indexes_iff (tableName catalog : Text) {rows : List ForeignKeyRow} {columns : List ColumnRow}
    {indexes : List IndexRow} {a : TableAnswers} (ha : Succeeds rows columns indexes a) (s : Catalogs) :
    (∃ table t, addDropTable tableName catalog [] a s = some (0, t) ∧ t.tables = s.tables.push catalog table ∧
      Loads columns indexes table) ↔ HoldsWhen rows columns indexes := by
  by_cases hnamed : ∀ row ∈ rows, row.toColumn.isSome
  · obtain ⟨loaded, hloaded, hread⟩ : ∃ table, loadTable tableName [] a = .ok table ∧ _ := loadTable_eq hnamed ha
    have hadd : addDropTable tableName catalog [] a s =
        some (0, ⟨s.tables.push catalog loaded, s.tableNames ++ [tableName]⟩) := by
      rw [addDropTable, hloaded]
    constructor
    · rintro ⟨table, t, ht, hpush, hloads⟩
      rw [hadd] at ht
      obtain rfl := congrArg Prod.snd (Option.some.inj ht)
      have htable : loaded = table := OrderedMap.push_injective catalog s.tables hpush
      rw [← htable] at hloads
      exact ⟨hnamed, hread.loads_iff.mp hloads⟩
    · rintro ⟨-, hrest⟩
      exact ⟨loaded, _, hadd, rfl, hread.loads_iff.mpr hrest⟩
  · refine iff_of_false ?_ fun h => hnamed h.1
    rintro ⟨table, t, ht, -⟩
    rw [addDropTable_unnamed hnamed ha.keys] at ht
    cases ht

def clientsColumns : List ColumnRow := [⟨"id".toList, some "INTEGER".toList, 1, none, 1⟩]

def clientsIndexes : List IndexRow := [⟨0, "by_id".toList, true, ['c'], false⟩]

def clientsAnswers : TableAnswers where
  foreignKeysPrepared := true
  foreignKeysBound := true
  firstPass := ⟨[], true⟩
  secondPass := ⟨[], true⟩
  columnsPrepared := true
  columnsBound := true
  columns := ⟨clientsColumns.map fun row => ⟨row, some false, true⟩, true⟩
  indexesPrepared := true
  indexesBound := true
  indexes := ⟨clientsIndexes.map IndexRow.readCell, true⟩
  propertiesRead := true

theorem succeeds_clients : Succeeds [] clientsColumns clientsIndexes clientsAnswers where
  keys := ⟨rfl, rfl, rfl, rfl⟩
  columnsPrepared := rfl
  columnsBound := rfl
  columnRows := rfl
  columnCalls := by simp [clientsAnswers]
  columnsComplete := rfl
  indexesPrepared := rfl
  indexesBound := rfl
  indexRows := rfl
  propertiesRead := rfl

theorem clients_loads_iff :
    (∃ table t, addDropTable "clients".toList "shop".toList [] clientsAnswers ⟨.ofEntries [], []⟩ = some (0, t) ∧
      t.tables = (OrderedMap.ofEntries []).push "shop".toList table ∧ Loads clientsColumns clientsIndexes table) ↔
        HoldsWhen [] clientsColumns clientsIndexes := columns_and_indexes_iff _ _ succeeds_clients _

theorem id_is_loaded_nullable :
    ¬ ∃ table t, addDropTable "clients".toList "shop".toList [] clientsAnswers ⟨.ofEntries [], []⟩ = some (0, t) ∧
      t.tables = (OrderedMap.ofEntries []).push "shop".toList table ∧ Loads clientsColumns clientsIndexes table := by
  rintro ⟨table, t, ht, hpush, hloads⟩
  obtain rfl := congrArg Prod.snd (Option.some.inj ht)
  have htable : _ = table := OrderedMap.push_injective _ _ hpush
  have hnull : table.tableFields.map TableField.columnIsNull = [true] := by rw [← htable]; rfl
  obtain ⟨field, fields, hfield, -, hfields⟩ := List.forall₂_cons_right_iff.mp hloads.fields
  rw [hfields, List.map_cons] at hnull
  have hallowed : field.columnIsNull = true := (List.cons.inj hnull).1
  exact absurd (hfield.nullable.mp hallowed) (by decide)

end DbHandler.SqliteColumns
