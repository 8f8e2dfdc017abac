import DbHandler.Foundation.Faults
import DbHandler.Sqlite.Tables

namespace DbHandler.SqliteForeignKeys

open Foundation Sqlite

/-- What `pragma_foreign_key_list` answers: the names of actions are the five that there are. -/
structure PragmaRows (rows : List ForeignKeyRow) : Prop where
  named : ∀ row ∈ rows, row.toColumn.isSome
  update : ∀ row ∈ rows, ∃ action : FkOnUpdate, row.onUpdate = action.name
  delete : ∀ row ∈ rows, ∃ action : FkOnDelete, row.onDelete = action.name

def sameKey (rows : List ForeignKeyRow) (id : ℕ) : List ForeignKeyRow := rows.filter fun row => row.id = id

structure Carries (rows : List ForeignKeyRow) (field : FKField) (row : ForeignKeyRow) : Prop where
  original : field.originalField = row.fromColumn
  referenced : some field.referencedField = row.toColumn
  table : field.refTable = row.table
  update : field.updateConstraint.name = row.onUpdate
  delete : field.deleteConstraint.name = row.onDelete
  origFields : field.origFields = (sameKey rows row.id).map ForeignKeyRow.fromColumn
  refFields : field.refFields.map some = (sameKey rows row.id).map ForeignKeyRow.toColumn

structure Loads (rows : List ForeignKeyRow) (keys : ForeignKeyMap) : Prop where
  mem_keys : ∀ id, id ∈ keys.keys ↔ ∃ row ∈ rows, row.id = id
  fields : ∀ id, List.Forall₂ (Carries rows) (keys.under id) (sameKey rows id)

def toName (row : ForeignKeyRow) : Text := row.toColumn.getD []

theorem cText_toColumn {row : ForeignKeyRow} (h : row.toColumn.isSome) : cText row.toColumn = .ok (toName row) := by
  obtain ⟨name, hname⟩ := Option.isSome_iff_exists.mp h
  simp [cText, toName, hname]

theorem foldlM_collectRow {rows : List ForeignKeyRow} (h : ∀ row ∈ rows, row.toColumn.isSome) (lists : KeyLists ℕ) :
    rows.foldlM collectRow lists = .ok
      ⟨lists.origFields.gather ForeignKeyRow.id ForeignKeyRow.fromColumn rows,
        lists.refFields.gather ForeignKeyRow.id toName rows⟩ := by
  induction rows generalizing lists with
  | nil => rfl
  | cons row rows ih =>
    have hrow : collectRow lists row = .ok ⟨lists.origFields.push row.id row.fromColumn,
        lists.refFields.push row.id (toName row)⟩ := by
      rw [collectRow, cText_toColumn (h row (by simp))]
      rfl
    rw [List.foldlM_cons, hrow]
    exact ih (fun r hr => h r (List.mem_cons_of_mem _ hr)) _

section SecondPass

variable {tableName : Text} {lists : KeyLists ℕ} {rows : List ForeignKeyRow}

def fieldOf (tableName : Text) (lists : KeyLists ℕ) (row : ForeignKeyRow) : FKField :=
  foreignKeyField tableName lists row (toName row) (readOnUpdate .noAction row.onUpdate)
    (readOnDelete .noAction row.onDelete)

theorem loadRow_eq {row : ForeignKeyRow} (hrow : PragmaRows [row]) (st : KeyScan) :
    ∃ update delete, loadRow tableName lists st row = .ok ⟨update, delete,
      st.keys.foreignKeys.push row.id (fieldOf tableName lists row), st.keys.fkNames ++ [row.fromColumn]⟩ := by
  obtain ⟨update, hupdate⟩ := hrow.update row (by simp)
  obtain ⟨delete, hdelete⟩ := hrow.delete row (by simp)
  refine ⟨update, delete, ?_⟩
  rw [loadRow, cText_toColumn (hrow.named row (by simp)), fieldOf, hupdate, hdelete, readOnUpdate_name,
    readOnUpdate_name, readOnDelete_name, readOnDelete_name]
  rfl

theorem PragmaRows.cons {row : ForeignKeyRow} (h : PragmaRows (row :: rows)) : PragmaRows [row] ∧ PragmaRows rows := by
  constructor
  · exact ⟨by simpa using h.named row (by simp), by simpa using h.update row (by simp), by simpa using h.delete row (by simp)⟩
  · exact ⟨fun r hr => h.named r (List.mem_cons_of_mem _ hr), fun r hr => h.update r (List.mem_cons_of_mem _ hr),
      fun r hr => h.delete r (List.mem_cons_of_mem _ hr)⟩

theorem foldlM_loadRow (h : PragmaRows rows) (st : KeyScan) :
    ∃ update delete, rows.foldlM (loadRow tableName lists) st = .ok ⟨update, delete,
      st.keys.foreignKeys.gather ForeignKeyRow.id (fieldOf tableName lists) rows,
        st.keys.fkNames ++ rows.map ForeignKeyRow.fromColumn⟩ := by
  induction rows generalizing st with
  | nil => exact ⟨st.update, st.delete, by simp [OrderedMap.gather]; rfl⟩
  | cons row rows ih =>
    obtain ⟨hrow, hrows⟩ := h.cons
    obtain ⟨update, delete, hload⟩ : ∃ update delete, loadRow tableName lists st row = _ := loadRow_eq hrow st
    obtain ⟨update, delete, hrest⟩ := ih hrows ⟨update, delete,
      st.keys.foreignKeys.push row.id (fieldOf tableName lists row), st.keys.fkNames ++ [row.fromColumn]⟩
    refine ⟨update, delete, ?_⟩
    rw [List.foldlM_cons, hload]
    refine hrest.trans ?_
    simp [OrderedMap.gather]

end SecondPass

def loadedKeys (tableName : Text) (rows : List ForeignKeyRow) : ForeignKeyMap :=
  (OrderedMap.ofEntries [] .nil).gather ForeignKeyRow.id
    (fieldOf tableName ⟨(OrderedMap.ofEntries [] .nil).gather ForeignKeyRow.id ForeignKeyRow.fromColumn rows,
      (OrderedMap.ofEntries [] .nil).gather ForeignKeyRow.id toName rows⟩) rows

theorem carries_fieldOf {tableName : Text} {rows : List ForeignKeyRow} (h : PragmaRows rows) {row : ForeignKeyRow}
    (hrow : row ∈ rows) :
    Carries rows (fieldOf tableName ⟨(OrderedMap.ofEntries [] .nil).gather ForeignKeyRow.id ForeignKeyRow.fromColumn rows,
      (OrderedMap.ofEntries [] .nil).gather ForeignKeyRow.id toName rows⟩ row) row := by
  have hname : ∀ r ∈ rows, some (toName r) = r.toColumn := fun r hr => by
    obtain ⟨name, hname⟩ := Option.isSome_iff_exists.mp (h.named r hr)
    simp [toName, hname]
  obtain ⟨update, hupdate⟩ := h.update row hrow
  obtain ⟨delete, hdelete⟩ := h.delete row hrow
  refine ⟨rfl, hname row hrow, rfl, ?_, ?_, ?_, ?_⟩
  · simp [fieldOf, foreignKeyField, hupdate]
  · simp [fieldOf, foreignKeyField, hdelete]
  · simp [fieldOf, foreignKeyField, OrderedMap.under_gather, sameKey]
  · simp only [fieldOf, foreignKeyField, OrderedMap.under_gather, OrderedMap.under_empty, List.nil_append, sameKey,
      List.map_map]
    exact List.map_congr_left fun r hr => hname r (List.mem_of_mem_filter hr)

theorem loads_loadedKeys {tableName : Text} {rows : List ForeignKeyRow} (h : PragmaRows rows) :
    Loads rows (loadedKeys tableName rows) where
  mem_keys id := by simp [loadedKeys, OrderedMap.mem_keys_gather]
  fields id := by
    rw [loadedKeys, OrderedMap.under_gather, OrderedMap.under_empty, List.nil_append, List.forall₂_map_left_iff]
    exact List.forall₂_same.mpr fun row hrow => carries_fieldOf h (List.mem_of_mem_filter hrow)

structure Reads (a : TableAnswers) (rows : List ForeignKeyRow) : Prop where
  prepared : a.foreignKeysPrepared = true
  bound : a.foreignKeysBound = true
  first : a.firstPass = ⟨rows, true⟩
  second : a.secondPass = ⟨rows, true⟩

structure Completes (a : TableAnswers) : Prop where
  columnsPrepared : a.columnsPrepared = true
  columnsBound : a.columnsBound = true
  columns : ∀ c ∈ a.columns.rows, c.autoinc.isSome ∧ c.propertiesRead
  columnsComplete : a.columns.complete = true
  indexesBound : a.indexesPrepared = true → a.indexesBound = true ∧ a.indexes.complete = true
  propertiesRead : a.propertiesRead = true

section Table

variable {tableName : Text} {errorMsg : List Text} {rows : List ForeignKeyRow} {a : TableAnswers}

theorem readForeignKeys_eq (h : PragmaRows rows) (ha : Reads a rows) :
    readForeignKeys tableName a = .ok ⟨loadedKeys tableName rows, rows.map ForeignKeyRow.fromColumn⟩ := by
  obtain ⟨update, delete, hscan⟩ : ∃ update delete,
      rows.foldlM (loadRow tableName ⟨(OrderedMap.ofEntries [] .nil).gather ForeignKeyRow.id ForeignKeyRow.fromColumn rows,
        (OrderedMap.ofEntries [] .nil).gather ForeignKeyRow.id toName rows⟩) ⟨.noAction, .noAction, .empty⟩ = _ :=
    foldlM_loadRow h _
  have hcheck : (Rows.check ⟨rows, true⟩ : Except Failure Unit) = .ok () := rfl
  have hbound : checked true = .ok () := rfl
  rw [readForeignKeys, if_pos ha.prepared, ha.bound, ha.first, ha.second, hbound, Faults.ok_bind,
    foldlM_collectRow h.named, Faults.ok_bind, hcheck, Faults.ok_bind, KeyLists.empty, hscan]
  rfl

def Flags (rows : List ForeignKeyRow) (field : TableField) : Prop :=
  field.columnFK ↔ ∃ row ∈ rows, row.fromColumn = field.columnName

theorem flags_tableField (row : ColumnRow) (autoinc : Bool) :
    Flags rows (tableField tableName (rows.map ForeignKeyRow.fromColumn) row autoinc) := by
  simp [Flags, tableField]

theorem flags_loadColumn {before next : List TableField} {c : ColumnAnswer} (hbefore : ∀ field ∈ before, Flags rows field)
    (h : loadColumn tableName (rows.map ForeignKeyRow.fromColumn) errorMsg before c = .ok next) :
    ∀ field ∈ next, Flags rows field := by
  intro field hfield
  simp only [loadColumn] at h
  split at h
  · cases h
  · split_ifs at h
    · obtain rfl := Except.ok.inj h
      rcases List.mem_append.mp hfield with hfield | hfield
      · exact hbefore field hfield
      · obtain rfl := List.mem_singleton.mp hfield
        exact flags_tableField c.row _
    · obtain rfl := Except.ok.inj h
      exact hbefore field hfield

theorem loadColumns_eq {columns : List ColumnAnswer} {fkNames : List Text} {before : List TableField}
    (hcolumns : ∀ c ∈ columns, c.autoinc.isSome ∧ c.propertiesRead) :
    ∃ fields, columns.foldlM (loadColumn tableName fkNames errorMsg) before = .ok fields ∧
      (errorMsg = [] → fields.map TableField.columnName =
        before.map TableField.columnName ++ columns.map fun c => c.row.name) := by
  induction columns generalizing before with
  | nil => exact ⟨before, rfl, by simp⟩
  | cons c columns ih =>
    obtain ⟨hautoinc, hproperties⟩ := hcolumns c (by simp)
    obtain ⟨autoinc, hautoinc⟩ := Option.isSome_iff_exists.mp hautoinc
    have hrest := fun b => @ih b fun d hd => hcolumns d (List.mem_cons_of_mem _ hd)
    rw [List.foldlM_cons, loadColumn, hautoinc]
    cases errorMsg with
    | nil =>
      obtain ⟨fields, hfields, hnames⟩ := hrest (before ++ [tableField tableName fkNames c.row autoinc])
      refine ⟨fields, ?_, fun _ => ?_⟩
      · simp only [List.isEmpty_nil, if_true, hproperties]
        exact hfields
      · rw [hnames rfl]
        simp [tableField]
    | cons error errors =>
      obtain ⟨fields, hfields, -⟩ := hrest before
      exact ⟨fields, hfields, by simp⟩

variable (tableName errorMsg) in
theorem loadTable_sound (h : PragmaRows rows) (ha : Reads a rows) {table : LoadedTable}
    (hload : loadTable tableName errorMsg a = .ok table) :
    Loads rows table.foreignKeys ∧ ∀ field ∈ table.tableFields, Flags rows field := by
  rw [loadTable, readForeignKeys_eq h ha] at hload
  obtain ⟨keys, hkeys, hload⟩ := Faults.bind_ok hload
  obtain rfl := Except.ok.inj hkeys
  obtain ⟨fields, hfields, hload⟩ := Faults.bind_ok hload
  obtain ⟨indexes, -, hload⟩ := Faults.bind_ok hload
  obtain ⟨-, -, hload⟩ := Faults.bind_ok hload
  obtain rfl := Except.ok.inj hload
  refine ⟨loads_loadedKeys h, ?_⟩
  obtain ⟨-, -, hfields⟩ := Faults.bind_ok hfields
  obtain ⟨-, -, hfields⟩ := Faults.bind_ok hfields
  obtain ⟨columns, hcolumns, hfields⟩ := Faults.bind_ok hfields
  obtain ⟨-, -, hfields⟩ := Faults.bind_ok hfields
  obtain rfl := Except.ok.inj hfields
  exact Faults.foldlM_invariant (P := fun fields => ∀ field ∈ fields, Flags rows field)
    (fun _ _ _ hbefore hnext => flags_loadColumn hbefore hnext) (by simp) hcolumns

theorem readColumns_complete (fkNames : List Text) (hc : Completes a) :
    ∃ fields, readColumns tableName fkNames errorMsg a = .ok fields ∧
      (errorMsg = [] → fields.map TableField.columnName = a.columns.rows.map fun c => c.row.name) := by
  obtain ⟨fields, hfields, hnames⟩ : ∃ fields,
      a.columns.rows.foldlM (loadColumn tableName fkNames errorMsg) [] = .ok fields ∧ _ := loadColumns_eq hc.columns
  refine ⟨fields, ?_, hnames⟩
  have hcheck : a.columns.check = .ok () := if_pos hc.columnsComplete
  rw [readColumns, hc.columnsPrepared, hc.columnsBound, hfields, hcheck]
  rfl

theorem readIndexes_complete (hc : Completes a) : ∃ indexes, readIndexes a = .ok indexes := by
  rw [readIndexes]
  split_ifs with hprepared
  · obtain ⟨hbound, hcomplete⟩ := hc.indexesBound hprepared
    have hcheck : a.indexes.check = .ok () := if_pos hcomplete
    rw [hbound, hcheck]
    exact ⟨a.indexes.rows, rfl⟩
  · exact ⟨[], rfl⟩

theorem loadTable_complete (h : PragmaRows rows) (ha : Reads a rows) (hc : Completes a) :
    ∃ table, loadTable tableName errorMsg a = .ok table ∧
      (errorMsg = [] → table.tableFields.map TableField.columnName = a.columns.rows.map fun c => c.row.name) := by
  obtain ⟨fields, hfields, hnames⟩ : ∃ fields,
      readColumns tableName (rows.map ForeignKeyRow.fromColumn) errorMsg a = .ok fields ∧ _ := readColumns_complete _ hc
  obtain ⟨indexes, hindexes⟩ := readIndexes_complete hc
  refine ⟨⟨⟨mainSchema, tableName, loadedKeys tableName rows, 0, [], []⟩, fields, fields.length, pkFieldsOf fields, indexes,
    indexes.length⟩, ?_, hnames⟩
  rw [loadTable, readForeignKeys_eq h ha, Faults.ok_bind, hfields, Faults.ok_bind, hindexes, Faults.ok_bind,
    hc.propertiesRead]
  rfl

theorem avoids_checked (done : Bool) : Faults.Avoids .nullText (checked done) := by
  rw [checked]
  split <;> simp [Faults.Avoids]

theorem loadTable_avoids (h : PragmaRows rows) (ha : Reads a rows) :
    Faults.Avoids .nullText (loadTable tableName errorMsg a) := by
  rw [loadTable, readForeignKeys_eq h ha, Faults.ok_bind]
  refine Faults.Avoids.bind ?_ fun fields => Faults.Avoids.bind ?_ fun indexes =>
    Faults.Avoids.bind (avoids_checked _) fun _ => Faults.Avoids.ok _ _
  · refine Faults.Avoids.bind (avoids_checked _) fun _ => Faults.Avoids.bind (avoids_checked _) fun _ =>
      Faults.Avoids.bind (Faults.Avoids.foldlM (fun before c => ?_) _ _) fun _ =>
        Faults.Avoids.bind (avoids_checked _) fun _ => Faults.Avoids.ok _ _
    rw [loadColumn]
    split
    · simp [Faults.Avoids]
    · split_ifs <;> simp [Faults.Avoids]
  · rw [readIndexes]
    split
    · exact Faults.Avoids.bind (avoids_checked _) fun _ => Faults.Avoids.bind (avoids_checked _) fun _ =>
        Faults.Avoids.ok _ _
    · exact Faults.Avoids.ok _ _

end Table

structure Added (tableName catalog : Text) (errorMsg : List Text) (rows : List ForeignKeyRow) (a : TableAnswers)
    (s t : Catalogs) (table : LoadedTable) : Prop where
  pushed : t = { tables := s.tables.push catalog table, tableNames := s.tableNames ++ [tableName] }
  keys : Loads rows table.foreignKeys
  flags : ∀ field ∈ table.tableFields, Flags rows field
  columns : Completes a → errorMsg = [] →
    table.tableFields.map TableField.columnName = a.columns.rows.map fun c => c.row.name

theorem loads_foreign_keys (tableName catalog : Text) (errorMsg : List Text) {rows : List ForeignKeyRow} (h : PragmaRows rows)
    {a : TableAnswers} (ha : Reads a rows) (s : Catalogs) :
    ∃ code t, addDropTable tableName catalog errorMsg a s = some (code, t) ∧
      (code = 0 → ∃ table, Added tableName catalog errorMsg rows a s t table) ∧ (Completes a → code = 0) := by
  rw [addDropTable]
  cases hload : loadTable tableName errorMsg a with
  | ok table =>
    obtain ⟨hkeys, hflags⟩ := loadTable_sound tableName errorMsg h ha hload
    refine ⟨0, _, rfl, fun _ => ⟨table, rfl, hkeys, hflags, fun hc => ?_⟩, fun _ => rfl⟩
    obtain ⟨completed, hcompleted, hcolumns⟩ : ∃ completed, loadTable tableName errorMsg a = .ok completed ∧ _ :=
      loadTable_complete h ha hc
    rw [hload] at hcompleted
    obtain rfl := Except.ok.inj hcompleted
    exact hcolumns
  | error failure =>
    have hnot : ¬ Completes a := fun hc => by
      obtain ⟨table, htable, -⟩ : ∃ table, loadTable tableName errorMsg a = .ok table ∧ _ := loadTable_complete h ha hc
      rw [hload] at htable
      cases htable
    cases failure with
    | call => exact ⟨1, _, rfl, by simp, fun hc => absurd hc hnot⟩
    | nullText => exact absurd hload (loadTable_avoids h ha)

def interleavedRows : List ForeignKeyRow :=
  [⟨1, 0, "orders".toList, "order".toList, some "id".toList, "CASCADE".toList, "NO ACTION".toList⟩,
    ⟨0, 0, "items".toList, "item".toList, some "id".toList, "NO ACTION".toList, "SET NULL".toList⟩,
    ⟨1, 1, "orders".toList, "year".toList, some "year".toList, "CASCADE".toList, "NO ACTION".toList⟩]

def interleavedAnswers : TableAnswers where
  foreignKeysPrepared := true
  foreignKeysBound := true
  firstPass := ⟨interleavedRows, true⟩
  secondPass := ⟨interleavedRows, true⟩
  columnsPrepared := true
  columnsBound := true
  columns := ⟨[⟨⟨"order".toList, some "INTEGER".toList, 0, none, 0⟩, some false, true⟩], true⟩
  indexesPrepared := true
  indexesBound := true
  indexes := ⟨[], true⟩
  propertiesRead := true

theorem pragmaRows_interleaved : PragmaRows interleavedRows where
  named := by decide
  update := by
    simp only [interleavedRows, List.forall_mem_cons, List.not_mem_nil, false_implies, implies_true, and_true]
    exact ⟨⟨.cascade, rfl⟩, ⟨.noAction, rfl⟩, ⟨.cascade, rfl⟩⟩
  delete := by
    simp only [interleavedRows, List.forall_mem_cons, List.not_mem_nil, false_implies, implies_true, and_true]
    exact ⟨⟨.noAction, rfl⟩, ⟨.setNull, rfl⟩, ⟨.noAction, rfl⟩⟩

theorem loads_interleaved : ∃ code t,
    addDropTable "lines".toList "shop".toList [] interleavedAnswers ⟨.ofEntries [], []⟩ = some (code, t) ∧
      (code = 0 → ∃ table, Added "lines".toList "shop".toList [] interleavedRows interleavedAnswers ⟨.ofEntries [], []⟩ t table) ∧
        (Completes interleavedAnswers → code = 0) :=
  loads_foreign_keys _ _ _ pragmaRows_interleaved ⟨rfl, rfl, rfl, rfl⟩ _

end DbHandler.SqliteForeignKeys
