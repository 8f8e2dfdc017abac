import DbHandler.MySQL.Tables

namespace DbHandler.MySQL

open Foundation

/-- The field that a row of the columns says; a size that is NULL is 0. -/
def ColumnRow.described (t : TableAnswers) (row : ColumnRow) : TableField where
  columnName := row.columnName.value
  columnType := row.dataType.value
  fieldSize := if row.characterOctetLength.isSome then row.characterMaximumLength.getD 0 else row.numericPrecision.getD 0
  decimalSize := if row.characterOctetLength.isSome then 0 else row.numericScale.getD 0
  fullName := t.tableName ++ '.' :: row.columnName.value
  columnDefaultValue := row.columnDefault.elim [] Cell.value
  columnIsNull := row.isNullable.any fun c => c.value = yes
  autoIncrement := row.extra.value = "auto_increment".toList
  columnPK := row.pkFlag
  columnFK := row.columnName.value ∈ t.foreignKeys.map fun key => key.columnName.value

structure ForeignKeyRow.Says (key : ForeignKeyRow) (field : FKField) : Prop where
  originalField : field.originalField = key.columnName.value
  refSchema : field.refSchema = key.referencedTableSchema.value
  refTable : field.refTable = key.referencedTableName.value
  referencedField : field.referencedField = key.referencedColumnName.value
  update : field.updateConstraint = key.updateRule
  delete : field.deleteConstraint = key.deleteRule

structure TableAnswers.Describes (t : TableAnswers) (table : Table) : Prop where
  schemaName : table.schemaName = t.tableSchema
  tableName : table.tableName = t.tableName
  fields : table.tableFields = t.columns.map (ColumnRow.described t)
  keys : ∀ key ∈ t.foreignKeys, ∃ field ∈ table.foreignKeys.values.flatten, key.Says field
  onlyKeys : ∀ field ∈ table.foreignKeys.values.flatten, ∃ key ∈ t.foreignKeys, key.Says field
  pkFields : table.pkFields = (t.columns.filter (·.pkFlag)).map fun row => row.columnName.value
  indexes : table.indexes = t.indexNames.map Cell.value

def between (v : Locals) (indexes : List Text) : Accumulators := ⟨v, [], [], indexes, .empty⟩

def turns : List TableAnswers → Accumulators → List Accumulators
  | [], _ => []
  | t :: ts, acc => acc :: turns ts (loadTable t acc).2

structure LoadsTables (v : Locals) (ts : List TableAnswers) (tables : Tables) (errorMsg : List Text) : Prop where
  loaded : ∃ built, List.Forall₂ TableAnswers.Describes ts built ∧ getTableListFromDb v none ts tables errorMsg =
    (0, tables.gather Prod.fst Prod.snd ((ts.map TableAnswers.tableCatalog).zip built), errorMsg)
  nothingCarried : ∀ acc ∈ turns ts (between v []), acc = between acc.locals []

structure ColumnRow.Sound (v : Locals) (row : ColumnRow) : Prop where
  whole : row.truncated = false
  name : row.columnName.shown 64 = row.columnName.value
  type : row.dataType.shown 64 = row.dataType.value
  default : ∀ c ∈ row.columnDefault, c.shown 64 = c.value
  nullable : ∀ c ∈ row.isNullable, c.shown 3 = yes ↔ c.value = yes
  extra : row.extra.shown 30 = "autoincrement".toList ↔ row.extra.value = "auto_increment".toList
  length : row.characterOctetLength.isSome = true → row.characterMaximumLength = none → v.charLen = 0
  precision : row.characterOctetLength = none → row.numericPrecision = none → v.numLen = 0
  scale : row.characterOctetLength = none → row.numericScale = none → v.numPrec = 0
  foreignKey : row.columnName.value ≠ v.fkField

def ColumnsSound : Locals → List ColumnRow → Prop
  | _, [] => True
  | v, row :: rows => row.Sound v ∧ ColumnsSound (row.store v) rows

structure TableAnswers.Sound (v : Locals) (t : TableAnswers) : Prop where
  foreignKeys : t.foreignKeys = []
  columns : ColumnsSound v t.columns
  indexNames : ∀ name ∈ t.indexNames, name.truncated t.indexLength = false ∧ name.shown t.indexLength = name.value

def TableAnswers.after (v : Locals) (t : TableAnswers) : Locals :=
  t.columns.foldl ColumnRow.store { v with fkField := fetchKeys v.fkField t.foreignKeys }

def TablesSound : Locals → List TableAnswers → Prop
  | _, [] => True
  | v, t :: ts => t.Sound v ∧ (ts ≠ [] → t.indexNames = []) ∧ TablesSound (t.after v) ts

section Columns

variable {v : Locals} {t : TableAnswers} {row : ColumnRow} {rows : List ColumnRow}

theorem storedInt_of_not_truncated (h : row.truncated = false) :
    ∀ n ∈ [row.characterMaximumLength, row.characterOctetLength, row.numericPrecision, row.numericScale],
      ∀ i ∈ n, storedInt i = i := by
  simp only [ColumnRow.truncated, Bool.or_eq_false_iff] at h
  obtain ⟨⟨⟨⟨-, hints⟩, -⟩, -⟩, -⟩ := h
  intro n hn i hi
  have hn := List.any_eq_false.mp hints n hn
  obtain rfl : n = some i := hi
  simpa using hn

theorem stored_getD_iff {n : Option ℤ} {x : ℤ} (h : ∀ i ∈ n, storedInt i = i) :
    (n.map storedInt).getD x = n.getD 0 ↔ (n = none → x = 0) := by
  cases n with
  | none => simp
  | some i => simp [h i rfl]

theorem default_eq_iff (d : Option Cell) :
    d.elim [] (Cell.shown 64) = d.elim [] Cell.value ↔ ∀ c ∈ d, c.shown 64 = c.value := by
  cases d <;> simp

theorem nullable_eq_iff (d : Option Cell) : (d.any fun c => c.shown 3 = yes) = (d.any fun c => c.value = yes) ↔
    ∀ c ∈ d, c.shown 3 = yes ↔ c.value = yes := by
  cases d <;> simp

theorem field_eq_iff (hrow : row.truncated = false) (ht : t.foreignKeys = []) :
    row.field t.tableName [v.fkField] (row.store v) = row.described t ↔ row.Sound v := by
  have hints := storedInt_of_not_truncated hrow
  have hlength := stored_getD_iff (x := v.charLen) (hints _ (by simp : row.characterMaximumLength ∈ _))
  have hprecision := stored_getD_iff (x := v.numLen) (hints _ (by simp : row.numericPrecision ∈ _))
  have hscale := stored_getD_iff (x := v.numPrec) (hints _ (by simp : row.numericScale ∈ _))
  simp only [ColumnRow.field, ColumnRow.described, ColumnRow.store, TableField.mk.injEq, ht, List.map_nil,
    List.not_mem_nil, decide_false, List.mem_singleton, decide_eq_false_iff_not, decide_eq_decide,
    List.append_cancel_left_eq, List.cons.injEq, true_and, default_eq_iff, nullable_eq_iff]
  constructor
  · rintro ⟨hname, htype, hsize, hdecimal, -, hdefault, hnull, hextra, hfk⟩
    refine ⟨hrow, hname, htype, hdefault, hnull, hextra, ?_, ?_, ?_, hname ▸ hfk⟩
    · intro hoctet
      rw [if_pos hoctet, if_pos hoctet] at hsize
      exact hlength.mp hsize
    · intro hoctet
      rw [hoctet] at hsize
      exact hprecision.mp hsize
    · intro hoctet
      rw [hoctet] at hdecimal
      exact hscale.mp hdecimal
  · rintro ⟨-, hname, htype, hdefault, hnull, hextra, hcharLen, hnumLen, hnumPrec, hfk⟩
    refine ⟨hname, htype, ?_, ?_, hname, hdefault, hnull, hextra, hname.symm ▸ hfk⟩
    · cases hoctet : row.characterOctetLength with
      | none => exact hprecision.mpr (hnumLen hoctet)
      | some n => exact hlength.mpr (hcharLen (by simp [hoctet]))
    · cases hoctet : row.characterOctetLength with
      | none => exact hscale.mpr (hnumPrec hoctet)
      | some n => rfl

theorem ColumnsSound.whole (h : ColumnsSound v rows) : ∀ row ∈ rows, row.truncated = false := by
  induction rows generalizing v with
  | nil => exact List.forall_mem_nil _
  | cons row rows ih => exact List.forall_mem_cons.mpr ⟨h.1.whole, ih h.2⟩

theorem fetchColumns_fst (h : ∀ row ∈ rows, row.truncated = false) (tableName : Text) (fkNames : List Text) :
    (fetchColumns tableName fkNames v rows).1 = rows.foldl ColumnRow.store v := by
  induction rows generalizing v with
  | nil => rfl
  | cons row rows ih =>
    obtain ⟨hrow, hrows⟩ := List.forall_mem_cons.mp h
    rw [fetchColumns, hrow]
    exact ih hrows

theorem fetchColumns_iff (ht : t.foreignKeys = []) {fkField : Text} (hv : v.fkField = fkField) :
    (fetchColumns t.tableName [fkField] v rows).2 = rows.map (ColumnRow.described t) ↔ ColumnsSound v rows := by
  induction rows generalizing v with
  | nil => exact iff_of_true rfl trivial
  | cons row rows ih =>
    subst hv
    rw [fetchColumns, List.map_cons, ColumnsSound]
    cases hrow : row.truncated with
    | true =>
      -- nothing of the row or of those after it is read
      apply iff_of_false (List.cons_ne_nil _ _).symm
      rintro ⟨hsound, -⟩
      exact Bool.noConfusion (hrow.symm.trans hsound.whole)
    | false =>
      simp only [Bool.false_eq_true, if_false, List.cons.injEq]
      rw [field_eq_iff hrow ht]
      exact and_congr_right fun _ => ih rfl

end Columns

section Tables

variable {v : Locals} {t : TableAnswers} {ts : List TableAnswers} {acc : Accumulators}

theorem fetchIndexes_iff (length : ℕ) (names : List Cell) : fetchIndexes length names = names.map Cell.value ↔
    ∀ name ∈ names, name.truncated length = false ∧ name.shown length = name.value := by
  induction names with
  | nil => exact iff_of_true rfl (List.forall_mem_nil _)
  | cons name names ih =>
    rw [fetchIndexes, List.map_cons, List.forall_mem_cons, ← ih]
    cases name.truncated length <;> simp

theorem loadTable_after (h : t.Sound v) :
    (loadTable t (between v [])).2 = between (t.after v) (t.indexNames.map Cell.value) := by
  rw [TableAnswers.after, ← (fetchIndexes_iff t.indexLength t.indexNames).mpr h.indexNames]
  rw [← fetchColumns_fst h.columns.whole t.tableName [fetchKeys v.fkField t.foreignKeys]]
  rfl

theorem pkFieldsOf_described (rows : List ColumnRow) : pkFieldsOf (rows.map (ColumnRow.described t)) =
    (rows.filter (·.pkFlag)).map fun row => row.columnName.value := by
  rw [pkFieldsOf, List.filter_map, List.map_map]
  rfl

theorem describes_iff : t.Describes (loadTable t (between v [])).1 ↔ t.Sound v := by
  have hkeys (ht : t.foreignKeys = []) : (fetchColumns t.tableName [fetchKeys v.fkField t.foreignKeys]
      { v with fkField := fetchKeys v.fkField t.foreignKeys } t.columns).2 = t.columns.map (ColumnRow.described t) ↔
        ColumnsSound v t.columns := by
    rw [ht]
    exact fetchColumns_iff ht rfl
  constructor
  · intro hd
    have ht : t.foreignKeys = [] := by
      apply List.eq_nil_iff_forall_not_mem.mpr
      intro key hkey
      -- the map of the keys is empty
      obtain ⟨field, hfield, -⟩ := hd.keys key hkey
      exact absurd hfield List.not_mem_nil
    exact ⟨ht, (hkeys ht).mp hd.fields, (fetchIndexes_iff _ _).mp hd.indexes⟩
  · rintro ⟨ht, hcolumns, hnames⟩
    have hfields := (hkeys ht).mpr hcolumns
    have hpk : pkFieldsOf (fetchColumns t.tableName [fetchKeys v.fkField t.foreignKeys]
        { v with fkField := fetchKeys v.fkField t.foreignKeys } t.columns).2 = _ :=
      (congrArg pkFieldsOf hfields).trans (pkFieldsOf_described t.columns)
    refine ⟨rfl, rfl, hfields, ?_, ?_, hpk, (fetchIndexes_iff _ _).mpr hnames⟩
    · rw [ht]
      simp
    · intro field hfield
      exact absurd hfield List.not_mem_nil

def built : List TableAnswers → Accumulators → List Table
  | [], _ => []
  | t :: ts, acc => (loadTable t acc).1 :: built ts (loadTable t acc).2

theorem built_length (ts : List TableAnswers) (acc : Accumulators) : (built ts acc).length = ts.length := by
  induction ts generalizing acc with
  | nil => rfl
  | cons t ts ih => exact congrArg (· + 1) (ih _)

theorem loadTables_eq (h : ∀ t ∈ ts, t.failure = none) (acc : Accumulators) (tables : Tables) (errorMsg : List Text) :
    loadTables ts acc tables errorMsg =
      (0, tables.gather Prod.fst Prod.snd ((ts.map TableAnswers.tableCatalog).zip (built ts acc)), errorMsg) := by
  induction ts generalizing acc tables with
  | nil => rfl
  | cons t ts ih =>
    obtain ⟨ht, hts⟩ := List.forall_mem_cons.mp h
    rw [loadTables, ht]
    exact ih hts _ _

theorem turns_loadTable (h : t.Sound v) (hne : ts ≠ [])
    (hturns : ∀ acc ∈ turns ts (loadTable t (between v [])).2, acc = between acc.locals []) : t.indexNames = [] := by
  obtain ⟨next, rest, rfl⟩ := List.exists_cons_of_ne_nil hne
  have hnext := hturns _ (List.mem_cons_self ..)
  rw [loadTable_after h] at hnext
  exact List.map_eq_nil_iff.mp (congrArg Accumulators.indexes hnext)

theorem tablesSound_iff : TablesSound v ts ↔ List.Forall₂ TableAnswers.Describes ts (built ts (between v [])) ∧
    ∀ acc ∈ turns ts (between v []), acc = between acc.locals [] := by
  induction ts generalizing v with
  | nil => exact iff_of_true trivial ⟨.nil, List.forall_mem_nil _⟩
  | cons t ts ih =>
    rw [TablesSound, built, turns, List.forall₂_cons, List.forall_mem_cons, describes_iff]
    have hstep (hsound : t.Sound v) (hnames : t.indexNames = []) :
        (loadTable t (between v [])).2 = between (t.after v) [] := by
      rw [loadTable_after hsound, hnames]
      rfl
    constructor
    · rintro ⟨hsound, hnames, hsounds⟩
      cases ts with
      | nil => exact ⟨⟨hsound, .nil⟩, rfl, List.forall_mem_nil _⟩
      | cons next rest =>
        rw [hstep hsound (hnames (List.cons_ne_nil _ _))]
        obtain ⟨hdescribes, hturns⟩ := ih.mp hsounds
        exact ⟨⟨hsound, hdescribes⟩, rfl, hturns⟩
    · rintro ⟨⟨hsound, hdescribes⟩, -, hturns⟩
      refine ⟨hsound, fun hne => turns_loadTable hsound hne hturns, ?_⟩
      cases ts with
      | nil => trivial
      | cons next rest =>
        rw [hstep hsound (turns_loadTable hsound (List.cons_ne_nil _ _) hturns)] at hdescribes hturns
        exact ih.mpr ⟨hdescribes, hturns⟩

theorem loadsTables_iff_built (h : ∀ t ∈ ts, t.failure = none) (tables : Tables) (errorMsg : List Text) :
    LoadsTables v ts tables errorMsg ↔ List.Forall₂ TableAnswers.Describes ts (built ts (between v [])) ∧
      ∀ acc ∈ turns ts (between v []), acc = between acc.locals [] := by
  have hrun : getTableListFromDb v none ts tables errorMsg = _ := loadTables_eq h (between v []) tables errorMsg
  constructor
  · rintro ⟨⟨others, hothers, heq⟩, hturns⟩
    rw [hrun] at heq
    have hlength := hothers.length_eq
    have hzips := OrderedMap.gather_injective ?_ (Prod.mk.inj (Prod.mk.inj heq).2).1
    · have hsame : built ts (between v []) = others := by
        have hsnd := congrArg (List.map Prod.snd) hzips
        rwa [List.map_snd_zip (by simp [built_length]), List.map_snd_zip (by simp [hlength])] at hsnd
      exact ⟨hsame ▸ hothers, hturns⟩
    · rw [List.map_fst_zip (by simp [built_length]), List.map_fst_zip (by simp [hlength])]
  · rintro ⟨hdescribes, hturns⟩
    exact ⟨⟨_, hdescribes, hrun⟩, hturns⟩

end Tables

section Shop

def fitting (value : Text) : Cell := ⟨value, value⟩

def shopTable (name : Text) (columns : List ColumnRow) (indexNames : List Cell) : TableAnswers where
  tableCatalog := "def".toList
  tableSchema := "shop".toList
  tableName := name
  tableId := 0
  foreignKeys := []
  columns := columns
  indexNames := indexNames
  indexLength := 64
  failure := none

def integerColumn (name : Text) : ColumnRow where
  columnName := fitting name
  dataType := fitting "int".toList
  characterMaximumLength := none
  characterOctetLength := none
  numericPrecision := some 10
  numericScale := some 0
  columnDefault := none
  isNullable := some (fitting "NO".toList)
  extra := fitting []
  pkFlag := true

def clients (indexNames : List Cell) : TableAnswers :=
  shopTable "clients".toList [integerColumn "id".toList] indexNames

def orders (indexNames : List Cell) : TableAnswers :=
  shopTable "orders".toList [integerColumn "number".toList] indexNames

def zeros : Locals := ⟨[], 0, 0, 0⟩

theorem integerColumn_sound {name : Text} (h : (integerColumn name).truncated = false)
    (hname : (fitting name).shown 64 = name) (hne : name ≠ []) (v : Locals) (hv : v.fkField = []) :
    (integerColumn name).Sound v where
  whole := h
  name := hname
  type := by
    show (fitting "int".toList).shown 64 = (fitting "int".toList).value
    decide
  default := by simp [integerColumn]
  nullable := by
    intro c hc
    obtain rfl : fitting "NO".toList = c := by simpa [integerColumn] using hc
    decide
  extra := by
    show (fitting []).shown 30 = _ ↔ (fitting []).value = _
    decide
  length := fun h => absurd h (by simp [integerColumn])
  precision := fun _ h => absurd h (by simp [integerColumn])
  scale := fun _ h => absurd h (by simp [integerColumn])
  foreignKey := by
    rw [hv]
    exact hne

end Shop

end DbHandler.MySQL
