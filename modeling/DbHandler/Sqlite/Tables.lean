import DbHandler.LoadedTable

namespace DbHandler.Sqlite

open Foundation

/-- A row of `pragma_foreign_key_list`; `to` is NULL where the key references a primary key without naming it. -/
structure ForeignKeyRow where
  id : ℕ
  seq : ℕ
  table : Text
  fromColumn : Text
  toColumn : Option Text
  onUpdate : Text
  onDelete : Text
  deriving DecidableEq, Repr

structure ColumnRow where
  name : Text
  type : Option Text
  notNull : ℤ
  defaultValue : Option Text
  pk : ℤ
  deriving DecidableEq, Repr

/-- What the calls for a column return: `autoinc` of its metadata, `none` on an error, and whether
`GetFieldProperties` succeeds. -/
structure ColumnAnswer where
  row : ColumnRow
  autoinc : Option Bool
  propertiesRead : Bool

structure Rows (ρ : Type) where
  rows : List ρ
  complete : Bool

structure TableAnswers where
  foreignKeysPrepared : Bool
  foreignKeysBound : Bool
  firstPass : Rows ForeignKeyRow
  secondPass : Rows ForeignKeyRow
  columnsPrepared : Bool
  columnsBound : Bool
  columns : Rows ColumnAnswer
  indexesPrepared : Bool
  indexesBound : Bool
  indexes : Rows Text
  propertiesRead : Bool

/-- A call fails and the function returns 1, or a `std::string` is made from a null pointer. -/
inductive Failure
  | call
  | nullText
  deriving DecidableEq, Repr

def Rows.check {ρ : Type} (rows : Rows ρ) : Except Failure Unit := if rows.complete then .ok () else .error .call

def checked (done : Bool) : Except Failure Unit := if done then .ok () else .error .call

def cText (text : Option Text) : Except Failure Text := text.elim (.error .nullText) .ok

def collectRow (lists : KeyLists ℕ) (row : ForeignKeyRow) : Except Failure (KeyLists ℕ) := do
  let toColumn ← cText row.toColumn
  return { origFields := lists.origFields.push row.id row.fromColumn, refFields := lists.refFields.push row.id toColumn }

structure KeyScan where
  update : FkOnUpdate
  delete : FkOnDelete
  keys : KeyMaps

section Load

variable (tableName : Text)

def foreignKeyField (lists : KeyLists ℕ) (row : ForeignKeyRow) (toColumn : Text) (update : FkOnUpdate)
    (delete : FkOnDelete) : FKField where
  fkId := row.seq
  fkName := []
  origSchema := []
  tableName := tableName
  originalField := row.fromColumn
  refSchema := []
  refTable := row.table
  referencedField := toColumn
  origFields := lists.origFields.under row.id
  refFields := lists.refFields.under row.id
  updateConstraint := update
  deleteConstraint := delete

def loadRow (lists : KeyLists ℕ) (st : KeyScan) (row : ForeignKeyRow) : Except Failure KeyScan := do
  let toColumn ← cText row.toColumn
  let update := readOnUpdate st.update row.onUpdate
  let delete := readOnDelete st.delete row.onDelete
  return {
    update := update
    delete := delete
    keys := {
      foreignKeys := st.keys.foreignKeys.push row.id (foreignKeyField tableName lists row toColumn update delete)
      fkNames := st.keys.fkNames ++ [row.fromColumn] } }

/-- A query that cannot be prepared is passed over. -/
def readForeignKeys (a : TableAnswers) : Except Failure KeyMaps :=
  if a.foreignKeysPrepared then do
    checked a.foreignKeysBound
    let lists ← a.firstPass.rows.foldlM collectRow .empty
    a.firstPass.check
    let scan ← a.secondPass.rows.foldlM (loadRow tableName lists) ⟨.noAction, .noAction, .empty⟩
    a.secondPass.check
    return scan.keys
  else .ok .empty

def tableField (fkNames : List Text) (row : ColumnRow) (autoinc : Bool) : TableField where
  columnName := row.name
  columnType := row.type.getD []
  fieldSize := 0
  decimalSize := 0
  fullName := tableName ++ '.' :: row.name
  columnDefaultValue := row.defaultValue.getD []
  columnIsNull := row.notNull ≠ 0
  autoIncrement := autoinc
  columnPK := row.pk ≥ 1
  columnFK := decide (row.name ∈ fkNames)

/-- Fields are made as long as no error has been recorded, in this call or before. -/
def loadColumn (fkNames : List Text) (errorMsg : List Text) (fields : List TableField) (c : ColumnAnswer) :
    Except Failure (List TableField) :=
  match c.autoinc with
  | none => .error .call
  | some autoinc =>
    if errorMsg.isEmpty then
      if c.propertiesRead then .ok (fields ++ [tableField tableName fkNames c.row autoinc]) else .error .call
    else .ok fields

def readColumns (fkNames : List Text) (errorMsg : List Text) (a : TableAnswers) : Except Failure (List TableField) := do
  checked a.columnsPrepared
  checked a.columnsBound
  let fields ← a.columns.rows.foldlM (loadColumn tableName fkNames errorMsg) []
  a.columns.check
  return fields

def readIndexes (a : TableAnswers) : Except Failure (List Text) :=
  if a.indexesPrepared then do
    checked a.indexesBound
    a.indexes.check
    return a.indexes.rows
  else .ok []

def mainSchema : Text := "main".toList

def loadTable (errorMsg : List Text) (a : TableAnswers) : Except Failure LoadedTable := do
  let keys ← readForeignKeys tableName a
  let fields ← readColumns tableName keys.fkNames errorMsg a
  let indexes ← readIndexes a
  checked a.propertiesRead
  return {
    schemaName := mainSchema
    tableName := tableName
    foreignKeys := keys.foreignKeys
    tableFields := fields
    numFields := fields.length
    pkFields := pkFieldsOf fields
    indexes := indexes
    numIndex := indexes.length }

/-- `AddDropTable` with `tableAdded = true`: the name is pushed whether or not the table was loaded. -/
def addDropTable (catalog : Text) (errorMsg : List Text) (a : TableAnswers) (s : Catalogs) : Option (ℕ × Catalogs) :=
  match loadTable tableName errorMsg a with
  | .ok table => some (0, { tables := s.tables.push catalog table, tableNames := s.tableNames ++ [tableName] })
  | .error .call => some (1, { s with tableNames := s.tableNames ++ [tableName] })
  | .error .nullText => none

end Load

end DbHandler.Sqlite
