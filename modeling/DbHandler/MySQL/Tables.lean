import Mathlib.Data.Int.Order.Basic
import DbHandler.Foundation.Encoding
import DbHandler.LoadedTable

namespace DbHandler.MySQL

open Foundation Foundation.Encoding

/-- A text that is fetched into an array; `full` is what is read where it fills the array, which then
has no NUL of its own. -/
structure Cell where
  value : Text
  full : Text
  deriving DecidableEq, Repr

def Cell.truncated (size : ℕ) (c : Cell) : Bool := size < (utf8 c.value).length

def Cell.shown (size : ℕ) (c : Cell) : Text := if (utf8 c.value).length < size then c.value else c.full

def storedInt (n : ℤ) : ℤ := Int.bmod n (2 ^ 32)

/-- A row of `query3`. -/
structure ForeignKeyRow where
  columnName : Cell
  referencedTableSchema : Cell
  referencedTableName : Cell
  referencedColumnName : Cell
  updateRule : FkOnUpdate
  deleteRule : FkOnDelete
  deriving DecidableEq, Repr

/-- A row of `query2`; `none` is NULL. -/
structure ColumnRow where
  columnName : Cell
  dataType : Cell
  characterMaximumLength : Option ℤ
  characterOctetLength : Option ℤ
  numericPrecision : Option ℤ
  numericScale : Option ℤ
  columnDefault : Option Cell
  isNullable : Option Cell
  extra : Cell
  pkFlag : Bool
  deriving DecidableEq, Repr

/-- What the statements return for a table. The length that the names of the indexes are bound with is
not set, and `failure` is the error of a call that does not succeed. -/
structure TableAnswers where
  tableCatalog : Text
  tableSchema : Text
  tableName : Text
  tableId : ℕ
  foreignKeys : List ForeignKeyRow
  columns : List ColumnRow
  indexNames : List Cell
  indexLength : ℕ
  failure : Option Text
  deriving DecidableEq, Repr

def ForeignKeyRow.truncated (row : ForeignKeyRow) : Bool :=
  [row.columnName, row.referencedTableSchema, row.referencedTableName, row.referencedColumnName].any (Cell.truncated 64)

def ColumnRow.truncated (row : ColumnRow) : Bool :=
  row.columnName.truncated 64 || row.dataType.truncated 64 ||
    [row.characterMaximumLength, row.characterOctetLength, row.numericPrecision, row.numericScale].any
      (fun n => n.any fun n => storedInt n ≠ n) ||
    row.columnDefault.any (Cell.truncated 64) || row.isNullable.any (Cell.truncated 3) || row.extra.truncated 30

/-- The variables that a row may leave as they were, whatever they held before the first one. -/
structure Locals where
  fkField : Text
  charLen : ℤ
  numLen : ℤ
  numPrec : ℤ
  deriving DecidableEq, Repr

def ColumnRow.store (v : Locals) (row : ColumnRow) : Locals := { v with
  charLen := (row.characterMaximumLength.map storedInt).getD v.charLen
  numLen := (row.numericPrecision.map storedInt).getD v.numLen
  numPrec := (row.numericScale.map storedInt).getD v.numPrec }

def yes : Text := "YES".toList

def ColumnRow.field (tableName : Text) (fkNames : List Text) (v : Locals) (row : ColumnRow) : TableField where
  columnName := row.columnName.shown 64
  columnType := row.dataType.shown 64
  fieldSize := if row.characterOctetLength.isSome then v.charLen else v.numLen
  decimalSize := if row.characterOctetLength.isSome then 0 else v.numPrec
  fullName := tableName ++ '.' :: row.columnName.shown 64
  columnDefaultValue := row.columnDefault.elim [] (Cell.shown 64)
  columnIsNull := row.isNullable.any fun c => c.shown 3 = yes
  autoIncrement := row.extra.shown 30 = "autoincrement".toList
  columnPK := row.pkFlag
  columnFK := row.columnName.shown 64 ∈ fkNames

/-- `fkField` after the rows of the foreign keys. A row that is truncated ends the loop: `mysql_stmt_fetch`
does not return 0 for it. -/
def fetchKeys : Text → List ForeignKeyRow → Text
  | fkField, [] => fkField
  | _, row :: rows =>
    if row.truncated then row.columnName.shown 64 else fetchKeys (row.columnName.shown 64) rows

def fetchColumns (tableName : Text) (fkNames : List Text) : Locals → List ColumnRow → Locals × List TableField
  | v, [] => (v, [])
  | v, row :: rows =>
    if row.truncated then (row.store v, [])
    else
      let rest := fetchColumns tableName fkNames (row.store v) rows
      (rest.1, row.field tableName fkNames (row.store v) :: rest.2)

def fetchIndexes (length : ℕ) : List Cell → List Text
  | [] => []
  | name :: names => if name.truncated length then [] else name.shown length :: fetchIndexes length names

structure Table extends DatabaseTable where
  tableFields : List TableField
  pkFields : List Text
  indexes : List Text

structure Accumulators where
  locals : Locals
  fields : List TableField
  fkNames : List Text
  indexes : List Text
  foreignKeys : ForeignKeyMap

/-- A turn of the loop. The keys of a table are fetched and dropped: only the last of their columns
is kept, and nothing enters the map. -/
def loadTable (t : TableAnswers) (acc : Accumulators) : Table × Accumulators :=
  let fkField := fetchKeys acc.locals.fkField t.foreignKeys
  let fkNames := acc.fkNames ++ [fkField]
  let fetched := fetchColumns t.tableName fkNames { acc.locals with fkField := fkField } t.columns
  let fields := acc.fields ++ fetched.2
  let indexes := acc.indexes ++ fetchIndexes t.indexLength t.indexNames
  ({ schemaName := t.tableSchema
     tableName := t.tableName
     foreignKeys := acc.foreignKeys
     objectId := t.tableId
     tableFields := fields
     pkFields := pkFieldsOf fields
     indexes := indexes },
    { locals := fetched.1, fields := [], fkNames := [], indexes := indexes, foreignKeys := .empty })

abbrev Tables := OrderedMap Text (List Table)

def loadTables : List TableAnswers → Accumulators → Tables → List Text → ℕ × Tables × List Text
  | [], _, tables, errorMsg => (0, tables, errorMsg)
  | t :: ts, acc, tables, errorMsg =>
    match t.failure with
    | some err => (1, tables, errorMsg ++ [err])
    | none =>
      let (table, acc) := loadTable t acc
      loadTables ts acc (tables.push t.tableCatalog table) errorMsg

/-- `v` is what the variables hold that are not initialised, and `start` the error of a statement that
cannot be prepared or of the query for the tables. -/
def getTableListFromDb (v : Locals) (start : Option Text) (ts : List TableAnswers) (tables : Tables)
    (errorMsg : List Text) : ℕ × Tables × List Text :=
  match start with
  | some err => (1, tables, errorMsg ++ [err])
  | none => loadTables ts ⟨v, [], [], [], .empty⟩ tables errorMsg

end DbHandler.MySQL
