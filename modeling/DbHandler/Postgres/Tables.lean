import Mathlib.Algebra.Group.Nat.Defs
import Mathlib.Algebra.Group.Int.Defs
import Mathlib.Data.Int.Order.Basic
import DbHandler.LoadedTable
import DbHandler.Postgres.TableProperties

namespace DbHandler.Postgres

open Foundation

/-- What the calls of `AddDropTable` return; `fieldProperties` says for which columns `GetFieldProperties` succeeds. -/
structure TableAnswers where
  fkeys : Status
  columns : Status
  fieldProperties : Text → Bool
  tableProperties : Bool
  indexes : Status

/-- An `int` as the key of the map of foreign keys. -/
def unsignedLong (n : ℤ) : ℕ := (n % 2 ^ 64).toNat

def collectRow (lists : KeyLists ℤ) (row : List Text) : KeyLists ℤ where
  origFields := lists.origFields.push (readInt row 0) (readText row 5)
  refFields := lists.refFields.push (readInt row 0) (readText row 8)

def matchFull : Text := "MATCH FULL".toList

def matchPartial : Text := "MATCH PARTIAL".toList

def fkMatch (t : Text) : ℤ := if t = matchFull then 0 else if t = matchPartial then 1 else 2

structure KeyScan where
  update : FkOnUpdate
  delete : FkOnDelete
  keys : KeyMaps

def foreignKeyField (lists : KeyLists ℤ) (row : List Text) (update : FkOnUpdate) (delete : FkOnDelete) : FKField where
  fkId := (readInt row 1).toNat
  fkName := readText row 2
  origSchema := readText row 3
  tableName := readText row 4
  originalField := readText row 5
  refSchema := readText row 6
  refTable := readText row 7
  referencedField := readText row 8
  origFields := lists.origFields.under (readInt row 0)
  refFields := lists.refFields.under (readInt row 0)
  updateConstraint := update
  deleteConstraint := delete
  matchOption := fkMatch (readText row 11)

def loadRow (lists : KeyLists ℤ) (st : KeyScan) (row : List Text) : KeyScan :=
  let update := readOnUpdate st.update (readText row 9)
  let delete := readOnDelete st.delete (readText row 10)
  { update := update
    delete := delete
    keys := {
      foreignKeys := st.keys.foreignKeys.push (unsignedLong (readInt row 0)) (foreignKeyField lists row update delete)
      fkNames := st.keys.fkNames ++ [readText row 5] } }

def readForeignKeys (rows : List (List Text)) : KeyMaps :=
  (rows.foldl (loadRow (rows.foldl collectRow .empty)) ⟨.noAction, .noAction, .empty⟩).keys

def yes : Text := "YES".toList

def serial : Text := "serial".toList

def bigSerial : Text := "bigserial".toList

/-- The size and the scale: the length is taken for missing where its first byte is the digit 0. -/
def fieldSizes (row : List Text) : ℤ × ℤ :=
  if (row.getD 2 []).head? = some '0' then (readInt row 4, readInt row 6) else (readInt row 2, 0)

def tableField (tableName : Text) (fkNames : List Text) (row : List Text) : TableField where
  columnName := readText row 0
  columnType := readText row 1
  fieldSize := (fieldSizes row).1
  decimalSize := (fieldSizes row).2
  fullName := tableName ++ '.' :: readText row 0
  columnDefaultValue := readText row 8
  columnIsNull := readText row 7 = yes
  autoIncrement := readText row 1 = serial ∨ readText row 1 = bigSerial
  columnPK := readText row 9 = yes
  columnFK := readText row 0 ∈ fkNames

/-- `PQntuples` is 0 where there are no rows to return. -/
def Status.rows : Status → List (List Text)
  | .tuplesOk rows => rows
  | _ => []

def loadedTable (schemaName tableName ownerName : Text) (keyRows rows indexRows : List (List Text)) : LoadedTable :=
  let keys := readForeignKeys keyRows
  let fields := rows.map (tableField tableName keys.fkNames)
  let indexes := indexRows.map fun row => readText row 0
  { schemaName := schemaName
    tableName := tableName
    foreignKeys := keys.foreignKeys
    owner := ownerName
    tableFields := fields
    numFields := fields.length
    pkFields := pkFieldsOf fields
    indexes := indexes
    numIndex := indexes.length }

/-- `AddDropTable`, which only adds; a query that returns no rows at all leaves everything as it is. -/
def addDropTable (catalog schemaName tableName ownerName : Text) (a : TableAnswers) (s : Catalogs) : ℕ × Catalogs :=
  match a.fkeys with
  | .failed _ => (1, s)
  | .commandOk => (0, s)
  | .tuplesOk keyRows =>
    match a.columns with
    | .failed _ => (1, s)
    | .commandOk => (0, s)
    | .tuplesOk rows =>
      if (rows.all fun row => a.fieldProperties (readText row 0)) && a.tableProperties && a.indexes.isOk then
        (0, { s with
          tables := s.tables.push catalog (loadedTable schemaName tableName ownerName keyRows rows a.indexes.rows) })
      else (1, s)

structure TableAnswers.Complete (a : TableAnswers) (keyRows rows : List (List Text)) : Prop where
  fkeys : a.fkeys = .tuplesOk keyRows
  columns : a.columns = .tuplesOk rows
  fieldProperties : ∀ row ∈ rows, a.fieldProperties (readText row 0)
  tableProperties : a.tableProperties = true
  indexes : a.indexes.isOk = true

theorem addDropTable_complete {a : TableAnswers} {keyRows rows : List (List Text)} (h : a.Complete keyRows rows)
    (catalog schemaName tableName ownerName : Text) (s : Catalogs) :
    addDropTable catalog schemaName tableName ownerName a s = (0, { s with
      tables := s.tables.push catalog (loadedTable schemaName tableName ownerName keyRows rows a.indexes.rows) }) := by
  have hfields : (rows.all fun row => a.fieldProperties (readText row 0)) = true :=
    List.all_eq_true.mpr h.fieldProperties
  rw [addDropTable, h.fkeys, h.columns]
  simp only [hfields, h.tableProperties, h.indexes, Bool.and_self, if_true]

def knows (s : Catalogs) (tableName : Text) : Bool := tableName ∈ s.tableNames

/-- A row of the names that `NewTableCreation` reads; `more` says that their number has grown. -/
def pollRow (answers : Text → Text → TableAnswers) (more : Bool) (s : Catalogs) (row : List Text) : Catalogs :=
  let schemaName := readText row 0
  let tableName := readText row 1
  if more then
    if knows s tableName then s else (addDropTable [] schemaName tableName [] (answers schemaName tableName) s).2
  else s

/-- `NewTableCreation`, after the versions with which it polls have been told apart. -/
def newTableCreation (numOfTables : ℕ) (counted names : Status) (answers : Text → Text → TableAnswers) (s : Catalogs) :
    ℕ × Catalogs :=
  if !counted.isOk then (1, s)
  else match counted.rows with
    | [row] =>
      let count := readInt row 0
      if count = numOfTables then (0, s)
      else if !names.isOk then (1, s)
      else (0, names.rows.foldl (pollRow answers (count > numOfTables)) s)
    | _ => (0, s)

end DbHandler.Postgres
