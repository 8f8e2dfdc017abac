import Mathlib.Data.Char
import Mathlib.Data.List.Lex
import DbHandler.Interface

namespace DbHandler

open Foundation

structure TableField where
  columnName : Text
  columnType : Text
  fieldSize : ℤ
  decimalSize : ℤ
  fullName : Text
  columnDefaultValue : Text
  columnIsNull : Bool
  autoIncrement : Bool
  columnPK : Bool
  columnFK : Bool
  deriving DecidableEq, Repr

/-- A table as `AddDropTable` makes it. -/
structure LoadedTable extends DatabaseTable where
  tableFields : List TableField
  numFields : ℕ
  pkFields : List Text
  indexes : List Text
  numIndex : ℕ

/-- `m_tables`, by catalog, and `m_tableNames`. -/
structure Catalogs where
  tables : OrderedMap Text (List LoadedTable)
  tableNames : List Text

/-- The names of the primary key fields, as they are collected in `m_pkFields`. -/
def pkFieldsOf (fields : List TableField) : List Text :=
  (fields.filter TableField.columnPK).map TableField.columnName

structure KeyLists (κ : Type) [LinearOrder κ] where
  origFields : OrderedMap κ (List Text)
  refFields : OrderedMap κ (List Text)

def KeyLists.empty {κ : Type} [LinearOrder κ] : KeyLists κ := ⟨.ofEntries [] .nil, .ofEntries [] .nil⟩

structure KeyMaps where
  foreignKeys : ForeignKeyMap
  fkNames : List Text

def KeyMaps.empty : KeyMaps := ⟨.empty, []⟩

def FkOnUpdate.name : FkOnUpdate → Text
  | .noAction => "NO ACTION".toList
  | .restrict => "RESTRICT".toList
  | .setNull => "SET NULL".toList
  | .setDefault => "SET DEFAULT".toList
  | .cascade => "CASCADE".toList

def FkOnDelete.name : FkOnDelete → Text
  | .noAction => "NO ACTION".toList
  | .restrict => "RESTRICT".toList
  | .setNull => "SET NULL".toList
  | .setDefault => "SET DEFAULT".toList
  | .cascade => "CASCADE".toList

/-- The comparisons with the names of the actions; another text leaves the variable as the row before left it. -/
def readOnUpdate (current : FkOnUpdate) (t : Text) : FkOnUpdate :=
  if t = "NO ACTION".toList then .noAction
  else if t = "RESTRICT".toList then .restrict
  else if t = "SET NULL".toList then .setNull
  else if t = "SET DEFAULT".toList then .setDefault
  else if t = "CASCADE".toList then .cascade
  else current

def readOnDelete (current : FkOnDelete) (t : Text) : FkOnDelete :=
  if t = "NO ACTION".toList then .noAction
  else if t = "RESTRICT".toList then .restrict
  else if t = "SET NULL".toList then .setNull
  else if t = "SET DEFAULT".toList then .setDefault
  else if t = "CASCADE".toList then .cascade
  else current

@[simp] theorem readOnUpdate_name (current action : FkOnUpdate) : readOnUpdate current action.name = action := by
  cases action <;> rfl

@[simp] theorem readOnDelete_name (current action : FkOnDelete) : readOnDelete current action.name = action := by
  cases action <;> rfl

end DbHandler
