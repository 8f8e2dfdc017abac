import DbHandler.Odbc.Indexes

namespace DbHandler.Odbc

open Foundation

/-- What UPDATE_RULE and DELETE_RULE hold: `SQL_CASCADE` and its four siblings. -/
inductive ReferentialRule
  | cascade
  | restrict
  | setNull
  | noAction
  | setDefault
  deriving DecidableEq, Repr

/-- A row of `SQLForeignKeys`, in the columns that are read after a fetch. -/
structure ForeignKeyRow where
  pkSchema : Option Text
  pkTable : Text
  pkColumn : Text
  fkColumn : Text
  keySequence : ℕ
  updateRule : ReferentialRule
  deleteRule : ReferentialRule
  fkName : Option Text
  deriving DecidableEq, Repr

/-- What a bound buffer of so many bytes holds of a name: two bytes a character, the last ones for the terminator. -/
def bound (bytes : ℕ) (name : Text) : Text := name.take (bytes / 2 - 1)

/-- `SQL_MAX_COLUMN_NAME_LEN + 1`, as for the schema and the table. -/
def maxNameLength : ℕ := 129

def fkNameLength : ℕ := 256

structure ForeignKeyBuffers where
  szPkSchema : Text
  szFkName : Text

def ForeignKeyBuffers.fetch (b : ForeignKeyBuffers) (row : ForeignKeyRow) : ForeignKeyBuffers where
  szPkSchema := row.pkSchema.elim b.szPkSchema (bound maxNameLength)
  szFkName := row.fkName.elim b.szFkName (bound fkNameLength)

def ForeignKeyBuffers.clearName (b : ForeignKeyBuffers) : ForeignKeyBuffers := { b with szFkName := [] }

structure KeyFields where
  origFields : OrderedMap ℕ (List Text) := .empty
  refFields : OrderedMap ℕ (List Text) := .empty

def collectRow (st : ForeignKeyBuffers × KeyFields) (row : ForeignKeyRow) : ForeignKeyBuffers × KeyFields :=
  (st.1.fetch row,
    { origFields := st.2.origFields.push row.keySequence (bound maxNameLength row.pkColumn)
      refFields := st.2.refFields.push row.keySequence (bound maxNameLength row.fkColumn) })

def onUpdate (subtype : Text) (rule : ReferentialRule) : FkOnUpdate :=
  let constraint := match rule with
    | .noAction | .restrict => .noAction
    | .setNull => .setNull
    | .setDefault => .setDefault
    | .cascade => .cascade
  if subtype = sqlServer ∧ rule = .restrict then .noAction else constraint

def onDelete (subtype : Text) (rule : ReferentialRule) : FkOnDelete :=
  let constraint := match rule with
    | .noAction | .restrict => .noAction
    | .setNull => .setNull
    | .setDefault => .setDefault
    | .cascade => .cascade
  if subtype = sqlServer ∧ rule = .restrict then .noAction else constraint

structure LoadedKeys where
  foreignKeys : ForeignKeyMap := .empty
  fkFieldNames : List Text := []

section Load

variable (subtype schemaName tableName : Text)

/-- The field that the second pass makes of a row: `szPkCol` is taken for the original column and `szFkCol` for
the referenced one. -/
def foreignKeyField (fields : KeyFields) (b : ForeignKeyBuffers) (row : ForeignKeyRow) : FKField where
  fkId := row.keySequence
  fkName := b.szFkName
  origSchema := schemaName
  tableName := tableName
  originalField := bound maxNameLength row.pkColumn
  refSchema := b.szPkSchema
  refTable := bound maxNameLength row.pkTable
  referencedField := bound maxNameLength row.fkColumn
  origFields := fields.origFields.under row.keySequence
  refFields := fields.refFields.under row.keySequence
  updateConstraint := onUpdate subtype row.updateRule
  deleteConstraint := onDelete subtype row.deleteRule

def loadRow (fields : KeyFields) (st : ForeignKeyBuffers × LoadedKeys) (row : ForeignKeyRow) :
    ForeignKeyBuffers × LoadedKeys :=
  let b := st.1.fetch row
  (b.clearName,
    { foreignKeys := st.2.foreignKeys.push row.keySequence (foreignKeyField subtype schemaName tableName fields b row)
      fkFieldNames := st.2.fkFieldNames ++ [bound maxNameLength row.pkColumn] })

structure Cursor where
  rows : List ForeignKeyRow
  complete : Bool

/-- The foreign keys of `AddDropTable`: `none` where a step fails. The buffers hold anything at the start, and
`szFkName` is cleared before the first pass. -/
def readForeignKeys (b : ForeignKeyBuffers) (first : Option Cursor) (closed : Bool) (second : Option Cursor) :
    Option LoadedKeys :=
  match first with
  | none => none
  | some cursor =>
    let (b, fields) := cursor.rows.foldl collectRow (b.clearName, {})
    if !cursor.complete then none
    else if cursor.rows.isEmpty then some {}
    else if !closed then none
    else match second with
      | none => none
      | some again =>
        let (_, loaded) := again.rows.foldl (loadRow subtype schemaName tableName fields) (b, {})
        if again.complete then some loaded else none

end Load

/-- `szColumnName` of 256 bytes holds the name of a column that `SQLColumns` reports. -/
def columnNameLength : ℕ := 256

def columnFk (loaded : LoadedKeys) (columnName : Text) : Bool :=
  decide (bound columnNameLength columnName ∈ loaded.fkFieldNames)

end DbHandler.Odbc
