import DbHandler.FieldProperties.Commands
import DbHandler.Postgres.Client

namespace DbHandler.Postgres

open FieldCommands Foundation.Encoding

variable {δ : Type}

/-- The number of rows is not looked at. -/
def isFieldPropertiesExist (c : Client δ) (key : ColumnKey) (s : Session δ) : Bool × Session δ :=
  let (status, s) := s.execParams c .fieldPropertiesExist [utf8 key.tableName, utf8 key.ownerName, utf8 key.fieldName]
  if status.isOk then (true, s) else (false, s.fail status.message)

/-- No status is both `PGRES_COMMAND_OK` and `PGRES_TUPLES_OK`. -/
def setFieldProperties (c : Client δ) (key : ColumnKey) (props : FieldProperties) (isLogOnly : Bool) (s : Session δ) :
    ℕ × Text × Session δ :=
  let (exist, s) := isFieldPropertiesExist c key s
  let command := fieldCommand .plain (assignments .plain props) exist key props
  if isLogOnly then (0, command, s)
  else
    let (status, s) := s.exec c (.command command)
    if status ≠ .commandOk ∨ !status.isTuples then (1, command, s.fail status.message) else (0, command, s)

/-- Each property is read one column to the right of its own. -/
def readFieldProperties (row : List Text) (_ : FieldProperties) : FieldProperties where
  comment := row.getD 18 []
  heading := row.getD 8 []
  headingPosition := leadingInt (row.getD 9 [])
  label := row.getD 6 []
  labelPosition := leadingInt (row.getD 7 [])

def getFieldProperties (c : Client δ) (schemaName : Text) (key : ColumnKey) (p : FieldProperties) (s : Session δ) :
    ℕ × FieldProperties × Session δ :=
  let tname := schemaName ++ '.' :: key.tableName
  let (status, s) := s.execParams c .fieldProperties [utf8 tname, utf8 key.ownerName, utf8 key.fieldName]
  match status with
  | .failed err => (1, p, s.fail (executingQuery ++ err))
  | .tuplesOk rows => (0, rows.foldl (fun p row => readFieldProperties row p) p, s)
  | .commandOk => (0, p, s)

end DbHandler.Postgres
