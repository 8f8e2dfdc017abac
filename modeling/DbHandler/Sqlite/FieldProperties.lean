import DbHandler.FieldProperties.Commands
import DbHandler.Sqlite.Client

namespace DbHandler.Sqlite

open FieldCommands

variable {δ : Type}

def bindAll (c : Client δ) (query : Query) : ℕ → List Text → Session δ → Bool × Session δ
  | _, [], s => (true, s)
  | position, value :: values, s =>
    let (bound, s) := s.bindText c query position value
    if bound then bindAll c query (position + 1) values s else (false, s)

def keyValues (key : ColumnKey) : List Text := [key.tableName, key.ownerName, key.fieldName]

/-- An error of the step is not recorded, and the statement is not finalized. -/
def isFieldPropertiesExist (c : Client δ) (key : ColumnKey) (s : Session δ) : Bool × Session δ :=
  let (prepared, s) := s.prepare c .fieldPropertiesExist
  let (bound, s) := if prepared then bindAll c .fieldPropertiesExist 1 (keyValues key) s else (false, s)
  if bound then
    let (cursor, s) := s.step c .fieldPropertiesExist (keyValues key)
    (!cursor.rows.isEmpty, s)
  else (false, s)

def setFieldProperties (c : Client δ) (key : ColumnKey) (props : FieldProperties) (isLogOnly : Bool) (command : Text)
    (s : Session δ) : ℕ × Text × Session δ :=
  let (begun, s) := s.exec c .begin
  if begun then
    let (exist, s) := isFieldPropertiesExist c key s
    let command := fieldCommand .quoted (assignments .quoted props) exist key props
    let (done, s) := if isLogOnly then (true, s) else s.exec c (.command command)
    let (ended, s) := s.exec c (if done then .commit else .rollback)
    (if done && ended then 0 else 1, command, s)
  else (1, command, s)

/-- A NULL leaves the property, and the position that belongs to it, as it is. -/
def readFieldProperties (row : List Value) (p : FieldProperties) : FieldProperties :=
  let p := match (column row 5).columnText with
    | some label => { p with label := label, labelPosition := (column row 6).columnInt }
    | none => p
  let p := match (column row 7).columnText with
    | some heading => { p with heading := heading, headingPosition := (column row 8).columnInt }
    | none => p
  match (column row 17).columnText with
  | some comment => { p with comment := comment }
  | none => p

def getFieldProperties (c : Client δ) (key : ColumnKey) (p : FieldProperties) (s : Session δ) :
    ℕ × FieldProperties × Session δ :=
  let (prepared, s) := s.prepare c .fieldProperties
  let (bound, s) := if prepared then bindAll c .fieldProperties 1 (keyValues key) s else (false, s)
  if bound then
    let (cursor, s) := s.step c .fieldProperties (keyValues key)
    match cursor.rows, cursor.last with
    | row :: _, _ => (0, readFieldProperties row p, s)
    | [], none => (0, p, s)
    | [], some err => (1, p, s.fail err)
  else (1, p, s)

end DbHandler.Sqlite
