import DbHandler.FieldProperties.Commands
import DbHandler.MySQL.Client

namespace DbHandler.MySQL

open FieldCommands Foundation.Encoding

variable {δ : Type}

def keyBytes (tableName : Text) (key : ColumnKey) : List Bytes := [utf8 tableName, utf8 key.ownerName, utf8 key.fieldName]

def executeQuery (c : Client δ) (query : Query) (values : List Bytes) (s : Session δ) : Bool × Session δ :=
  let (prepared, s) := s.report (c.stmtPrepare s.server query) []
  let (bound, s) := if prepared then s.report (c.bindParam s.server query values) [] else (false, s)
  if bound then s.report (c.execute s.server query values) [] else (false, s)

/-- `mysql_stmt_affected_rows` of a query whose result is not stored is -1, which counts as a row. -/
def isFieldPropertiesExist (c : Client δ) (key : ColumnKey) (s : Session δ) : Bool × Session δ :=
  let (initialised, s) := s.report (c.stmtInit s.server) []
  if initialised then executeQuery c .fieldPropertiesExist (keyBytes key.tableName key) s else (false, s)

def setFieldProperties (c : Client δ) (key : ColumnKey) (props : FieldProperties) (isLogOnly : Bool) (s : Session δ) :
    ℕ × Text × Session δ :=
  let (exist, s) := isFieldPropertiesExist c key s
  let command := fieldCommand .plain (assignments .plain props) exist key props
  if isLogOnly then (0, command, s)
  else
    let (done, s) := s.report (c.query s.server (.command command)) [.work command]
    (if done then 0 else 1, command, s)

/-- `mysql_store_result` is for queries that are not prepared; were there a result, the comment would be
bound to the eighteenth of seventeen places. -/
def getFieldProperties (c : Client δ) (schemaName : Text) (key : ColumnKey) (p : FieldProperties) (s : Session δ) :
    Option (ℕ × FieldProperties × Session δ) :=
  let (initialised, s) := s.report (c.stmtInit s.server) []
  if initialised then
    let (executed, s) := executeQuery c .fieldProperties (keyBytes (schemaName ++ '.' :: key.tableName) key) s
    let (stored, s) := if executed then s.report (c.storeResult s.server) [] else (false, s)
    if stored then none
    else
      let (_, s) := s.report (c.stmtClose s.server) []
      some (1, p, s)
  else some (1, p, s)

end DbHandler.MySQL
