import DbHandler.MySQL.FieldProperties
import DbHandler.TableProperties.Statements

namespace DbHandler.MySQL

open Foundation.Encoding

variable {δ : Type}

/-- The two buffers that are bound hold whatever was there. No row is ever found: `mysql_stmt_num_rows` of a result
that has not been stored is 0. -/
def isTablePropertiesExist (c : Client δ) (buffers : List Bytes) (s : Session δ) : Bool × Session δ :=
  let (initialised, s) := s.report (c.stmtInit s.server) []
  if initialised then
    let (executed, s) := executeQuery c .tablePropertiesExist buffers s
    let (_, s) := if executed then s.report (c.storeResult s.server) [] else (false, s)
    let (_, s) := s.report (c.stmtClose s.server) []
    (false, s)
  else (false, s)

def send (c : Client δ) (command : Text) (s : Session δ) : Bool × Session δ :=
  s.report (c.query s.server (.command command)) [.work command]

/-- At the end the command is sent, in place of COMMIT or ROLLBACK. -/
def setTableProperties (c : Client δ) (connectedUser : Text) (buffers : List Bytes) (t : DatabaseTable) (p : TableProperties)
    (isLog : Bool) (command : Text) (s : Session δ) : ℕ × Text × Session δ :=
  let (begun, s) := s.report (c.query s.server .beginTransaction) [.start]
  if begun then
    let (exist, s) := isTablePropertiesExist c buffers s
    let (done, command, s) :=
      if s.errorMsg ≠ [] then (false, command, s)
      else
        let command :=
          if exist then PropertyStatements.MySQL.update connectedUser t p else PropertyStatements.MySQL.insert connectedUser t p
        if isLog then (true, command, s)
        else
          let (sent, s) := send c command s
          (sent, command, s)
    let (ended, s) := send c command s
    (if done && ended then 0 else 1, command, s)
  else (1, command, s)

end DbHandler.MySQL
