import DbHandler.MySQL.Client

namespace DbHandler.MySQL

open Foundation.Journal Foundation.Encoding

variable {δ : Type}

/-- Where the statement is not prepared, pointers that were never set are deleted. -/
def isIndexExists (c : Client δ) (indexName schemaName tableName : Text) (s : Session δ) : Option (Bool × Session δ) :=
  let values := [cut schemaName, cut tableName, cut indexName]
  let (initialised, s) := s.report (c.stmtInit s.server) []
  if initialised then
    let (prepared, s) := s.report (c.stmtPrepare s.server .indexExists) []
    if prepared then
      let (bound, s) := s.report (c.bindParam s.server .indexExists values) []
      let (executed, s) := if bound then s.report (c.execute s.server .indexExists values) [] else (false, s)
      let (found, s) :=
        if executed then
          let answer := c.fetch s.server .indexExists values
          (answer.1, { s with server := answer.2 })
        else (false, s)
      let (_, s) := s.report (c.stmtClose s.server) []
      some (found, s)
    else none
  else none

/-- There is no transaction around the command, and errors of the test do not stop it. -/
def createIndex (c : Client δ) (command indexName schemaName tableName : Text) (s : Session δ) : Option (ℕ × Session δ) :=
  (isIndexExists c indexName schemaName tableName s).map fun r =>
    let (found, s) := r
    if found then (1, s.fail (indexAlreadyExists indexName))
    else
      let (done, s) := s.report (c.query s.server (.command command)) [.work command]
      (if done then 0 else 1, s)

end DbHandler.MySQL
