import DbHandler.Postgres.Client

namespace DbHandler.Postgres

open Foundation.Journal Foundation.Encoding

variable {δ : Type}

/-- A name goes out as a binary value of four bytes for each character, behind its UTF-8 bytes only zeros. -/
def binaryName (name : Text) : Bytes := (utf8 name ++ List.replicate (4 * name.length) 0).take (4 * name.length)

/-- The rows of the result are not looked at. -/
def isIndexExists (c : Client δ) (indexName schemaName tableName : Text) (s : Session δ) : Bool × Session δ :=
  let (status, s) := s.execParams c .indexExists [binaryName schemaName, binaryName tableName, binaryName indexName]
  match status with
  | .failed err => (false, s.fail (executingQuery ++ err))
  | .tuplesOk _ => (true, s)
  | .commandOk => (false, s)

/-- The second half of both later checks asks for the status of `BEGIN TRANSACTION` once more. -/
def accepted (begun status : Status) : Bool := status = .commandOk || begun.isTuples

def createIndex (c : Client δ) (command indexName schemaName tableName : Text) (s : Session δ) : ℕ × Session δ :=
  let (begun, s) := s.exec c .beginTransaction
  if begun.isOk then
    let (found, s) := isIndexExists c indexName schemaName tableName s
    if found then (1, s.fail (indexAlreadyExists indexName))
    else if s.errorMsg ≠ [] then (1, s)
    else
      let (status, s) := s.exec c (.command command)
      let (result, s) := if accepted begun status then (0, s) else (1, s.fail status.message)
      let (status, s) := s.exec c (if result = 1 then .rollback else .commit)
      if accepted begun status then (result, s) else (1, s.fail status.message)
  else (1, s.fail begun.message)

end DbHandler.Postgres
