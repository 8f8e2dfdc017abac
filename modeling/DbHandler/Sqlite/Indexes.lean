import DbHandler.Sqlite.Client

namespace DbHandler.Sqlite

open Foundation.Journal Foundation.Encoding

variable {δ : Type}

/-- `"%w"` reads the name, a `wchar_t` string, as a `char *`; the name of an index is taken from column 2. -/
def isIndexExists (c : Client δ) (indexName tableName : Text) (s : Session δ) : Bool × Session δ :=
  let query := Query.indexList (cString (wide tableName))
  let (prepared, s) := s.prepare c query
  if prepared then
    let (cursor, s) := s.step c query []
    if cursor.rows.any (fun row => (column row 2).columnText = some indexName) then (true, s.fail indexAlreadyExist)
    else match cursor.last with
      | none => (false, s)
      | some err => (false, s.fail err)
  else (false, s)

def createIndex (c : Client δ) (command indexName tableName : Text) (s : Session δ) : ℕ × Session δ :=
  let (begun, s) := s.exec c .beginTransaction
  if begun then
    let (found, s) := isIndexExists c indexName tableName s
    if found then (1, s.fail (indexAlreadyExists indexName))
    else if s.errorMsg ≠ [] then (1, s)
    else
      let (prepared, s) := s.prepare c (.command command)
      let (done, s) := if prepared then s.run c (.command command) [] command else (false, s)
      let (ended, s) := s.exec c (if done then .commit else .rollback)
      (if done && ended then 0 else 1, s)
  else (1, s)

end DbHandler.Sqlite
