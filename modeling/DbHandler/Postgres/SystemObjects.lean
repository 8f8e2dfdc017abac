import DbHandler.SystemObjects.Calls

namespace DbHandler.Postgres

open Foundation.Journal SystemObjects

namespace SystemObjects

structure Version where
  major : ℕ
  minor : ℕ
  deriving DecidableEq, Repr

/-- The test of the version; 10.0 and later do not pass it. -/
def Version.indexIfNotExists (v : Version) : Bool := v.major ≥ 9 && v.minor ≥ 5

def layout : Layout := ⟨Layout.char, true, Layout.integer, true, ", ".toList⟩

def findIndex (i : SystemIndex) : Text :=
  "SELECT 1 FROM pg_class c, pg_namespace n WHERE n.oid = c.relnamespace AND c.relname = '".toList ++ i.name ++
    "' AND n.nspname = 'public'".toList ++ if i = .abcattbl_tnam_ownr then [';'] else []

def createIndex (v : Version) (i : SystemIndex) : Text :=
  (if v.indexIfNotExists then "CREATE INDEX IF NOT EXISTS ".toList
    else if i = .abcattbl_tnam_ownr then "CREATE INDEX  ".toList else "CREATE INDEX ".toList) ++
    i.definition SystemIndex.quoted ++ [';']

def text (v : Version) : Call → Text
  | .start => "START TRANSACTION".toList
  | .create (.table t) => "CREATE TABLE IF NOT EXISTS ".toList ++ t.name ++ t.body layout ++ [';']
  | .create (.index i) => createIndex v i
  | .find i => findIndex i
  | .commit => "COMMIT".toList
  | .rollback => "ROLLBACK".toList
  | _ => []

def rollbackError : Text := "Error during ROLLBACK: ".toList

def connectionProblem : Text := "Problem during connection. Please fix the problem and restart the application".toList

variable (a : Assignment) (v : Version)

/-- A statement that fails aborts the transaction it is in. -/
def exec (c : Call) (s : Connection) : Bool × Connection :=
  let (done, s) := s.call a (text v c) c
  (done, if done then s else { s with aborted := s.aborted || (replay .idle s.journal).active })

def createTables : List SystemTable → Connection → Bool × Connection
  | [], s => (true, s)
  | t :: ts, s =>
    let (done, s) := exec a v (.create (.table t)) s
    if done then createTables ts s else (false, s)

def createIndexesOnPostgreConnection : List SystemIndex → Connection → ℕ × Connection
  | [], s => (0, s)
  | i :: is, s =>
    let (found, s) := exec a v (.find i) s
    if found then
      if a.existed (.index i) then createIndexesOnPostgreConnection is s
      else
        let (done, s) := exec a v (.create (.index i)) s
        if done then createIndexesOnPostgreConnection is s else (1, s.fail s.error)
    else (1, s.fail s.error)

/-- Only the last statement has a branch for its failure. -/
def createObjects (s : Connection) : ℕ × Connection :=
  let (done, s) := createTables a v SystemTable.all s
  if done then
    if v.indexIfNotExists then
      let (done, s) := exec a v (.create (.index .abcattbl_tnam_ownr)) s
      if done then
        let (done, s) := exec a v (.create (.index .abcatcol_tnam_ownr_cnam)) s
        (if done then 0 else 1, s)
      else (0, s)
    else createIndexesOnPostgreConnection a v [.abcattbl_tnam_ownr, .abcatcol_tnam_ownr_cnam] s
  else (0, s)

/-- `Disconnect` closes the connection, and with it ends what transaction is still open. -/
def disconnect (s : Connection) : Connection := { s with journal := s.journal ++ [.rollback] }

def finish (result : ℕ) (s : Connection) : ℕ × Connection :=
  if result = 0 then
    let (done, s) := exec a v .commit s
    if done then
      let (loaded, s) := exec a v .tableList s
      if loaded then (0, s) else (1, disconnect ((s.fail s.error).fail connectionProblem))
    else
      let (_, s) := exec a v .rollback (s.fail s.error)
      (1, disconnect s)
  else
    let (done, s) := exec a v .rollback s
    (result, disconnect (if done then s else s.fail (rollbackError ++ s.error)))

def createSystemObjectsAndGetDatabaseInfo (errorMsg : List Text) : ℕ × Connection :=
  let (started, s) := exec a v .start (Connection.opened errorMsg)
  let (result, s) := if started then createObjects a v s else (1, s.fail s.error)
  finish a v result s

end SystemObjects

end DbHandler.Postgres
