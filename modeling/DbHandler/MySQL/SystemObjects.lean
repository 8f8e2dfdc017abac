import DbHandler.MySQL.Client
import DbHandler.SystemObjects.Calls

namespace DbHandler.MySQL

open Foundation.Journal SystemObjects

namespace SystemObjects

def layout : Layout := ⟨Layout.char, false, Layout.integer, true, ", ".toList⟩

def text : Call → Text
  | .start => "START TRANSACTION".toList
  | .create (.table t) => "CREATE TABLE IF NOT EXISTS ".toList ++ t.name ++ t.body layout ++ [';']
  | .create (.index i) => "CREATE INDEX ".toList ++ i.definition id ++ [';']
  | .prepare => Query.systemIndexExists.text
  | .user => "SELECT USER()".toList
  | _ => []

def connectionFailed : Text := "Connection to database failed!".toList

variable (a : Assignment)

def call (c : Call) (s : Connection) : Bool × Connection := s.call a (text c) c

def report (c : Call) (s : Connection) : Bool × Connection :=
  let (done, s) := call a c s
  (done, if done then s else s.fail s.error)

def createTables : List SystemTable → Connection → Bool × Connection
  | [], s => (true, s)
  | t :: ts, s =>
    let (done, s) := call a (.create (.table t)) s
    if done then createTables ts s else (false, s)

/-- A row that cannot be fetched counts as one. -/
def isSystemIndexExists (i : SystemIndex) (s : Connection) : Bool × Connection :=
  let (bound, s) := report a (.bind i) s
  let (executed, s) := if bound then report a (.find i) s else (false, s)
  let (exist, s) :=
    if executed then
      let (fetched, s) := call a (.fetch i) s
      (!fetched || a.existed (.index i), s)
    else (false, s)
  let (_, s) := report a (.freeResult i) s
  let (_, s) := report a (.reset i) s
  (exist, s)

def createFirstIndex (s : Connection) : Bool × Connection :=
  let (res, s) := call a (.create (.table .abcatvld)) s
  if res then
    let (exist, s) := isSystemIndexExists a .abcattbl_tnam_ownr s
    if exist then (true, s) else call a (.create (.index .abcattbl_tnam_ownr)) s
  else (false, s)

/-- Only where the second index is created is there a commit. -/
def createSecondIndex (res : Bool) (s : Connection) : Bool × Connection :=
  let (exist, s) := isSystemIndexExists a .abcatcol_tnam_ownr_cnam s
  if exist then (res, s)
  else
    let (res, s) := call a (.create (.index .abcatcol_tnam_ownr_cnam)) s
    if res then call a .commit s else (false, s.fail s.error)

/-- The second index is looked for, and its outcome taken, whatever has become of the first. -/
def createIndexes (s : Connection) : Bool × Connection :=
  let (res, s) := createFirstIndex a s
  let (res, s) := createSecondIndex a res s
  let (_, s) := report a .close s
  (res, s)

/-- A statement that was not initialised is a null pointer for `mysql_stmt_prepare`. -/
def createObjects (initialised : Bool) (s : Connection) : Option (Bool × Connection) :=
  let (res, s) := createTables a [.abcatcol, .abcatedt, .abcatfmt, .abcattbl] s
  if res then
    if initialised then
      let (prepared, s) := report a .prepare s
      some (if prepared then createIndexes a s else (true, s))
    else none
  else some (false, s)

def getDatabaseInfo (s : Connection) : ℕ × Connection :=
  let (loaded, s) := report a .tableList s
  if loaded then
    let (res, s) := report a .user s
    if res then
      let (stored, s) := report a .storeResult s
      (if stored then 0 else 1, s)
    else (1, s)
  else (1, s)

def finish (res : Bool) (s : Connection) : ℕ × Connection :=
  if !res || s.errorMsg ≠ [] then
    let (_, s) := call a .rollback ((s.fail s.error).fail connectionFailed)
    (1, s)
  else getDatabaseInfo a s

def createSystemObjectsAndGetDatabaseInfo (errorMsg : List Text) : Option (ℕ × Connection) :=
  let (initialised, s) := report a .statementInit (Connection.opened errorMsg)
  let (started, s) := call a .start s
  if started then
    (createObjects a initialised s).map fun r => finish a r.1 r.2
  else
    some (finish a false ((s.fail s.error).fail connectionFailed))

end SystemObjects

end DbHandler.MySQL
