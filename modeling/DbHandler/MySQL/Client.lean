import DbHandler.Client
import DbHandler.Foundation.Encoding

namespace DbHandler.MySQL

open Foundation.Journal Foundation.Encoding

inductive Query
  | indexExists
  | systemIndexExists
  | fieldPropertiesExist
  | fieldProperties
  | tablePropertiesExist
  deriving DecidableEq, Repr

def Query.text : Query → Text
  | .indexExists => "SELECT 1 FROM information_schema.statistics WHERE table_schema = ? AND table_name = ? AND index_name = ?;".toList
  | .systemIndexExists => "SELECT 1 FROM information_schema.statistics WHERE table_name = ? AND index_name = ?;".toList
  | .fieldPropertiesExist => "SELECT 1 FROM abcatcol WHERE abc_tnam = ? AND abc_ownr = ? AND abc_cnam = ?;".toList
  | .fieldProperties => "SELECT * FROM abcatcol WHERE abc_tnam = ? AND abc_ownr = ? AND abc_cnam = ?".toList
  | .tablePropertiesExist => "SELECT 1 FROM abcattbl WHERE abt_tnam = ? AND abt_ownr = ?;".toList

/-- The library's answers: `none` is success, otherwise the text of `mysql_error` or `mysql_stmt_error`. -/
structure Client (δ : Type) where
  query : δ → Statement → Option Text × δ
  stmtInit : δ → Option Text × δ
  stmtPrepare : δ → Query → Option Text × δ
  bindParam : δ → Query → List Bytes → Option Text × δ
  execute : δ → Query → List Bytes → Option Text × δ
  /-- Whether `mysql_stmt_fetch` gives anything but `MYSQL_NO_DATA`. -/
  fetch : δ → Query → List Bytes → Bool × δ
  storeResult : δ → Option Text × δ
  stmtClose : δ → Option Text × δ

structure Session (δ : Type) where
  server : δ
  journal : List (Entry Text)
  errorMsg : List Text

namespace Session

variable {δ : Type}

def active (s : Session δ) : Bool := (replay .idle s.journal).active

def fail (err : Text) (s : Session δ) : Session δ := { s with errorMsg := s.errorMsg ++ [err] }

def report (answer : Option Text × δ) (entries : List (Entry Text)) (s : Session δ) : Bool × Session δ :=
  match answer.1 with
  | none => (true, { s with server := answer.2, journal := s.journal ++ entries })
  | some err => (false, { s with server := answer.2, errorMsg := s.errorMsg ++ [err] })

end Session

end DbHandler.MySQL
