import DbHandler.Client
import DbHandler.Foundation.Encoding

namespace DbHandler.Postgres

open Foundation.Journal Foundation.Encoding

/-- `PQresultStatus`: `PGRES_COMMAND_OK`, `PGRES_TUPLES_OK` with the rows, and everything else with its message. -/
inductive Status
  | commandOk
  | tuplesOk (rows : List (List Text))
  | failed (err : Text)
  deriving DecidableEq, Repr

def Status.isOk : Status → Bool
  | .commandOk => true
  | .tuplesOk _ => true
  | .failed _ => false

def Status.isTuples : Status → Bool
  | .tuplesOk _ => true
  | _ => false

inductive Query
  | indexExists
  | fieldPropertiesExist
  | fieldProperties
  | tablePropertiesExist
  | tableProperties
  deriving DecidableEq, Repr

def Query.text : Query → Text
  | .indexExists => "SELECT 1 FROM pg_indexes WHERE schemaname = $1 AND tablename = $2 AND indexname = $3;".toList
  | .fieldPropertiesExist => "SELECT 1 FROM abcatcol WHERE abc_tnam = $1 AND abc_ownr = $2 AND abc_cnam = $3;".toList
  | .fieldProperties => "SELECT * FROM \"abcatcol\" WHERE \"abc_tnam\" = $1 AND \"abc_ownr\" = $2 AND \"abc_cnam\" = $3;".toList
  | .tablePropertiesExist => "SELECT 1 FROM abcattbl WHERE abt_tnam = $1 AND abt_ownr = $2;".toList
  | .tableProperties => "SELECT rtrim(abt_tnam), abt_tid, rtrim(abt_ownr), abd_fhgt, abd_fwgt, abd_fitl, abd_funl, abd_fstr, ".toList ++
      "abd_fchr, abd_fptc, rtrim(abd_ffce), abh_fhgt, abh_fwgt, abh_fitl, abh_funl, abh_fstr, abh_fchr, abh_fptc, ".toList ++
      "rtrim(abh_ffce), abl_fhgt, abl_fwgt, abl_fitl, abl_funl, abl_fstr, abl_fchr, abl_fptc, rtrim(abl_ffce), ".toList ++
      "rtrim(abt_cmnt) FROM abcattbl WHERE abt_tnam = $1 AND abt_ownr = $2;".toList

structure Client (δ : Type) where
  exec : δ → Statement → Status × δ
  execParams : δ → Query → List Bytes → Status × δ

structure Session (δ : Type) where
  server : δ
  journal : List (Entry Text)
  errorMsg : List Text

namespace Session

variable {δ : Type}

def active (s : Session δ) : Bool := (replay .idle s.journal).active

def fail (err : Text) (s : Session δ) : Session δ := { s with errorMsg := s.errorMsg ++ [err] }

def exec (c : Client δ) (statement : Statement) (s : Session δ) : Status × Session δ :=
  let answer := c.exec s.server statement
  (answer.1, { s with
    server := answer.2, journal := if answer.1.isOk then s.journal ++ [statement.entry] else s.journal })

def execParams (c : Client δ) (query : Query) (values : List Bytes) (s : Session δ) : Status × Session δ :=
  let answer := c.execParams s.server query values
  (answer.1, { s with server := answer.2 })

end Session

/-- `PQerrorMessage` after a call with that status. -/
def Status.message : Status → Text
  | .failed err => err
  | _ => []

end DbHandler.Postgres
