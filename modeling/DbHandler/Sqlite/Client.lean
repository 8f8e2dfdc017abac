import DbHandler.Client
import DbHandler.Foundation.Encoding

namespace DbHandler.Sqlite

open Foundation.Journal Foundation.Encoding
open Foundation.Encoding (Bytes)

/-- What is prepared; the names that are written into the text are arguments. -/
inductive Query
  | indexList (table : Bytes)
  | command (text : Text)
  | tableSql (tableName : Text)
  | updateSchema
  | fieldPropertiesExist
  | fieldProperties
  | commandCut (text : Text)
  | tablePropertiesExist
  | tableProperties
  deriving DecidableEq, Repr

def quotation : Char := Char.ofNat 34

def apostrophe : Char := Char.ofNat 39

/-- `%w` doubles the quotation marks; the length of a cut text was given in characters. -/
def Query.text : Query → Bytes
  | .indexList table => utf8 ("PRAGMA index_list( ".toList ++ [quotation]) ++
      table.flatMap (fun b => if b = 34 then [34, 34] else [b]) ++ utf8 (quotation :: " );".toList)
  | .command text => utf8 text
  | .tableSql tableName => cut ("SELECT sql FROM sqlite_master WHERE tbl_name = ".toList ++ apostrophe :: tableName ++
      apostrophe :: " AND type = ".toList ++ apostrophe :: "table".toList ++ [apostrophe])
  | .updateSchema => utf8 ("UPDATE sqlite_master SET sql = ? WHERE type = ".toList ++ apostrophe :: "table".toList ++
      apostrophe :: " AND name = ?;".toList)
  | .fieldPropertiesExist => utf8 ("SELECT 1 FROM \"sys.abcatcol\" WHERE \"abc_tnam\" = ? AND ".toList ++
      "\"abc_ownr\" = ? AND \"abc_cnam\" = ?;".toList)
  | .fieldProperties => utf8 ("SELECT * FROM \"sys.abcatcol\" WHERE \"abc_tnam\" = ? AND ".toList ++
      "\"abc_ownr\" = ? AND \"abc_cnam\" = ?;".toList)
  | .commandCut text => cut text
  | .tablePropertiesExist =>
    utf8 "SELECT 1 FROM \"sys.abcattbl\" WHERE \"abt_tnam\" = ? AND \"abt_ownr\" = ?;".toList
  | .tableProperties =>
    utf8 "SELECT * FROM \"sys.abcattbl\" WHERE \"abt_tnam\" = ? AND \"abt_ownr\" = ?;".toList

/-- A column of a row; a real is kept as the text that `std::to_wstring` has for it. -/
inductive Value
  | null
  | integer (n : ℤ)
  | real (printed : Text)
  | text (t : Text)
  | blob (bytes : Bytes)
  deriving DecidableEq, Repr

/-- `sqlite3_column_text`; the bytes of a blob are taken as characters. -/
def Value.columnText : Value → Option Text
  | .null => none
  | .integer n => some (digits n)
  | .real printed => some printed
  | .text t => some t
  | .blob bytes => some (bytes.map fun b => Char.ofNat b.toNat)

def Value.columnInt : Value → ℤ
  | .integer n => n
  | .text t => leadingInt t
  | .real printed => leadingInt printed
  | _ => 0

def column (row : List Value) (i : ℕ) : Value := row.getD i .null

/-- The rows that `sqlite3_step` gives, and how it ends: `none` is `SQLITE_DONE`. -/
structure Cursor where
  rows : List (List Value)
  last : Option Text

/-- The library's answers; an error is the text that `GetErrorMessage` has for its code. -/
structure Client (δ : Type) where
  exec : δ → Statement → Option Text × δ
  prepare : δ → Query → Option Text × δ
  bindText : δ → Query → ℕ → Text → Option Text × δ
  step : δ → Query → List Text → Cursor × δ

/-- The connection: `journal` is what the database has accepted. -/
structure Session (δ : Type) where
  server : δ
  journal : List (Entry Text)
  errorMsg : List Text

namespace Session

variable {δ : Type}

def active (s : Session δ) : Bool := (replay .idle s.journal).active

def fail (err : Text) (s : Session δ) : Session δ := { s with errorMsg := s.errorMsg ++ [err] }

def nestedTransaction : Text := "cannot start a transaction within a transaction".toList

def report (answer : Option Text × δ) (entries : List (Entry Text)) (s : Session δ) : Bool × Session δ :=
  match answer.1 with
  | none => (true, { s with server := answer.2, journal := s.journal ++ entries })
  | some err => (false, { s with server := answer.2, errorMsg := s.errorMsg ++ [err] })

/-- `sqlite3_exec`; a transaction is not started within another. -/
def exec (c : Client δ) (statement : Statement) (s : Session δ) : Bool × Session δ :=
  if statement.entry = .start ∧ s.active then (false, s.fail nestedTransaction)
  else s.report (c.exec s.server statement) [statement.entry]

def prepare (c : Client δ) (query : Query) (s : Session δ) : Bool × Session δ :=
  s.report (c.prepare s.server query) []

def bindText (c : Client δ) (query : Query) (position : ℕ) (value : Text) (s : Session δ) : Bool × Session δ :=
  s.report (c.bindText s.server query position value) []

def step (c : Client δ) (query : Query) (values : List Text) (s : Session δ) : Cursor × Session δ :=
  let answer := c.step s.server query values
  (answer.1, { s with server := answer.2 })

def perform (text : Text) (s : Session δ) : Session δ := { s with journal := s.journal ++ [.work text] }

/-- The step of a statement without rows: a row is an error as well, for which `GetErrorMessage` has no text. -/
def run (c : Client δ) (query : Query) (values : List Text) (text : Text) (s : Session δ) : Bool × Session δ :=
  let (cursor, s) := s.step c query values
  match cursor.rows, cursor.last with
  | [], none => (true, s.perform text)
  | [], some err => (false, s.fail err)
  | _ :: _, _ => (false, s.fail [])

end Session

end DbHandler.Sqlite
