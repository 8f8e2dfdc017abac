import DbHandler.Sqlite.Client
import DbHandler.TableData.Retrieval

namespace DbHandler.Sqlite

open TableData

structure TableData (columns : ℕ) where
  cursor : Cursor
  fieldsInRecordSet : ℕ
  errorMsg : List Text
  fields_eq : fieldsInRecordSet = 0 ∨ fieldsInRecordSet = columns

def nul : Char := Char.ofNat 0

/-- The cases of the switch over `sqlite3_column_type`; there is none for `SQLITE_NULL`. -/
def columnEntries : Value → List Entry
  | .null => []
  | .integer n => [.wide (digits n)]
  | .real printed => [.wide printed]
  | .text t => [.wide (t.takeWhile (· ≠ nul))]
  | .blob bytes => [.blob bytes]

/-- The columns are counted at the first call. -/
def TableData.counted {columns : ℕ} (s : TableData columns) : TableData columns :=
  if s.fieldsInRecordSet = 0 then { s with fieldsInRecordSet := columns, fields_eq := .inr rfl } else s

def editTableData {columns : ℕ} (row : List Entry) (s : TableData columns) : ℕ × List Entry × TableData columns :=
  let s := s.counted
  match s.cursor.rows, s.cursor.last with
  | values :: rest, last =>
    (0, row ++ (List.range s.fieldsInRecordSet).flatMap fun i => columnEntries (column values i),
      { s with cursor := ⟨rest, last⟩ })
  | [], none => (noMoreRows, row, s)
  | [], some err => (1, row, { s with errorMsg := s.errorMsg ++ [err] })

end DbHandler.Sqlite
