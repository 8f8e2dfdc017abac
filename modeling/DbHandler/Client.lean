import DbHandler.Foundation.Journal
import DbHandler.Interface

namespace DbHandler

open Foundation.Journal

inductive Backend
  | sqlite
  | postgres
  | mySQL
  | odbc
  deriving DecidableEq, Repr

/-- A text that a driver sends, with what it does to the transaction when it is accepted. -/
structure Statement where
  text : Text
  entry : Entry Text
  deriving DecidableEq, Repr

namespace Statement

def begin : Statement := ⟨"BEGIN".toList, .start⟩

def beginTransaction : Statement := ⟨"BEGIN TRANSACTION".toList, .start⟩

def startTransaction : Statement := ⟨"START TRANSACTION".toList, .start⟩

def commit : Statement := ⟨"COMMIT".toList, .commit⟩

def rollback : Statement := ⟨"ROLLBACK".toList, .rollback⟩

def command (text : Text) : Statement := ⟨text, .work text⟩

@[simp] theorem begin_entry : begin.entry = .start := rfl

@[simp] theorem beginTransaction_entry : beginTransaction.entry = .start := rfl

@[simp] theorem startTransaction_entry : startTransaction.entry = .start := rfl

@[simp] theorem commit_entry : commit.entry = .commit := rfl

@[simp] theorem rollback_entry : rollback.entry = .rollback := rfl

@[simp] theorem command_entry (text : Text) : (command text).entry = .work text := rfl

end Statement

def digits (n : ℤ) : Text := (toString n).toList

def leadingInt : Text → ℤ
  | '-' :: t => -((t.takeWhile Char.isDigit).foldl (fun n c => 10 * n + (c.toNat - 48)) 0 : ℕ)
  | t => ((t.takeWhile Char.isDigit).foldl (fun n c => 10 * n + (c.toNat - 48)) 0 : ℕ)

def indexAlreadyExist : Text := "Index already exist.".toList

def executingQuery : Text := "Error executing query: ".toList

def indexAlreadyExists (indexName : Text) : Text := "Index ".toList ++ indexName ++ " already exists.".toList

end DbHandler
