import DbHandler.SystemObjects.Objects

namespace DbHandler.SystemObjects

open Foundation.Journal

/-- What a driver calls to create the system objects; a query for an index is bound, executed and fetched
by calls of its own where it is a prepared one. -/
inductive Call
  | statementInit
  | start
  | create (o : SystemObject)
  | prepare
  | bind (i : SystemIndex)
  | find (i : SystemIndex)
  | fetch (i : SystemIndex)
  | freeResult (i : SystemIndex)
  | reset (i : SystemIndex)
  | close
  | commit
  | rollback
  | tableList
  | user
  | storeResult
  deriving DecidableEq, Repr

def Call.isStatement : Call → Bool
  | start | create _ | prepare | bind _ | find _ | fetch _ | commit | rollback | user => true
  | statementInit | freeResult _ | reset _ | close | tableList | storeResult => false

/-- No call is made twice, so that an assignment of outcomes is a function of the call. -/
structure Assignment where
  failure : Call → Option Text
  existed : SystemObject → Bool

def Assignment.ok (a : Assignment) (c : Call) : Bool := (a.failure c).isNone

/-- The connection; `aborted` is set where the server has given up the transaction. -/
structure Connection where
  sent : List Text
  called : List Call
  journal : List (Entry SystemObject)
  aborted : Bool
  error : Text
  errorMsg : List Text

/-- A transaction that has been given up cannot be committed, and `COMMIT` rolls it back. -/
def Call.entries (aborted : Bool) : Call → List (Entry SystemObject)
  | start => [.start]
  | create o => [.work o]
  | commit => [if aborted then .rollback else .commit]
  | rollback => [.rollback]
  | _ => []

namespace Connection

def fail (err : Text) (s : Connection) : Connection := { s with errorMsg := s.errorMsg ++ [err] }

def opened (errorMsg : List Text) : Connection := ⟨[], [], [], false, [], errorMsg⟩

def call (a : Assignment) (text : Text) (c : Call) (s : Connection) : Bool × Connection :=
  let s := { s with sent := s.sent ++ [text], called := s.called ++ [c] }
  match a.failure c with
  | none => (true, { s with journal := s.journal ++ c.entries s.aborted, error := [] })
  | some err => (false, { s with error := err })

section Call

variable (a : Assignment) (text : Text) (c : Call) (s : Connection)

@[simp] theorem call_done : (s.call a text c).1 = a.ok c := by
  rw [call, Assignment.ok]
  cases a.failure c <;> rfl

@[simp] theorem call_called : (s.call a text c).2.called = s.called ++ [c] := by
  rw [call]
  cases a.failure c <;> rfl

@[simp] theorem call_journal :
    (s.call a text c).2.journal = if a.ok c then s.journal ++ c.entries s.aborted else s.journal := by
  rw [call, Assignment.ok]
  cases a.failure c <;> rfl

@[simp] theorem call_aborted : (s.call a text c).2.aborted = s.aborted := by
  rw [call]
  cases a.failure c <;> rfl

@[simp] theorem call_errorMsg : (s.call a text c).2.errorMsg = s.errorMsg := by
  rw [call]
  cases a.failure c <;> rfl

end Call

section Fail

variable (err : Text) (s : Connection)

@[simp] theorem fail_called : (s.fail err).called = s.called := rfl

@[simp] theorem fail_journal : (s.fail err).journal = s.journal := rfl

@[simp] theorem fail_aborted : (s.fail err).aborted = s.aborted := rfl

@[simp] theorem fail_errorMsg : (s.fail err).errorMsg = s.errorMsg ++ [err] := rfl

end Fail

def exists? (a : Assignment) (s : Connection) (o : SystemObject) : Prop :=
  a.existed o = true ∨ o ∈ (replay .idle s.journal).durable

def failed (a : Assignment) (s : Connection) : Prop := ∃ c ∈ s.called, c.isStatement = true ∧ a.ok c = false

def rolledBack (s : Connection) : Prop := replay .idle s.journal = .idle

end Connection

theorem Connection.failed_append {a : Assignment} {s t : Connection} {more : List Call} (h : t.called = s.called ++ more) :
    t.failed a ↔ s.failed a ∨ ∃ c ∈ more, c.isStatement = true ∧ a.ok c = false := by
  simp only [Connection.failed, h, List.mem_append, or_and_right, exists_or]

/-- What the call reports is what has happened; `none` is a call that does not return. -/
def ReportsTruth (a : Assignment) (errorMsg : List Text) (result : Option (ℕ × Connection)) : Prop :=
  ∃ code s, result = some (code, s) ∧
    (code = 0 → (∀ o, s.exists? a o) ∧ .commit ∈ s.journal ∧ .tableList ∈ s.called ∧ a.ok .tableList = true) ∧
    (s.failed a → code ≠ 0 ∧ (errorMsg <+: s.errorMsg ∧ s.errorMsg ≠ errorMsg) ∧ s.rolledBack)

end DbHandler.SystemObjects
