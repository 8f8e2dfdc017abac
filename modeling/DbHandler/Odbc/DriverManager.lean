import DbHandler.Client
import DbHandler.Foundation.Faults

namespace DbHandler.Odbc

open Foundation.Faults Foundation.Journal

inductive Ret
  | success
  | successWithInfo
  | noData
  | error
  | invalidHandle
  deriving DecidableEq, Repr

def Ret.isOk (ret : Ret) : Bool := ret = .success || ret = .successWithInfo

/-- A member that holds a handle: after `SQLFreeHandle` it keeps the value until it is set to 0. -/
inductive Handle
  | null
  | live
  | freed
  deriving DecidableEq, Repr

inductive HandleType
  | env
  | dbc
  | stmt
  deriving DecidableEq, Repr

inductive Fault
  | nullStatement
  | freedStatement
  | freedTwice (type : HandleType)
  | connectedFreed
  | nullImpl
  deriving DecidableEq, Repr

inductive Request
  | allocHandle (type : HandleType)
  | driverConnect
  | freeHandle (type : HandleType)
  | execDirect (text : Text)
  | bindParameter (position : ℕ) (value : Text)
  | prepare (text : Text)
  | execute
  | fetch
  | bindCol (position : ℕ)
  | describeCol (position : ℕ)
  deriving DecidableEq, Repr

/-- The driver manager with its driver: a return code for each call, and the messages of a handle whose
state is not `HYC00`. -/
structure Manager (δ : Type) where
  answer : δ → Request → Ret × δ
  diagnostics : δ → List Text

structure Impl where
  subtype : Text
  versionMajor : ℕ
  versionMinor : ℕ

structure Object (δ : Type) where
  manager : δ
  hstmt : Handle
  pimpl : Option Impl
  journal : List (Entry Text)
  errorMsg : List Text

abbrev Guarded (α : Type) := Except Fault α

namespace Object

variable {δ : Type}

def fail (err : Text) (o : Object δ) : Object δ := { o with errorMsg := o.errorMsg ++ [err] }

def diagnose (m : Manager δ) (o : Object δ) : Object δ :=
  { o with errorMsg := o.errorMsg ++ m.diagnostics o.manager }

def impl (o : Object δ) : Guarded Impl :=
  match o.pimpl with
  | none => .error .nullImpl
  | some impl => .ok impl

def statement (o : Object δ) : Guarded Unit :=
  match o.hstmt with
  | .null => .error .nullStatement
  | .live => .ok ()
  | .freed => .error .freedStatement

def useStatement (m : Manager δ) (r : Request) (o : Object δ) : Guarded (Ret × Object δ) := do
  o.statement
  let answer := m.answer o.manager r
  pure (answer.1, { o with manager := answer.2 })

/-- `GetErrorMessage( errorMsg, 1, m_hstmt )`. -/
def statementError (m : Manager δ) (o : Object δ) : Guarded (Object δ) := do
  o.statement
  pure (o.diagnose m)

/-- `SQL_ERROR` sets the member to null, an invalid connection handle leaves it as it is. -/
def allocStatement (m : Manager δ) (o : Object δ) : Ret × Object δ :=
  let answer := m.answer o.manager (.allocHandle .stmt)
  (answer.1, { o with
    manager := answer.2
    hstmt := if answer.1.isOk then .live else if answer.1 = .invalidHandle then o.hstmt else .null })

def freeStatement (m : Manager δ) (o : Object δ) : Guarded (Ret × Object δ) :=
  match o.hstmt with
  | .null => .error .nullStatement
  | .freed => .error (.freedTwice .stmt)
  | .live =>
    let answer := m.answer o.manager (.freeHandle .stmt)
    .ok (answer.1, { o with manager := answer.2, hstmt := if answer.1.isOk then .freed else .live })

def execDirect (m : Manager δ) (statement : Statement) (o : Object δ) : Guarded (Ret × Object δ) := do
  let (ret, o) ← o.useStatement m (.execDirect statement.text)
  pure (ret, if ret.isOk then { o with journal := o.journal ++ [statement.entry] } else o)

def requests (m : Manager δ) : List Request → Object δ → Guarded (Bool × Object δ)
  | [], o => pure (true, o)
  | r :: rs, o => do
    let (ret, o) ← o.useStatement m r
    if ret.isOk then o.requests m rs
    else
      let o ← o.statementError m
      pure (false, o)

end Object

end DbHandler.Odbc
