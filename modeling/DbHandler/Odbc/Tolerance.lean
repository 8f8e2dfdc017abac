import DbHandler.Foundation.Tolerance
import DbHandler.Odbc.DriverManager

namespace DbHandler.Odbc

open Foundation Foundation.Tolerance

/-- A function that goes on where a call is given a null or a freed handle, as the driver manager lets it. -/
abbrev Tolerant (δ α : Type) : Type := Foundation.Tolerance.Tolerant Fault (Object δ) α

namespace Tolerant

variable {δ : Type} (m : Manager δ)

def alloc : Tolerant δ Ret := fun o => (o.allocStatement m, [])

def use (r : Request) : Tolerant δ Ret := tolerate .invalidHandle fun o => o.useStatement m r

def exec (statement : Statement) : Tolerant δ Ret := tolerate .invalidHandle fun o => o.execDirect m statement

def free : Tolerant δ Ret := tolerate .invalidHandle fun o => o.freeStatement m

/-- `GetErrorMessage( errorMsg, 1, m_hstmt )` -/
def statementError : Tolerant δ Unit := tolerate () fun o => (o.statementError m).map fun o => ((), o)

/-- `GetErrorMessage( errorMsg, 2 )` -/
def connectionError : Tolerant δ Unit := modify fun o => o.diagnose m

def clear : Tolerant δ Unit := modify fun o => { o with hstmt := .null }

def checked {α : Type} (ret : Ret) (ok failed : α) : Tolerant δ α :=
  if ret.isOk then pure ok
  else do
    statementError m
    pure failed

def fetchRow : Tolerant δ Bool := do
  let fetched ← use m .fetch
  if fetched = .noData then pure false else checked m fetched true false

def requests : List Request → Tolerant δ Bool
  | [] => pure true
  | r :: rs => do
    let ret ← use m r
    if ret.isOk then requests rs else checked m ret true false

section FirstFault

variable (o : Object δ)

theorem firstFault_alloc : firstFault (alloc m) o = .ok (o.allocStatement m) := rfl

theorem firstFault_use (r : Request) : firstFault (use m r) o = o.useStatement m r := firstFault_tolerate _ _ o

theorem firstFault_exec (statement : Statement) : firstFault (exec m statement) o = o.execDirect m statement :=
  firstFault_tolerate _ _ o

theorem firstFault_free : firstFault (free m) o = o.freeStatement m := firstFault_tolerate _ _ o

theorem firstFault_statementError : firstFault (statementError m) o = (o.statementError m).map fun o => ((), o) :=
  firstFault_tolerate _ _ o

theorem firstFault_clear : firstFault (clear : Tolerant δ Unit) o = .ok ((), { o with hstmt := .null }) := rfl

theorem firstFault_checked {α : Type} (ret : Ret) (ok failed : α) : firstFault (checked m ret ok failed) o =
    if ret.isOk then .ok (ok, o) else (o.statementError m).map fun o => (failed, o) := by
  have hfailed : ∀ o : Object δ, firstFault (do statementError m; pure failed : Tolerant δ α) o =
      (o.statementError m).map fun o => (failed, o) := by
    intro o
    rw [firstFault_bind, firstFault_statementError]
    cases o.statementError m <;> rfl
  rw [checked, firstFault_ite, hfailed]
  rfl

theorem firstFault_fetchRow : firstFault (fetchRow m) o = (o.useStatement m .fetch >>= fun r =>
    if r.1.isOk then .ok (true, r.2) else if r.1 = .noData then .ok (false, r.2)
      else (r.2.statementError m).map fun o => (false, o)) := by
  rw [fetchRow, firstFault_bind, firstFault_use]
  congr 1
  funext r
  rw [firstFault_ite, firstFault_checked, firstFault_pure]
  cases r.1 <;> rfl

end FirstFault

end Tolerant

end DbHandler.Odbc
