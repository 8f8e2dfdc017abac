import DbHandler.Foundation.Faults
import DbHandler.Interface

namespace DbHandler.Lifecycle

open Foundation.Faults

inductive Life
  | alive
  | released
  deriving DecidableEq, Repr

/-- The connection handle `m_db`. -/
inductive Handle
  | null
  | opened
  | closed
  deriving DecidableEq, Repr

inductive Fault
  | nullImpl
  | nullDriverImpl
  | nullHandle
  | usedAfterClose
  | closedTwice
  | deletedTwice
  deriving DecidableEq, Repr

structure Table where
  catalog : Text
  life : Life
  deriving DecidableEq, Repr

/-- Of `Database::Impl` the name of the database and the tables of `m_tables`. -/
structure Impl where
  dbName : Text
  tables : List Table
  deriving DecidableEq, Repr

/-- A native driver; of its private `pimpl` only the catalog is kept, and `isConnected` is PostgreSQL's. -/
structure Object where
  pimpl : Option Impl
  driverImpl : Option Text
  db : Handle
  isConnected : Bool
  connectToDatabase : Bool
  deriving DecidableEq, Repr

inductive Code
  | done
  | failed
  | thrown
  deriving DecidableEq, Repr

abbrev Guarded (α : Type) := Except Fault α

def Object.impl (o : Object) : Guarded Impl :=
  match o.pimpl with
  | none => .error .nullImpl
  | some impl => .ok impl

def Object.driver (o : Object) : Guarded Text :=
  match o.driverImpl with
  | none => .error .nullDriverImpl
  | some catalog => .ok catalog

def Handle.use : Handle → Guarded Unit
  | null => .error .nullHandle
  | opened => .ok ()
  | closed => .error .usedAfterClose

/-- A call that accepts a null handle as well: the texts and codes of errors. -/
def Handle.errorOf : Handle → Guarded Unit
  | null => .ok ()
  | opened => .ok ()
  | closed => .error .usedAfterClose

def Handle.close : Handle → Guarded Handle
  | null => .ok null
  | opened => .ok closed
  | closed => .error .closedTwice

def deleteTables : List Table → Guarded (List Table)
  | [] => .ok []
  | t :: ts =>
    match t.life with
    | .released => .error .deletedTwice
    | .alive => do
      let ts ← deleteTables ts
      pure ({ t with life := .released } :: ts)

def Impl.load (impl : Impl) (catalog : Text) (loaded : ℕ) : Impl :=
  { impl with tables := impl.tables ++ List.replicate loaded ⟨catalog, .alive⟩ }

def AllAlive (ts : List Table) : Prop := ∀ t ∈ ts, t.life = .alive

@[simp] theorem allAlive_nil : AllAlive [] := by simp [AllAlive]

theorem allAlive_cons (t : Table) (ts : List Table) : AllAlive (t :: ts) ↔ t.life = .alive ∧ AllAlive ts := by
  simp [AllAlive]

theorem allAlive_append (ts us : List Table) : AllAlive (ts ++ us) ↔ AllAlive ts ∧ AllAlive us := by
  simp [AllAlive, or_imp, forall_and]

@[simp] theorem deleteTables_returns (ts : List Table) (Q : List Table → Prop) :
    Returns (deleteTables ts) Q ↔ AllAlive ts ∧ Q (ts.map fun t => { t with life := .released }) := by
  induction ts generalizing Q with
  | nil => simp [deleteTables]
  | cons t ts ih => cases hlife : t.life <;> simp [deleteTables, allAlive_cons, hlife, ih]

theorem allAlive_released (ts : List Table) :
    AllAlive (ts.map fun t => { t with life := .released }) ↔ ts = [] := by
  cases ts <;> simp [allAlive_cons]

theorem AllAlive.filter {ts : List Table} (h : AllAlive ts) (p : Table → Bool) : AllAlive (ts.filter p) :=
  fun t ht => h t (List.mem_of_mem_filter ht)

@[simp] theorem allAlive_replicate (catalog : Text) (n : ℕ) : AllAlive (List.replicate n ⟨catalog, .alive⟩) := by
  intro t ht
  rw [List.eq_of_mem_replicate ht]

@[simp] theorem Impl.load_allAlive (impl : Impl) (catalog : Text) (loaded : ℕ) :
    AllAlive (impl.load catalog loaded).tables ↔ AllAlive impl.tables := by
  simp [Impl.load, allAlive_append]

@[simp] theorem Object.impl_returns (o : Object) (Q : Impl → Prop) :
    Returns o.impl Q ↔ ∃ impl, o.pimpl = some impl ∧ Q impl := by
  cases h : o.pimpl <;> simp [Object.impl, h]

@[simp] theorem Object.driver_returns (o : Object) (Q : Text → Prop) :
    Returns o.driver Q ↔ ∃ catalog, o.driverImpl = some catalog ∧ Q catalog := by
  cases h : o.driverImpl <;> simp [Object.driver, h]

@[simp] theorem Handle.use_returns (db : Handle) (Q : Unit → Prop) : Returns db.use Q ↔ db = .opened ∧ Q () := by
  cases db <;> simp [Handle.use]

@[simp] theorem Handle.errorOf_returns (db : Handle) (Q : Unit → Prop) :
    Returns db.errorOf Q ↔ db ≠ .closed ∧ Q () := by
  cases db <;> simp [Handle.errorOf]

@[simp] theorem Handle.close_returns (db : Handle) (Q : Handle → Prop) :
    Returns db.close Q ↔ db ≠ .closed ∧ Q (if db = .opened then .closed else .null) := by
  cases db <;> simp [Handle.close]

end DbHandler.Lifecycle
