import DbHandler.Lifecycle.Drivers

namespace DbHandler.Lifecycle

open Foundation.Faults

structure Driver where
  Replies : Type
  fresh : Object
  connect : Replies → Text → Object → Guarded (Code × Object)
  createDatabase : Replies → Text → Object → Guarded (Code × Object)
  dropDatabase : Replies → Text → Object → Guarded (Code × Object)
  disconnect : Replies → Object → Guarded (Code × Object)
  destroy : Object → Guarded Unit

inductive Native
  | sqlite
  | postgres
  | mySQL
  deriving DecidableEq, Repr

def Native.driver : Native → Driver
  | .sqlite => ⟨SQLite.Replies, SQLite.fresh, SQLite.connect, SQLite.createDatabase, SQLite.dropDatabase,
      SQLite.disconnect, SQLite.destroy⟩
  | .postgres => ⟨Postgres.Replies, Postgres.fresh, Postgres.connect, Postgres.createDatabase,
      Postgres.dropDatabase, fun _ => Postgres.disconnect, Postgres.destroy⟩
  | .mySQL => ⟨MySQL.Replies, MySQL.fresh, MySQL.connect, MySQL.createDatabase, MySQL.dropDatabase,
      fun _ => MySQL.disconnect, MySQL.destroy⟩

inductive Event (d : Driver)
  | connectToDb (name : Text) (r : d.Replies)
  | createDatabase (name : Text) (r : d.Replies)
  | dropDatabase (name : Text) (r : d.Replies)
  | close (r : d.Replies)
  | discard

/-- The loader: after a `Connect` that failed it disconnects and deletes the object. -/
def Driver.connectToDb (d : Driver) (name : Text) (r : d.Replies) : Guarded (Option Object) := do
  let (result, o) ← d.connect r name d.fresh
  match result with
  | .done => pure (some o)
  | .thrown => pure none
  | .failed => do
    let (_, o) ← d.disconnect r o
    d.destroy o
    pure none

def Driver.close (d : Driver) (r : d.Replies) (o : Object) : Guarded Unit := do
  let _ ← o.impl
  let (_, o) ← d.disconnect r o
  d.destroy o

/-- The main frame takes another database: the object is deleted and was not disconnected. -/
def Driver.discard (d : Driver) (o : Object) : Guarded Unit := do
  let _ ← o.impl
  d.destroy o

def Driver.act (d : Driver) : Option Object → Event d → Option (Guarded (Option Object))
  | none, .connectToDb name r => some (d.connectToDb name r)
  | some o, .createDatabase name r => some ((fun p => some p.2) <$> d.createDatabase r name o)
  | some o, .dropDatabase name r => some ((fun p => some p.2) <$> d.dropDatabase r name o)
  | some o, .close r => some ((fun _ => none) <$> d.close r o)
  | some o, .discard => some ((fun _ => none) <$> d.discard o)
  | _, _ => none

abbrev World := Guarded (Option Object)

def Driver.step (d : Driver) : World → Event d → Option World
  | .ok o, e => d.act o e
  | .error _, _ => none

structure Conditions (d : Driver) where
  connectToDb : Text → d.Replies → Prop
  createDatabase : Object → Prop
  dropDatabase : Text → d.Replies → Object → Prop
  close : Object → Prop
  discard : Object → Prop

def Conditions.Holds {d : Driver} (c : Conditions d) : Option Object → Event d → Prop
  | none, .connectToDb name r => c.connectToDb name r
  | some o, .createDatabase _ _ => c.createDatabase o
  | some o, .dropDatabase name r => c.dropDatabase name r o
  | some o, .close _ => c.close o
  | some o, .discard => c.discard o
  | _, _ => True

def Conditions.HoldsIn {d : Driver} (c : Conditions d) (w : World) (e : Event d) : Prop :=
  ∀ o, w = .ok o → c.Holds o e

namespace SQLite

def Usable (o : Object) : Prop := o.pimpl.isSome

def conditions : Conditions Native.sqlite.driver where
  connectToDb _ _ := True
  createDatabase := Usable
  dropDatabase name r o := ∃ impl ∈ o.pimpl, impl.dbName = name → r.closed = false
  close := Usable
  discard := Usable

end SQLite

namespace Postgres

def Usable (o : Object) : Prop := o.pimpl.isSome ∧ o.db = .opened

def Replies.Clean (r : Replies) (name : Text) : Prop :=
  r.status = true → r.version = true ∧ (r.parsed = true →
    if namesDatabase name then r.systemObjects = true ∧ r.commit = true ∧ r.listed = true
    else r.serverQuery = true)

def conditions : Conditions Native.postgres.driver where
  connectToDb name r := Replies.Clean r name
  createDatabase := Usable
  dropDatabase name _ o := Usable o ∧ ∀ impl ∈ o.pimpl, impl.dbName ≠ name
  close := Usable
  discard o := o.pimpl.isSome

end Postgres

namespace MySQL

def Replies.Clean (r : Replies) : Prop :=
  r.initialised = true → r.tokenized = true → r.connected = true → r.namesDatabase = true →
    r.systemObjects = true → r.listed = true ∨ r.loaded = 0

def conditions : Conditions Native.mySQL.driver where
  connectToDb _ r := Replies.Clean r
  createDatabase _ := False
  dropDatabase _ _ _ := True
  close _ := True
  discard _ := True

end MySQL

def Native.conditions : ∀ n : Native, Conditions n.driver
  | .sqlite => SQLite.conditions
  | .postgres => Postgres.conditions
  | .mySQL => MySQL.conditions

end DbHandler.Lifecycle
