import Mathlib.Data.List.Infix
import DbHandler.Lifecycle.Objects

namespace DbHandler.Lifecycle

namespace SQLite

inductive Opening
  | opened
  | failed
  | outOfMemory
  deriving DecidableEq, Repr

structure Replies where
  opening : Opening
  transaction : Bool
  queries : List Bool
  loaded : ℕ
  listed : Bool
  foreignKeys : Bool
  schemaVersion : Bool
  closed : Bool
  removed : Bool

def fresh : Object := ⟨none, none, .null, false, false⟩

def Opening.handle : Opening → Handle
  | opened => .opened
  | failed => .opened
  | outOfMemory => .null

/-- `BEGIN TRANSACTION` and the seven queries, of which the first that fails is the last. -/
def Replies.systemObjects (r : Replies) : Bool := r.transaction && r.queries.all id

def getTableListFromDb (r : Replies) (o : Object) : Guarded Object := do
  o.db.use
  let impl ← o.impl
  let catalog ← o.driver
  pure { o with pimpl := some (impl.load catalog r.loaded) }

def connect (r : Replies) (selectedDSN : Text) (o : Object) : Guarded (Code × Object) := do
  let o := { o with
    pimpl := some (o.pimpl.getD ⟨[], []⟩)
    driverImpl := some (o.driverImpl.getD [])
    db := r.opening.handle }
  if r.opening ≠ .opened then
    o.db.errorOf
    let _ ← o.impl
    return (.failed, o)
  o.db.use
  if !r.systemObjects then
    let _ ← o.impl
    return (.failed, o)
  let o ← getTableListFromDb r { o with driverImpl := some selectedDSN }
  let impl ← o.impl
  if r.listed && r.foreignKeys && r.schemaVersion then
    return (.done, { o with pimpl := some { impl with dbName := selectedDSN } })
  return (.failed, o)

/-- A busy handle is not closed, everything else is released all the same. -/
def disconnect (r : Replies) (o : Object) : Guarded (Code × Object) := do
  let db ← o.db.close
  let impl ← o.impl
  let catalog ← o.driver
  let _ ← deleteTables (impl.tables.filter (·.catalog = catalog))
  pure (if r.closed then .done else .failed,
    { o with pimpl := none, driverImpl := none, db := if r.closed then db else o.db })

def createDatabase (r : Replies) (name : Text) (o : Object) : Guarded (Code × Object) := do
  let (result, o) ← disconnect r o
  if result = .done then connect r name o else pure (result, o)

def dropDatabase (r : Replies) (name : Text) (o : Object) : Guarded (Code × Object) := do
  let impl ← o.impl
  let (result, o) ← if impl.dbName = name then disconnect r o else pure (.done, o)
  if result = .done then
    let _ ← o.driver
    return (if r.removed then .done else .failed, o)
  return (result, o)

def destroy (o : Object) : Guarded Unit :=
  match o.pimpl with
  | none => pure ()
  | some impl => do
    let catalog ← o.driver
    let _ ← deleteTables (impl.tables.filter (·.catalog = catalog))

end SQLite

namespace Postgres

structure Replies where
  status : Bool
  version : Bool
  /-- `substr` finds the parts of the connection string; else it throws. -/
  parsed : Bool
  serverQuery : Bool
  start : Bool
  tables : List Bool
  indexes : Bool
  commit : Bool
  catalog : Text
  loaded : ℕ
  listed : Bool
  dropped : Bool

def fresh : Object := ⟨none, none, .null, false, false⟩

/-- A failing `CREATE TABLE` leaves the result at 0; only the transaction and the indexes set it. -/
def Replies.systemObjects (r : Replies) : Bool := r.start && (!r.tables.all id || r.indexes)

/-- `selectedDSN.find( L"dbname" ) != std::wstring::npos` -/
def namesDatabase (selectedDSN : Text) : Bool := decide ("dbname".toList <:+: selectedDSN)

def disconnect (o : Object) : Guarded (Code × Object) := do
  let db ← if o.isConnected then o.db.close else pure o.db
  let impl ← o.impl
  let _ ← deleteTables impl.tables
  pure (.done, { o with pimpl := none, driverImpl := none, db := db, isConnected := false })

def createSystemObjectsAndGetDatabaseInfo (r : Replies) (o : Object) : Guarded (Code × Object) := do
  o.db.use
  let _ ← o.driver
  let impl ← o.impl
  if !r.systemObjects || !r.commit then
    let (_, o) ← disconnect o
    return (.failed, o)
  let impl := impl.load r.catalog r.loaded
  let o := { o with pimpl := some impl }
  if !r.listed then
    let (_, o) ← disconnect o
    return (.failed, o)
  return (.done, { o with pimpl := some { impl with dbName := r.catalog } })

def connect (r : Replies) (selectedDSN : Text) (o : Object) : Guarded (Code × Object) := do
  let o : Object :=
    { pimpl := some (o.pimpl.getD ⟨[], []⟩)
      driverImpl := some (o.driverImpl.getD [])
      db := .opened
      isConnected := true
      connectToDatabase := o.connectToDatabase || namesDatabase selectedDSN }
  o.db.use
  if !r.status then
    let _ ← o.driver
    return (.failed, o)
  let _ ← o.impl
  if !r.version then
    let db ← o.db.close
    return (.failed, { o with db := db })
  if !r.parsed then return (.thrown, o)
  if o.connectToDatabase then createSystemObjectsAndGetDatabaseInfo r o
  else
    o.db.use
    let _ ← o.driver
    if r.serverQuery then return (.done, o)
    let db ← o.db.close
    return (.failed, { o with db := db })

def createDatabase (r : Replies) (name : Text) (o : Object) : Guarded (Code × Object) := do
  let (result, o) ← disconnect o
  if result = .done then connect r name o else pure (result, o)

def dropDatabase (r : Replies) (name : Text) (o : Object) : Guarded (Code × Object) := do
  let impl ← o.impl
  let (result, o) ← if impl.dbName = name then disconnect o else pure (.done, o)
  if result = .done then
    let _ ← o.driver
    o.db.use
    return (if r.dropped then .done else .failed, o)
  return (result, o)

def destroy (_ : Object) : Guarded Unit := pure ()

end Postgres

namespace MySQL

structure Replies where
  initialised : Bool
  tokenized : Bool
  namesDatabase : Bool
  connected : Bool
  serverQuery : Bool
  stored : Bool
  /-- `errorMsg` is empty: no message before the call, from the lookups of the indexes or the closing of the statement. -/
  silent : Bool
  statement : Bool
  start : Bool
  tables : List Bool
  prepared : Bool
  validations : Bool
  tableIndexExists : Bool
  tableIndex : Bool
  columnIndexExists : Bool
  columnIndex : Bool
  commit : Bool
  catalog : Text
  loaded : ℕ
  listed : Bool
  user : Bool
  accepted : Bool

def fresh : Object := ⟨some ⟨[], []⟩, some [], .null, false, false⟩

/-- `res == 0` after the statements, and no message among the errors. -/
def Replies.systemObjects (r : Replies) : Bool :=
  r.silent && r.statement && r.start && r.tables.all id && r.prepared &&
    (if r.columnIndexExists then r.validations && (r.tableIndexExists || r.tableIndex)
    else r.columnIndex && r.commit)

def disconnect (o : Object) : Guarded (Code × Object) := do
  let _ ← o.db.close
  let impl ← o.impl
  let tables ← deleteTables impl.tables
  pure (.done, { o with pimpl := some { impl with tables := tables }, driverImpl := none, db := .null })

def getTableListFromDb (r : Replies) (o : Object) : Guarded (Code × Object) := do
  let _ ← o.driver
  o.db.use
  let impl ← o.impl
  let o := { o with pimpl := some (impl.load r.catalog r.loaded) }
  if r.listed then return (.done, o)
  let (_, o) ← disconnect o
  return (.failed, o)

def createSystemObjectsAndGetDatabaseInfo (r : Replies) (o : Object) : Guarded (Code × Object) := do
  let _ ← o.driver
  o.db.use
  if !r.systemObjects then return (.failed, o)
  let (result, o) ← getTableListFromDb r o
  if result = .done then
    let _ ← o.driver
    o.db.use
    let _ ← o.impl
    return (if r.user then .done else .failed, o)
  return (result, o)

def connect (r : Replies) (_selectedDSN : Text) (o : Object) : Guarded (Code × Object) := do
  let _ ← o.driver
  if !r.initialised then return (.failed, { o with db := .null })
  let o := { o with db := .opened }
  if !r.tokenized then return (.failed, o)
  let o := { o with connectToDatabase := o.connectToDatabase || r.namesDatabase }
  o.db.use
  -- the handle that mysql_init made is lost here
  if !r.connected then return (.failed, { o with db := .null })
  if o.connectToDatabase then
    let (result, o) ← createSystemObjectsAndGetDatabaseInfo r o
    if result = .done then
      o.db.use
      let _ ← o.impl
    return (result, o)
  else
    -- ServerConnect takes the success of its query for a failure
    o.db.use
    return (if !r.serverQuery && r.stored then .done else .failed, o)

def createDatabase (r : Replies) (_name : Text) (o : Object) : Guarded (Code × Object) := do
  let (result, o) ← disconnect o
  if result = .done then
    let _ ← o.driver
    o.db.use
    return (if r.accepted then .done else .failed, o)
  return (.failed, o)

def dropDatabase (r : Replies) (_name : Text) (o : Object) : Guarded (Code × Object) := do
  let _ ← o.driver
  o.db.use
  return (if r.accepted then .done else .failed, o)

def destroy (o : Object) : Guarded Unit :=
  match o.pimpl, o.driverImpl with
  | some impl, some catalog => do
    let _ ← deleteTables (impl.tables.filter (·.catalog = catalog))
  | _, _ => pure ()

end MySQL

end DbHandler.Lifecycle
