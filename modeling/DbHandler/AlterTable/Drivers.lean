import DbHandler.AlterTable.Statements

namespace DbHandler.AlterTable

open Foundation

/-- The client library of a server: whether a statement is accepted, and the statement handles of ODBC. -/
structure Dbms (δ : Type) where
  exec : δ → Statement → Except Text δ
  allocHandle : δ → Except Text δ
  freeHandle : δ → Except Text δ

/-- The arguments passed by reference together with the connection; `executed` is the server's own log. -/
structure Session (δ : Type) where
  server : δ
  executed : List Statement
  hstmt : Bool
  table : DatabaseTable
  command : Text
  newFK : List FKField
  errorMsg : List Text

structure ForeignKeyCall where
  keyName : Text
  foreignKeyFields : List Text
  refTableName : Text
  refKeyFields : List Text
  deleteProp : ℤ
  updateProp : ℤ
  logOnly : Bool
  isNew : Bool
  matchOption : ℤ

variable {δ : Type}

namespace Session

def fail (s : Session δ) (err : Text) : Session δ := { s with errorMsg := s.errorMsg ++ [err] }

def setForeignKeys (s : Session δ) (m : ForeignKeyMap) : Session δ :=
  { s with table := { s.table with foreignKeys := m } }

def execute (dbms : Dbms δ) (statement : Statement) (s : Session δ) : Except Text (Session δ) :=
  (dbms.exec s.server statement).map fun d =>
    { s with server := d, executed := s.executed ++ [statement] }

def allocStatement (dbms : Dbms δ) (s : Session δ) : Except Text (Session δ) :=
  (dbms.allocHandle s.server).map fun d => { s with server := d, hstmt := true }

def freeStatement (dbms : Dbms δ) (result : ℕ) (s : Session δ) : ℕ × Session δ :=
  match dbms.freeHandle s.server with
  | .error err => (1, s.fail err)
  | .ok d => (result, { s with server := d, hstmt := false })

end Session

theorem execute_table {dbms : Dbms δ} {statement : Statement} {s t : Session δ} (h : s.execute dbms statement = .ok t) :
    t.table = s.table ∧ t.newFK = s.newFK := by
  rw [Session.execute] at h
  cases hexec : dbms.exec s.server statement with
  | error err => simp [hexec, Except.map] at h
  | ok d =>
    rw [hexec, Except.map] at h
    obtain rfl := Except.ok.inj h
    exact ⟨rfl, rfl⟩

theorem allocStatement_table {dbms : Dbms δ} {s t : Session δ} (h : s.allocStatement dbms = .ok t) :
    t.table = s.table ∧ t.newFK = s.newFK := by
  rw [Session.allocStatement] at h
  cases halloc : dbms.allocHandle s.server with
  | error err => simp [halloc, Except.map] at h
  | ok d =>
    rw [halloc, Except.map] at h
    obtain rfl := Except.ok.inj h
    exact ⟨rfl, rfl⟩

theorem freeStatement_table (dbms : Dbms δ) (result : ℕ) (s : Session δ) :
    (s.freeStatement dbms result).2.table = s.table ∧ (s.freeStatement dbms result).2.newFK = s.newFK := by
  rw [Session.freeStatement]
  cases dbms.freeHandle s.server <;> exact ⟨rfl, rfl⟩

/-- The nested loops of `DropForeignKey`: `found` stops both after the first field of that name. -/
def removeForeignKeyField (keyName : Text) (m : ForeignKeyMap) : ForeignKeyMap :=
  m.updateFirst fun fields =>
    if fields.any (·.fkName = keyName) then some (fields.eraseP (·.fkName = keyName)) else none

def pushForeignKeyFields (key : ℕ) (fields : List FKField) (m : ForeignKeyMap) : ForeignKeyMap :=
  fields.foldl (fun m fk => m.upsert key fun old => old.getD [] ++ [fk]) m

def ForeignKeyCall.fields (c : ForeignKeyCall) (tableName : Text) (newFK : List FKField)
    (updProp : FkOnUpdate) (delProp : FkOnDelete) (matchOption : ℤ) : List FKField :=
  (c.foreignKeyFields.zip c.refKeyFields).mapIdx fun i columns =>
    { fkId := i, fkName := c.keyName, origSchema := [], tableName := tableName, originalField := columns.1,
      refSchema := [], refTable := c.refTableName, referencedField := columns.2,
      origFields := newFK.map (·.originalField), refFields := newFK.map (·.referencedField),
      updateConstraint := updProp, deleteConstraint := delProp, matchOption := matchOption }

/-- The loop that fills `fKeys[key]`; `refKeyFields.at( i )` throws where the referenced columns run out. -/
def storeForeignKey (key : ℕ) (c : ForeignKeyCall) (updProp : FkOnUpdate) (delProp : FkOnDelete)
    (matchOption : ℤ) (s : Session δ) : Outcome (Session δ) :=
  let fields := c.fields s.table.tableName s.newFK updProp delProp matchOption
  let m := pushForeignKeyFields key fields s.table.foreignKeys
  if c.foreignKeyFields.length ≤ c.refKeyFields.length then .returned 0 (s.setForeignKeys m)
  else .outOfRange (s.setForeignKeys (m.upsert key fun old => old.getD []))

namespace Postgres

def deleteRule : ℤ → Text × FkOnDelete := AlterTable.deleteRule ("RESTRICT ".toList, .restrict)

def updateRule : ℤ → Text × FkOnUpdate := AlterTable.updateRule ("RESTRICT".toList, .restrict)

def dropStatement (table : DatabaseTable) (keyName : Text) : Statement :=
  dropForeignKeyStatement table "DROP CONSTRAINT ".toList keyName []

def addStatement (table : DatabaseTable) (newFK : List FKField) (c : ForeignKeyCall) : Statement :=
  addForeignKeyStatement table c.keyName newFK (matchClause c.matchOption)
    (deleteRule c.deleteProp).1 (updateRule c.updateProp).1

def dropForeignKey (dbms : Dbms δ) (keyName : Text) (logOnly : Bool) (s : Session δ) : ℕ × Session δ :=
  let query := dropStatement s.table keyName
  if logOnly then (0, { s with command := query.text })
  else match s.execute dbms query with
    | .error err => (1, s.fail ("Adding foreign key failed: ".toList ++ err))
    | .ok s => (0, s.setForeignKeys (removeForeignKeyField keyName s.table.foreignKeys))

def applyForeignKey (dbms : Dbms δ) (c : ForeignKeyCall) (s : Session δ) : Outcome (Session δ) :=
  let query := addStatement s.table s.newFK c
  let (result, s) := if c.isNew then (0, s) else dropForeignKey dbms c.keyName c.logOnly s
  if !c.logOnly && result == 0 && c.isNew then
    match s.execute dbms query with
    | .error err => .returned 1 (s.fail ("Adding forign key failed: ".toList ++ err))
    | .ok s => storeForeignKey (s.table.foreignKeys.size + 1) c
        (updateRule c.updateProp).2 (deleteRule c.deleteProp).2 c.matchOption s
  else .returned result { s with command := query.text }

end Postgres

namespace MySQL

def deleteRule : ℤ → Text × FkOnDelete := AlterTable.deleteRule ("RESTRICT ".toList, .restrict)

def updateRule : ℤ → Text × FkOnUpdate := AlterTable.updateRule ("RESTRICT".toList, .restrict)

def dropStatement (table : DatabaseTable) (keyName : Text) : Statement :=
  dropForeignKeyStatement table "DROP FOREIGN KEY ".toList keyName []

def addStatement (table : DatabaseTable) (newFK : List FKField) (c : ForeignKeyCall) : Statement :=
  addForeignKeyStatement table c.keyName newFK [] (deleteRule c.deleteProp).1 (updateRule c.updateProp).1

def dropForeignKey (dbms : Dbms δ) (keyName : Text) (logOnly : Bool) (s : Session δ) : ℕ × Session δ :=
  let query := dropStatement s.table keyName
  if logOnly then (0, { s with command := query.text })
  else match s.execute dbms query with
    | .error err => (1, s.fail err)
    | .ok s => (0, s.setForeignKeys (removeForeignKeyField keyName s.table.foreignKeys))

/-- `newFK = fKeys[size]`, which makes the key when no field was pushed. -/
def reloadNewFK (key : ℕ) (s : Session δ) : Session δ :=
  let m := s.table.foreignKeys.upsert key fun old => old.getD []
  { s.setForeignKeys m with newFK := (m.lookup key).getD [] }

def applyForeignKey (dbms : Dbms δ) (c : ForeignKeyCall) (s : Session δ) : Outcome (Session δ) :=
  -- newFK.at( 0 ) stands in the text before anything is sent
  if s.newFK.isEmpty then .outOfRange s else
  let query := addStatement s.table s.newFK c
  let (result, s) := if c.isNew then (0, s) else dropForeignKey dbms c.keyName c.logOnly s
  if !c.logOnly && result == 0 then
    match s.execute dbms query with
    | .error err => .returned 1 (s.fail ("Applying foreign key failed: ".toList ++ err))
    | .ok s =>
      let key := s.table.foreignKeys.size + 1
      (storeForeignKey key c (updateRule c.updateProp).2 (deleteRule c.deleteProp).2 (-1) s).bind
        fun result s => .returned result (reloadNewFK key s)
  else .returned result { s with command := query.text }

end MySQL

namespace Odbc

def deleteRule (subtype : Text) : ℤ → Text × FkOnDelete :=
  AlterTable.deleteRule
    (if subtype = "Microsoft SQL Server".toList then ("NO ACTION ".toList, .noAction)
      else ("RESTRICT ".toList, .restrict))

/-- Case 1 has no `else` around its last two lines: they follow either branch. -/
def updateRule (subtype : Text) : ℤ → Text × FkOnUpdate :=
  AlterTable.updateRule
    ((if subtype = "Microsoft SQL Server".toList then "NO ACTION ".toList else "RESTRICT ".toList) ++
      "RESTRICT".toList, .restrict)

def dropStatement (table : DatabaseTable) (keyName : Text) : Statement :=
  dropForeignKeyStatement table "DROP CONSTRAINT ".toList keyName " ".toList

def addStatement (subtype : Text) (table : DatabaseTable) (newFK : List FKField) (c : ForeignKeyCall) : Statement :=
  addForeignKeyStatement table c.keyName newFK [] (deleteRule subtype c.deleteProp).1
    (updateRule subtype c.updateProp).1

def dropForeignKey (dbms : Dbms δ) (keyName : Text) (logOnly : Bool) (s : Session δ) : ℕ × Session δ :=
  let query := dropStatement s.table keyName
  if logOnly then (0, { s with command := query.text })
  else match s.allocStatement dbms with
    | .error err => (1, s.fail err)
    | .ok s =>
      let (result, s) := match s.execute dbms query with
        | .error err => (1, s.fail err)
        | .ok s => (0, s.setForeignKeys (removeForeignKeyField keyName s.table.foreignKeys))
      s.freeStatement dbms result

def applyForeignKey (subtype : Text) (dbms : Dbms δ) (c : ForeignKeyCall) (s : Session δ) :
    Outcome (Session δ) :=
  let query := addStatement subtype s.table s.newFK c
  let (result, s) := if c.isNew then (0, s) else dropForeignKey dbms c.keyName c.logOnly s
  if result != 0 then .returned result s
  else if !c.logOnly && !s.newFK.isEmpty then
    match s.allocStatement dbms with
    | .error err => .returned 1 (s.fail err)
    | .ok s =>
      let stored : Outcome (Session δ) := match s.execute dbms query with
        | .error err => .returned 1 (s.fail err)
        | .ok s => storeForeignKey s.table.foreignKeys.size c
            (updateRule subtype c.updateProp).2 (deleteRule subtype c.deleteProp).2 (-1) s
      stored.bind fun result s => .returned (s.freeStatement dbms result).1 (s.freeStatement dbms result).2
  else if c.logOnly then .returned 0 { s with command := query.text }
  else .returned 0 s

end Odbc

/-- The drivers that change foreign keys by `ALTER TABLE`; ODBC carries the name of its server. -/
inductive Backend
  | postgres
  | mySQL
  | odbc (subtype : Text)
  deriving DecidableEq, Repr

namespace Backend

def isOdbc : Backend → Bool
  | odbc _ => true
  | _ => false

def applyForeignKey : Backend → Dbms δ → ForeignKeyCall → Session δ → Outcome (Session δ)
  | postgres => Postgres.applyForeignKey
  | mySQL => MySQL.applyForeignKey
  | odbc subtype => Odbc.applyForeignKey subtype

def dropForeignKey : Backend → Dbms δ → Text → Bool → Session δ → ℕ × Session δ
  | postgres => Postgres.dropForeignKey
  | mySQL => MySQL.dropForeignKey
  | odbc _ => Odbc.dropForeignKey

def addStatement : Backend → DatabaseTable → List FKField → ForeignKeyCall → Statement
  | postgres => Postgres.addStatement
  | mySQL => MySQL.addStatement
  | odbc subtype => Odbc.addStatement subtype

def dropStatement : Backend → DatabaseTable → Text → Statement
  | postgres => Postgres.dropStatement
  | mySQL => MySQL.dropStatement
  | odbc _ => Odbc.dropStatement

end Backend

end DbHandler.AlterTable
