import Mathlib.Data.List.DropRight
import DbHandler.AlterTable.Drivers
import DbHandler.Foundation.Search
import DbHandler.Sqlite.Client

namespace DbHandler.Sqlite.ForeignKeys

open Foundation Foundation.Search
open AlterTable (ForeignKeyCall)

/-- How a call ends without returning: `at` or `substr` threw, a loop goes on for ever, or the behaviour is undefined. -/
inductive Fault
  | outOfRange
  | endless
  | undefined
  deriving DecidableEq, Repr

abbrev Guarded := Except Fault

def substr (pos : Option ℕ) (s : Text) : Guarded Text :=
  match pos with
  | some pos => if pos ≤ s.length then .ok (s.drop pos) else .error .outOfRange
  | none => .error .outOfRange

def firstNotBlank (s : Text) : Option ℕ := s.findIdx? (· ≠ ' ')

def towupper (s : Text) : Text := s.map Char.toUpper

def foreignKey : Text := "FOREIGN KEY".toList

def references : Text := "REFERENCES ".toList

def comma : Text := ",".toList

/-- The stream of the statement, cut at its commas, and the string that `std::getline` writes to. -/
structure Reader where
  pieces : List Text
  s : Text

/-- An empty last piece is not read, but leaves the string empty. -/
def Reader.getline (r : Reader) : Bool × Reader :=
  match r.pieces with
  | [] => (false, r)
  | [[]] => (false, ⟨[], []⟩)
  | s :: pieces => (true, ⟨pieces, s⟩)

/-- `sUpper` keeps the piece as it is; `s` is in upper case. -/
def Reader.upper (r : Reader) : Reader := { r with s := towupper r.s }

def referencedName (fkPos : ℕ) (sUpper : Text) : Guarded Text := do
  let tName ← substr (some (fkPos + references.length)) sUpper
  let tName := tName.takeWhile (· ≠ '(')
  let tName ← substr (firstNotBlank tName) tName
  .ok (tName.rdropWhile (· = ' '))

structure Sought where
  reader : Reader
  sUpper : Text
  keyTemp : Text
  fkPos : ℕ

/-- The loop that reads on until there is `REFERENCES `. The pieces at its end are all the same: after two of them
no other text arises. -/
def seekReferences : ℕ → Reader → Text → Guarded Sought
  | 0, _, _ => .error .endless
  | rounds + 1, r, keyTemp =>
    let (_, r) := r.getline
    let sUpper := r.s
    let keyTemp := keyTemp ++ sUpper ++ comma
    match find references keyTemp with
    | some fkPos => .ok ⟨r.upper, sUpper, keyTemp ++ sUpper, fkPos⟩
    | none => seekReferences rounds r.upper (keyTemp ++ sUpper)

def seekClosing : ℕ → Reader → Text → Text → Guarded (Reader × Text)
  | 0, _, _, _ => .error .endless
  | rounds + 1, r, keyTemp, temp1 =>
    if ')' ∈ temp1 then .ok (r, keyTemp)
    else do
      let (_, r) := r.getline
      let keyTemp := keyTemp ++ r.s ++ comma
      let r := r.upper
      let temp1 ← substr (firstNotBlank r.s) r.s
      seekClosing rounds r keyTemp temp1

def beforeLast (s : Text) : Option Char := s.dropLast.getLast?

def terminated (keys : ℕ) (keyTemp : Text) : Text :=
  if keyTemp.getLast? = some ')' ∧ beforeLast keyTemp ≠ some ')' ∧ 1 < keys then keyTemp ++ comma else keyTemp

/-- The branch of a piece with a foreign key: `keyTemp` as it leaves it, and whether the key is kept. -/
def readClause (keys : ℕ) (refTableName : Text) (r : Reader) (sUpper keyTemp : Text) : Guarded (Reader × Text × Bool) := do
  let keyTemp := keyTemp ++ sUpper ++ comma
  match find references keyTemp with
  | some fkPos =>
    let tName ← referencedName fkPos sUpper
    .ok (r, terminated keys keyTemp, tName != refTableName)
  | none =>
    let sought ← seekReferences (r.pieces.length + 2) r keyTemp
    let tName ← referencedName sought.fkPos sought.sUpper
    let temp1 ← substr (find tName sought.sUpper) sought.sUpper
    let (r, keyTemp) ← seekClosing (sought.reader.pieces.length + 2) sought.reader sought.keyTemp temp1
    .ok (r, terminated keys keyTemp, tName != refTableName)

/-- The loop of `DropForeignKey`; each round reads a piece. -/
def rewriteLoop (keys : ℕ) (refTableName : Text) : ℕ → Reader → Text → Text → Guarded Text
  | 0, _, newSQL, _ => .ok newSQL
  | rounds + 1, r, newSQL, keyTemp =>
    match r.getline with
    | (false, _) => .ok newSQL
    | (true, r) => do
      let sUpper := r.s
      let r := r.upper
      let temp ← substr (firstNotBlank r.s) r.s
      match find foreignKey temp with
      | none => rewriteLoop keys refTableName rounds r (newSQL ++ sUpper ++ comma) keyTemp
      | some fkPos =>
        let (r, keyTemp, isKeyAdded) ← readClause keys refTableName { r with s := r.s.drop fkPos } sUpper keyTemp
        if beforeLast keyTemp = some ')' then
          rewriteLoop keys refTableName rounds r (if isKeyAdded then newSQL ++ keyTemp else newSQL) []
        else rewriteLoop keys refTableName rounds r newSQL keyTemp

/-- `back` of an empty string is undefined. -/
def finishSql (newSQL : Text) : Guarded Text :=
  match newSQL.getLast? with
  | none => .error .undefined
  | some c => .ok (if c = ',' then newSQL.dropLast ++ ")".toList else newSQL)

def rewriteSql (keys : ℕ) (refTableName sql : Text) : Guarded Text :=
  rewriteLoop keys refTableName ((sql.splitOn ',').length + 1) ⟨sql.splitOn ',', []⟩ [] [] >>= finishSql

def eraseReferences (refTableName : Text) (m : ForeignKeyMap) : ForeignKeyMap :=
  m.eraseFirst fun fields => fields.any fun fk => fk.refTable = refTableName

def dropForeignKey (refTableName sql : Text) (m : ForeignKeyMap) : Guarded (Text × ForeignKeyMap) := do
  let newSQL ← rewriteSql m.size refTableName sql
  .ok (newSQL, eraseReferences refTableName m)

/-- The loops over `newFK`: a comma and a blank after every name, a closing parenthesis after the last one. -/
def columnNames : List Text → Text
  | [] => []
  | [name] => name ++ ")".toList
  | name :: names => name ++ ", ".toList ++ columnNames names

def actionName (prop : ℤ) : Text :=
  match prop with
  | 0 => "NO ACTION".toList
  | 1 => "RESTRICT".toList
  | 2 => "CASCADE".toList
  | 3 => "SET NULL".toList
  | 4 => "SET DEFAULT".toList
  | _ => []

def actionClause (clause : Text) (prop : ℤ) : Text := if 0 < prop then clause ++ actionName prop else []

/-- What takes the place of the last character of the statement. -/
def constraintClause (c : ForeignKeyCall) (fk : FKField) (fks : List FKField) : Text :=
  (if c.keyName ≠ [] then ", CONSTRAINT ".toList ++ c.keyName ++ " FOREIGN KEY(".toList else ", FOREIGN KEY(".toList) ++
    columnNames ((fk :: fks).map FKField.originalField) ++ " REFERENCES ".toList ++ fk.refTable ++ "(".toList ++
    columnNames ((fk :: fks).map FKField.referencedField) ++ actionClause " ON DELETE ".toList c.deleteProp ++
    actionClause " ON UPDATE ".toList c.updateProp ++ ")".toList

/-- `sql.replace( sql.length() - 1, 1, fk )` throws where the statement is empty. -/
def addClause (c : ForeignKeyCall) (newFK : List FKField) (sql : Text) : Guarded Text :=
  match newFK with
  | [] => .ok sql
  | fk :: fks => if sql = [] then .error .outOfRange else .ok (sql.dropLast ++ constraintClause c fk fks)

def keyFields (keyName tableName : Text) (newFK : List FKField) : List FKField :=
  newFK.mapIdx fun i fk =>
    { fkId := i, fkName := keyName, origSchema := [], tableName := tableName, originalField := fk.originalField,
      refSchema := [], refTable := fk.refTable, referencedField := fk.referencedField,
      origFields := newFK.map FKField.originalField, refFields := newFK.map FKField.referencedField,
      updateConstraint := fk.updateConstraint, deleteConstraint := fk.deleteConstraint }

def storeKey (keyName tableName : Text) (newFK : List FKField) (m : ForeignKeyMap) : ForeignKeyMap :=
  AlterTable.pushForeignKeyFields m.size (keyFields keyName tableName newFK) m

/-- `command.replace( command.find( '?' ), 1, text )` -/
def replaceMark (text command : Text) : Text :=
  command.takeWhile (· ≠ '?') ++ text ++ (command.dropWhile (· ≠ '?')).tail

def quoted (text : Text) : Text := apostrophe :: text ++ [apostrophe]

def updateSchemaText : Text :=
  "UPDATE sqlite_master SET sql = ? WHERE type = ".toList ++ quoted "table".toList ++ " AND name = ?;".toList

def logCommand (sql tableName : Text) : Text :=
  replaceMark (quoted tableName) (replaceMark (quoted sql) updateSchemaText)

def writableSchema : Statement := .command "PRAGMA writable_schema=true".toList

def analyze : Statement := .command "ANALYZE sqlite_master".toList

/-- The connection and the arguments passed by reference. -/
structure KeySession (δ : Type) where
  session : Session δ
  table : DatabaseTable
  command : Text
  newFK : List FKField

inductive Ending (σ : Type)
  | returned (code : ℕ) (state : σ)
  | stopped (fault : Fault) (state : σ)

namespace Ending

variable {σ : Type}

def state : Ending σ → σ
  | returned _ s => s
  | stopped _ s => s

end Ending

variable {δ : Type}

def openSchema (client : Client δ) (logOnly : Bool) (s : Session δ) : Bool × Session δ :=
  if logOnly then (true, s)
  else
    let (written, s) := s.exec client writableSchema
    if written then s.exec client .begin else (false, s)

/-- The last row wins; a NULL is read through a null pointer. -/
def readSql (rows : List (List Value)) : Option Text :=
  rows.foldlM (fun _ row => (column row 0).columnText) []

def storeSql (client : Client δ) (sql tableName : Text) (s : Session δ) : Bool × Session δ :=
  let (prepared, s) := s.prepare client .updateSchema
  let (first, s) := if prepared then s.bindText client .updateSchema 1 sql else (false, s)
  let (second, s) := if first then s.bindText client .updateSchema 2 tableName else (false, s)
  let (done, s) := if second then s.run client .updateSchema [sql, tableName] updateSchemaText else (false, s)
  let (ended, s) := s.exec client (if done then .commit else .rollback)
  if done && ended then s.exec client analyze else (false, s)

namespace KeySession

def withSession (s : KeySession δ) (t : Session δ) : KeySession δ := { s with session := t }

def setForeignKeys (s : KeySession δ) (m : ForeignKeyMap) : KeySession δ :=
  { s with table := { s.table with foreignKeys := m } }

end KeySession

def writeSchema (client : Client δ) (c : ForeignKeyCall) (sql : Text) (s : KeySession δ) : Ending (KeySession δ) :=
  match addClause c s.newFK sql with
  | .error fault => .stopped fault s
  | .ok sql =>
    if c.logOnly then .returned 0 { s with command := logCommand sql s.table.tableName }
    else
      let (stored, t) := storeSql client sql s.table.tableName s.session
      let s := s.withSession t
      if stored then .returned 0 (s.setForeignKeys (storeKey c.keyName s.table.tableName s.newFK s.table.foreignKeys))
      else .returned 1 s

def rewriteSchema (client : Client δ) (c : ForeignKeyCall) (sql : Text) (s : KeySession δ) : Ending (KeySession δ) :=
  if c.isNew then writeSchema client c sql s
  else match dropForeignKey c.refTableName sql s.table.foreignKeys with
    | .error fault => .stopped fault s
    | .ok (sql, m) => writeSchema client c sql (s.setForeignKeys m)

def applyForeignKey (client : Client δ) (c : ForeignKeyCall) (s : KeySession δ) : Ending (KeySession δ) :=
  let (opened, t) := openSchema client c.logOnly s.session
  let query := Query.tableSql s.table.tableName
  let (prepared, t) := if opened then t.prepare client query else (false, t)
  if prepared then
    let (cursor, t) := t.step client query []
    match readSql cursor.rows, cursor.last with
    | none, _ => .stopped .undefined (s.withSession t)
    | some _, some err => .returned 1 (s.withSession (t.fail err))
    | some sql, none => rewriteSchema client c sql (s.withSession t)
  else .returned 1 (s.withSession t)

end DbHandler.Sqlite.ForeignKeys
