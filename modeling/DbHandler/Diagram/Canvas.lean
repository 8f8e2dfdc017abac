import DbHandler.Interface

namespace DbHandler.Diagram

open Foundation

inductive ViewType
  | databaseView
  | queryView
  deriving DecidableEq, Repr

inductive ConstraintAction
  | restrict
  | cascade
  | setNull
  | noAction
  | setDefault
  deriving DecidableEq, Repr

/-- `DatabaseConstraint` and `QueryConstraint`, whose constructors set both actions to `restrict`. -/
structure Constraint where
  viewType : ViewType
  name : Text := []
  localColumns : List Text := []
  refColumns : List Text := []
  localColumn : Text
  refColumn : Text
  refTable : Text
  fkTable : Text
  pgMatch : Option ℤ := none
  onUpdate : ConstraintAction := .restrict
  onDelete : ConstraintAction := .restrict
  deriving DecidableEq, Repr

namespace Constraint

def switchOnUpdate (c : Constraint) : FkOnUpdate → Constraint
  | .restrict => { c with onUpdate := .restrict }
  | .setNull => { c with onUpdate := .setNull }
  | .setDefault => { c with onUpdate := .cascade }
  | .cascade => { c with onUpdate := .cascade }
  | .noAction => { c with onUpdate := .noAction }

/-- The switch on the delete rule calls `SetOnUpdate` in every case. -/
def switchOnDelete (c : Constraint) : FkOnDelete → Constraint
  | .restrict => { c with onUpdate := .restrict }
  | .setNull => { c with onUpdate := .setNull }
  | .setDefault => { c with onUpdate := .cascade }
  | .cascade => { c with onUpdate := .cascade }
  | .noAction => { c with onUpdate := .noAction }

end Constraint

/-- An `ErdForeignKey` line: its end points are the places of two tables in the document. -/
structure Connection where
  source : ℕ
  target : ℕ
  constraint : Constraint
  deriving DecidableEq, Repr

/-- `MyErdTable`; its shape has a manager once it was added to the diagram. -/
structure ErdTable where
  table : DatabaseTable
  inDiagram : Bool := false

def ErdTable.addKey (key : ℕ) (fields : List FKField) (t : ErdTable) : ErdTable :=
  { t with table := { t.table with
      foreignKeys := t.table.foreignKeys.upsert key fun old => old.getD [] ++ fields } }

inductive Fault
  | nullManager
  | nullTable
  | outOfRange
  deriving DecidableEq, Repr

structure Canvas where
  view : ViewType
  tables : List ErdTable
  connections : List Connection
  whereRelations : List Text

namespace Canvas

def empty (view : ViewType) : Canvas := ⟨view, [], [], []⟩

def addTables (c : Canvas) (tables : List DatabaseTable) : Canvas :=
  { c with tables := c.tables ++ tables.map (⟨·, false⟩) }

end Canvas

def showTables (names : List Text) : List ErdTable → List ErdTable
  | [] => []
  | t :: ts =>
    if t.table.tableName ∈ names then t :: showTables names ts
    else { t with inDiagram := true } :: showTables (t.table.tableName :: names) ts

/-- `m_displayedTables`: tables are added to it in the order of the document. -/
def displayedTables (tables : List ErdTable) : List ErdTable := tables.filter (·.inDiagram)

def displayedNames (tables : List ErdTable) : List Text := (displayedTables tables).map (·.table.tableName)

def displayedAt (tables : List ErdTable) (place : ℕ) : Bool := (tables[place]?).any (·.inDiagram)

def displayedPlace (tables : List ErdTable) (name : Text) : Option ℕ :=
  tables.findIdx? fun t => t.inDiagram && t.table.tableName = name

def referencedTable (tables : List ErdTable) (name : Text) : Option ℕ :=
  tables.findIdx? fun t => t.table.tableName = name

structure Reference where
  place : ℕ
  tableName : Text
  field : FKField
  deriving DecidableEq, Repr

def referencesFrom (place : ℕ) : List ErdTable → List Reference
  | [] => []
  | t :: ts => t.table.foreignKeys.values.flatten.map (⟨place, t.table.tableName, ·⟩) ++ referencesFrom (place + 1) ts

def references (tables : List ErdTable) : List Reference := referencesFrom 0 tables

def quoted (name : Text) : Text := '"' :: name ++ ['"']

def relation (r : Reference) : Text :=
  quoted r.field.refTable ++ '.' :: quoted r.field.referencedField ++ " = ".toList ++ quoted r.tableName ++ '.' ::
    quoted r.field.originalField

def fieldConstraint (view : ViewType) (r : Reference) : Constraint :=
  match view with
  | .queryView =>
    { viewType := .queryView, localColumn := r.field.originalField, refColumn := r.field.referencedField,
      refTable := r.field.refTable, fkTable := r.tableName }
  | .databaseView =>
    { viewType := .databaseView, name := r.field.fkName, localColumns := r.field.origFields,
      refColumns := r.field.refFields, localColumn := r.field.originalField,
      refColumn := r.field.referencedField, refTable := r.field.refTable, fkTable := r.tableName,
      pgMatch := some r.field.matchOption }

def createConnection (tables : List ErdTable) (source : ℕ) (refTable : Text) (constraint : Constraint) :
    Except Fault Connection :=
  if displayedAt tables source then
    match referencedTable tables refTable with
    | some target => .ok ⟨source, target, constraint⟩
    | none => .error .nullTable
  else .error .nullManager

/-- The rules and the end points are those of the first field, for every field of the key. -/
def keyConstraint (fkTable : Text) (first field : FKField) : Constraint :=
  (({ viewType := .databaseView, name := field.fkName, localColumn := field.originalField,
      refColumn := field.referencedField, refTable := field.refTable, fkTable := fkTable,
      pgMatch := some field.matchOption } : Constraint).switchOnUpdate first.updateConstraint).switchOnDelete
    first.deleteConstraint

def whereText : Text := "\nWHERE ".toList

def andText : Text := " AND\r      ".toList

structure Pass where
  query : Text
  relations : List Text
  connections : List Connection
  found : Bool := false
  secondIteration : Bool := false

def drawField (view : ViewType) (tables : List ErdTable) (selections : List Text) (p : Pass) (r : Reference) :
    Except Fault Pass :=
  if r.field.refTable ∈ selections then do
    let secondIteration := p.secondIteration || p.found
    let query := if p.found then p.query else p.query ++ whereText
    let query :=
      if view = .queryView then (if secondIteration then query ++ andText else query) ++ relation r else query
    let relations := if view = .queryView then p.relations ++ [relation r] else p.relations
    let constraint :=
      ((fieldConstraint view r).switchOnUpdate r.field.updateConstraint).switchOnDelete r.field.deleteConstraint
    let connection ← createConnection tables r.place r.field.refTable constraint
    pure ⟨query, relations, p.connections ++ [connection], true, secondIteration⟩
  else pure p

def select (selections names : List Text) : List Text :=
  names.foldl (fun s name => if name ∈ s then s else s ++ [name]) selections

def fromTables (view : ViewType) (names : List Text) : Text :=
  if view = .queryView then ",\r     ".toList.intercalate (names.map quoted) else []

namespace Canvas

def displayTables (c : Canvas) (selections : List Text) (query : Text) :
    Except Fault (Canvas × List Text × Text) := do
  let tables := showTables (displayedNames c.tables) c.tables
  let selections := select selections (displayedNames tables)
  let query := query ++ fromTables c.view (displayedNames tables)
  let p ← (references tables).foldlM (drawField c.view tables selections)
    ⟨query, c.whereRelations, c.connections, false, false⟩
  pure (⟨c.view, tables, p.connections, p.relations⟩, selections, p.query ++ [';'])

/-- `ApplyForeignKey` puts the fields of a new key into the map of the table before the view draws them. -/
def recordForeignKey (c : Canvas) (place key : ℕ) (fields : List FKField) : Canvas :=
  { c with tables := c.tables.modify place (·.addKey key fields) }

def createFKConstraint (c : Canvas) (fkTable : Text) (fields : List FKField) : Except Fault Canvas :=
  match fields with
  | [] => if displayedTables c.tables = [] then .ok c else .error .outOfRange
  | first :: _ =>
    match displayedPlace c.tables first.refTable with
    | none => .ok c
    | some place =>
      if c.view = .databaseView then do
        let drawn ← fields.mapM fun field =>
          createConnection c.tables place first.refTable (keyConstraint fkTable first field)
        pure { c with connections := c.connections ++ drawn }
      else .ok c

end Canvas

inductive Call
  | addTables (tables : List DatabaseTable)
  | displayTables (selections : List Text) (query : Text)
  | createForeignKey (place key : ℕ) (fields : List FKField)

def Canvas.call (c : Canvas) : Call → Except Fault Canvas
  | .addTables tables => .ok (c.addTables tables)
  | .displayTables selections query => Prod.fst <$> c.displayTables selections query
  | .createForeignKey place key fields =>
    (c.recordForeignKey place key fields).createFKConstraint
      ((c.tables[place]?).elim [] (·.table.tableName)) fields

abbrev World := Except Fault Canvas

def step : World → Call → Option World
  | .ok c, call => some (c.call call)
  | .error _, _ => none

end DbHandler.Diagram
