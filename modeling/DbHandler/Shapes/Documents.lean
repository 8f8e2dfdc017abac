import DbHandler.Shapes.DiagramManager
import DbHandler.Shapes.PropertyIO

namespace DbHandler.Shapes

open Foundation

/-- What `wxCreateDynamicObject` can make of a class name that it knows; such an object has no children. -/
inductive ShapeClass
  | line
  | grid
  | other
  deriving DecidableEq, Repr

def ShapeClass.blank : ShapeClass → Kind
  | .line => .line (-1) (-1)
  | .grid => .grid []
  | .other => .other

namespace Shape

def idName : Text := "id".toList
def sourceName : Text := "source".toList
def targetName : Text := "target".toList
def cellsName : Text := "cells".toList

/-- `MarkSerializableDataMembers`: what the manager works with, of all that a shape has. -/
def properties (s : Shape) : List Property :=
  { fieldName := idName, value := .long s.id } :: match s.kind with
    | .line source target =>
      [{ fieldName := sourceName, value := .long source, defaultValueStr := "-1".toList },
        { fieldName := targetName, value := .long target, defaultValueStr := "-1".toList }]
    | .grid cells => [{ fieldName := cellsName, value := .arrayint cells }]
    | .other => []

def getLong (name : Text) (properties : List Property) : ℤ :=
  match properties.find? (·.fieldName = name) with
  | some { value := .long n, .. } => n
  | _ => 0

def getInts (name : Text) (properties : List Property) : List ℤ :=
  match properties.find? (·.fieldName = name) with
  | some { value := .arrayint ns, .. } => ns
  | _ => []

/-- The source variables of the properties. -/
def withProperties (properties : List Property) (s : Shape) : Shape :=
  { s with
    id := getLong idName properties
    kind := match s.kind with
      | .line _ _ => .line (getLong sourceName properties) (getLong targetName properties)
      | .grid _ => .grid (getInts cellsName properties)
      | .other => .other }

def objectName : Text := "object".toList

def objectElement (className : Text) : Element where
  name := objectName
  attributes := [("type".toList, className)]

def deserializeObject (below : Forest Element) (s : Shape) : Shape :=
  s.withProperties (Serializable.deserialize below [] s.properties)

end Shape

/-- `SerializeObjects`: a shape that is not serialized is left out with all that is under it. -/
def serializeObjects : Forest Shape → Forest Element
  | .nil => .nil
  | .node s below next =>
    if s.serialized then
      .node (Shape.objectElement s.className) ((Serializable.serialize s.properties).append (serializeObjects below))
        (serializeObjects next)
    else serializeObjects next

/-- The state of `_DeserializeObjects`; new objects get one address after another. -/
structure Loading where
  manager : DiagramManager
  next : ℕ
  idPairs : List (ℤ × ℤ) := []
  linesForUpdate : List ℕ := []
  gridsForUpdate : List ℕ := []

namespace Loading

variable (create : Text → Option ShapeClass)

/-- What `_DeserializeObjects` does with a shape that `AddShape` took: its content is read, the id that comes with it
is noted down, and it keeps the id it had been given. -/
def readObject (address : ℕ) (created : Shape) (below : Forest Element) (l : Loading) : Loading :=
  { l with
    manager := { l.manager with
      children := l.manager.children.map fun s =>
        if DiagramManager.located address s then { created.deserializeObject below with id := created.id } else s
      usedIDs := if created.id = (created.deserializeObject below).id then l.manager.usedIDs
        else l.manager.usedIDs.insert created.id (some address) }
    idPairs := if created.id = (created.deserializeObject below).id then l.idPairs
      else l.idPairs ++ [((created.deserializeObject below).id, created.id)]
    linesForUpdate := if created.isLine then l.linesForUpdate ++ [address] else l.linesForUpdate
    gridsForUpdate := match created.kind with
      | .grid _ => l.gridsForUpdate ++ [address]
      | _ => l.gridsForUpdate }

def newObject (l : Loading) (type : Text) (cls : ShapeClass) : Shape where
  address := l.next
  className := type
  kind := cls.blank

def typeOf (e : Element) : Text := (e.attribute "type".toList).getD []

/-- The shape that `AddShape` takes, or none. -/
def acceptable (l : Loading) (e : Element) (parent : Option ℕ) : Option Shape :=
  ((create (typeOf e)).map (l.newObject (typeOf e))).filter fun s => l.manager.accepts { shape := s } parent

def addObject (l : Loading) (s : Shape) (below : Forest Element) (parent : Option ℕ) : Except Fault Loading :=
  (l.manager.addShape { shape := s } parent).map fun m =>
    readObject s.address { s with id := l.manager.usedIDs.assignedId s } below
      { l with manager := m, next := l.next + 1 }

/-- `RemoveAll`, and the lists that go with it; the pairs of ids stay. -/
def abandon (l : Loading) : Loading :=
  { l with manager := l.manager.clear, linesForUpdate := [], gridsForUpdate := [] }

/-- `_DeserializeObjects`. A shape that is not accepted ends the loop over the nodes of its own level only. -/
def load : Forest Element → Option ℕ → Loading → Except Fault Loading
  | .nil, _, l => .ok l
  | .node e below next, parent, l =>
    if e.name = Shape.objectName then
      match l.acceptable create e parent with
      | none => .ok l.abandon
      | some s => (l.addObject s below parent).bind fun l => (load below (some s.address) l).bind fun l => load next parent l
    else load next parent l

def renamed (idPairs : List (ℤ × ℤ)) (id : ℤ) : ℤ :=
  idPairs.foldl (fun new pair => if pair.1 = id then pair.2 else new) id

def updateConnection (idPairs : List (ℤ × ℤ)) (m : DiagramManager) (line : ℕ) : Except Fault DiagramManager :=
  match m.children.find (DiagramManager.located line) with
  | some ({ kind := .line source target, .. }, _) =>
    if (m.getItem (renamed idPairs source)).isSome ∧ (m.getItem (renamed idPairs target)).isSome then
      .ok (DiagramManager.setEnds line (renamed idPairs source) (renamed idPairs target) m)
    else (DiagramManager.setEnds line (renamed idPairs source) (renamed idPairs target) m).removeItem line
  | _ => .error (.dangling line)

/-- The array is searched for the old id of each pair in turn, and the first place that has it gets the new one. -/
def replaceCells (idPairs : List (ℤ × ℤ)) (cells : List ℤ) : List ℤ :=
  idPairs.foldl (fun cells pair => if pair.1 ∈ cells then cells.set (cells.idxOf pair.1) pair.2 else cells) cells

def updateGrid (idPairs : List (ℤ × ℤ)) (m : DiagramManager) (grid : ℕ) : Except Fault DiagramManager :=
  match m.children.find (DiagramManager.located grid) with
  | some ({ kind := .grid cells, .. }, _) => .ok { m with
      children := m.children.map fun s =>
        if DiagramManager.located grid s then
          { s with kind := .grid ((replaceCells idPairs cells).filter fun id => (m.getItem id).isSome) }
        else s }
  | _ => .error (.dangling grid)

end Loading

namespace DiagramManager

variable (create : Text → Option ShapeClass)

/-- `DeserializeObjects` at the root item: the manager, and the address that the next new object gets. -/
def deserializeObjects (document : Forest Element) (m : DiagramManager) (next : ℕ) : Except Fault (DiagramManager × ℕ) :=
  (Loading.load create document none { manager := m, next := next }).bind fun l =>
    (l.linesForUpdate.foldlM (Loading.updateConnection l.idPairs) l.manager).bind fun m =>
      (l.gridsForUpdate.foldlM (Loading.updateGrid l.idPairs) m).map fun m => (m, l.next)

def rootName : Text := "chart".toList

def serializeToXml (m : DiagramManager) : Forest Element :=
  .single { name := rootName, attributes := [("owner".toList, "wxShapeFramework".toList), ("version".toList, "1.0".toList)] }
    (serializeObjects m.children)

/-- `DeserializeFromXml` of a stream: the file is refused if its root is no chart. -/
def deserializeFromXml (document : Forest Element) (m : DiagramManager) (next : ℕ) :
    Except Fault (DiagramManager × ℕ) :=
  match document with
  | .node e below _ =>
    if e.name = rootName then
      (deserializeObjects create below m next).map fun loaded => ({ loaded.1 with modified := false }, loaded.2)
    else .ok (m, next)
  | .nil => .ok (m, next)

end DiagramManager

end DbHandler.Shapes
