import DbHandler.Foundation.Forest
import DbHandler.Foundation.Numbering
import DbHandler.Interface
import Mathlib.Data.List.AList

namespace DbHandler.Shapes

open Foundation

inductive Kind
  | line (source target : ℤ)
  | grid (cells : List ℤ)
  | other
  deriving DecidableEq, Repr

/-- A shape in memory; its id is -1 until the manager gives it one. -/
structure Shape where
  address : ℕ
  id : ℤ := -1
  className : Text
  kind : Kind := .other
  serialized : Bool := true
  deriving DecidableEq, Repr

def Shape.isLine (s : Shape) : Bool :=
  match s.kind with
  | .line _ _ => true
  | _ => false

inductive ConnectMode
  | lineStarting
  | lineEnding
  | lineBoth
  deriving DecidableEq, Repr

def Shape.assigned (mode : ConnectMode) (parent : ℤ) (s : Shape) : Bool :=
  match s.kind, mode with
  | .line source _, .lineStarting => source = parent
  | .line _ target, .lineEnding => target = parent
  | .line source target, .lineBoth => source = parent || target = parent
  | _, _ => false

/-- `m_mapUsedIDs`: the root item is `none`, a shape is known by its address. -/
abbrev UsedIDs := AList fun _ : ℤ => Option ℕ

namespace UsedIDs

def getNewId (used : UsedIDs) : ℤ := Numbering.firstFree used.keys used.keys.length 1

def assignedId (used : UsedIDs) (s : Shape) : ℤ := if s.id = -1 then used.getNewId else s.id

def indexed (used : UsedIDs) (s : Shape) : UsedIDs := used.insert (used.assignedId s) (some s.address)

def indexAll (used : UsedIDs) (shapes : List Shape) : UsedIDs := shapes.foldl indexed used

def assignAll (used : UsedIDs) : List Shape → List Shape
  | [] => []
  | s :: shapes => { s with id := used.assignedId s } :: assignAll (used.indexed s) shapes

def eraseAll (used : UsedIDs) (ids : List ℤ) : UsedIDs := ids.foldl (fun used id => used.erase id) used

end UsedIDs

structure DiagramManager where
  children : Forest Shape
  usedIDs : UsedIDs
  acceptedShapes : List Text
  acceptedTopShapes : List Text
  modified : Bool

inductive Fault
  | dangling (address : ℕ)
  | circular
  deriving DecidableEq, Repr

/-- A shape that is handed to the manager with the shapes under it. Where the manager was passed to
its constructor, the shapes under it were initialised one after another as they were added. -/
structure NewShape where
  shape : Shape
  below : Forest Shape := .nil
  managed : Bool := false

namespace NewShape

def items (n : NewShape) : List Shape := n.shape :: n.below.items

/-- The shapes that get an id and an entry in the index, in the order of `InitChild`. -/
def initialised (n : NewShape) : List Shape :=
  if n.managed then (if n.shape.id = -1 then [] else [n.shape]) ++ n.below.branches else n.shape :: n.below.levels

def identify (assigned : List Shape) (s : Shape) : Shape := (assigned.find? fun t => t.address = s.address).getD s

def tree (used : UsedIDs) (n : NewShape) : Forest Shape :=
  (Forest.single n.shape n.below).map (identify (used.assignAll n.initialised))

end NewShape

namespace DiagramManager

def rootOnly : UsedIDs := AList.singleton (-1) none

def anyShape : Text := "All".toList

def new : DiagramManager := ⟨.nil, rootOnly, [anyShape], [anyShape], false⟩

def items (m : DiagramManager) : List Shape := m.children.items

def isAccepted (accepted : List Text) (type : Text) : Bool := type ∈ accepted || anyShape ∈ accepted

def isShapeAccepted (m : DiagramManager) (type : Text) : Bool := isAccepted m.acceptedShapes type

def isTopShapeAccepted (m : DiagramManager) (type : Text) : Bool := isAccepted m.acceptedTopShapes type

def located (address : ℕ) (s : Shape) : Bool := s.address = address

/-- The constructor of a refused shape may have indexed it: its destructor takes the entries out again. -/
def discard (m : DiagramManager) (n : NewShape) : DiagramManager :=
  if n.managed then
    { m with usedIDs := (m.usedIDs.indexAll n.initialised).eraseAll ((n.tree m.usedIDs).items.map (·.id)) }
  else m

/-- `AddItem`, with the root item for no parent. -/
def addItem (m : DiagramManager) (n : NewShape) : Option ℕ → Except Fault DiagramManager
  | none => .ok { m with
      children := m.children.append (n.tree m.usedIDs)
      usedIDs := m.usedIDs.indexAll n.initialised }
  | some parent =>
    if m.items.any (located parent) then
      .ok { m with
        children := m.children.hang (located parent) (n.tree m.usedIDs)
        usedIDs := m.usedIDs.indexAll n.initialised }
    else .error (.dangling parent)

def accepts (m : DiagramManager) (n : NewShape) (parent : Option ℕ) : Bool :=
  m.isShapeAccepted n.shape.className && (parent.isSome || m.isTopShapeAccepted n.shape.className)

def addShape (m : DiagramManager) (n : NewShape) (parent : Option ℕ) : Except Fault DiagramManager :=
  if m.accepts n parent then (m.addItem n parent).map fun m => { m with modified := true } else .ok (m.discard n)

/-- `SetSrcShapeId` and `SetTrgShapeId` of the line at an address. -/
def setEnds (address : ℕ) (source target : ℤ) (m : DiagramManager) : DiagramManager :=
  { m with children := m.children.map fun s => if located address s then { s with kind := .line source target } else s }

def createConnection (m : DiagramManager) (source target : ℤ) (line : NewShape) : Except Fault DiagramManager :=
  if m.accepts line none then (m.addShape line none).map (setEnds line.shape.address source target)
  else m.addShape line none

def getItem (m : DiagramManager) (id : ℤ) : Option (Option ℕ) := m.usedIDs.lookup id

def findShape (m : DiagramManager) (id : ℤ) : Option ℕ := if id = -1 then none else (m.getItem id).join

/-- Lines are children of the root item only. -/
def assignedConnections (m : DiagramManager) (mode : ConnectMode) (parent : Shape) : List Shape :=
  if parent.id = -1 then [] else m.children.roots.filter (·.assigned mode parent.id)

def removeItem (m : DiagramManager) (address : ℕ) : Except Fault DiagramManager :=
  match m.children.find (located address) with
  | none => .error (.dangling address)
  | some (s, below) => .ok { m with
      children := m.children.prune (located address)
      usedIDs := m.usedIDs.eraseAll ((s :: below.items).map (·.id)) }

/-- The loop over the connections: `lstRemovedConnections` are the ones it has been at. -/
def removeConnections (remove : DiagramManager → ℕ → Except Fault DiagramManager) :
    List ℕ → List ℕ → DiagramManager → Except Fault DiagramManager
  | [], _, m => .ok m
  | line :: lines, removed, m =>
    if line ∈ removed then removeConnections remove lines removed m
    else (remove m line).bind fun m => removeConnections remove lines (removed ++ [line]) m

def connectionsOf (m : DiagramManager) (s : Shape) (below : Forest Shape) : List ℕ :=
  (below.levels ++ [s]).flatMap fun t => (m.assignedConnections .lineBoth t).map (·.address)

/-- The fuel bounds how deep the calls nest: deeper than there are shapes, one is under way twice. -/
def removeNested : ℕ → DiagramManager → ℕ → Except Fault DiagramManager
  | 0, _, _ => .error .circular
  | fuel + 1, m, address =>
    match m.children.find (located address) with
    | none => .error (.dangling address)
    | some (s, below) =>
      (removeConnections (removeNested fuel) (m.connectionsOf s below) [] m).bind fun m =>
        (m.removeItem address).map fun m => { m with modified := true }

def removeShape (m : DiagramManager) (address : ℕ) : Except Fault DiagramManager :=
  removeNested (m.items.length + 1) m address

def removeShapes (m : DiagramManager) : List ℕ → Except Fault DiagramManager
  | [] => .ok m
  | address :: selection =>
    if m.items.any (located address) then (m.removeShape address).bind fun m => m.removeShapes selection
    else m.removeShapes selection

/-- `RemoveChildren` of one item. -/
def removeChildren (m : DiagramManager) (address : ℕ) : Except Fault DiagramManager :=
  match m.children.find (located address) with
  | none => .error (.dangling address)
  | some (_, below) => .ok { m with
      children := m.children.prune fun s => below.roots.any (located s.address)
      usedIDs := m.usedIDs.eraseAll (below.items.map (·.id)) }

def clear (m : DiagramManager) : DiagramManager := { m with children := .nil, usedIDs := rootOnly }

end DiagramManager

end DbHandler.Shapes
