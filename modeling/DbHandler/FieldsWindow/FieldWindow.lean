import Mathlib.Data.List.Infix
import DbHandler.Foundation.Rectangles
import DbHandler.Interface

namespace DbHandler.FieldsWindow

open Foundation.Rectangles

/-- A shape of the window's manager; `shape` is a number that no other shape of the window has. -/
structure FieldWin where
  shape : ℕ
  fieldName : Text
  box : Rect
  deriving DecidableEq, Repr

/-- `shuffled` records the lists that `wxEVT_FIELD_SHUFFLED` announced, `created` counts the shapes. -/
structure FieldWindow where
  startPoint : Point := ⟨10, 10⟩
  manager : List FieldWin := []
  created : ℕ := 0
  isDragging : Bool := false
  draggingField : Option FieldWin := none
  initialDraggerPosition : Rect := ⟨0, 0, 0, 0⟩
  selectedFields : List Text := []
  shuffled : List (List Text) := []
  deriving DecidableEq, Repr

inductive Direction
  | uninitialized
  | before
  | after
  deriving DecidableEq, Repr

/-- `shapeMiddle`; the division is that of C++. -/
def middle (r : Rect) : ℤ := (r.right - r.left).tdiv 2 + r.left

def direction (pos : Point) (shape : Rect) : Direction :=
  if middle shape < pos.x ∧ pos.x < shape.right + 5 then .after
  else if pos.x < middle shape ∧ shape.left - 5 < pos.x then .before
  else .uninitialized

/-- The half that was hit faces the place at which the dragged field stood. -/
def AlreadyThere (pos : Point) (shape dragger : Rect) : Prop :=
  (shape.left < pos.x ∧ pos.x < middle shape ∧ dragger.right + 6 = shape.left) ∨
    (pos.x < shape.right ∧ middle shape < pos.x ∧ shape.right + 6 = dragger.left)

instance (pos : Point) (shape dragger : Rect) : Decidable (AlreadyThere pos shape dragger) := by
  unfold AlreadyThere
  infer_instance

/-- `insert` at an iterator, undefined outside the vector. -/
def insertAt (it : ℤ) (field : Text) (fields : List Text) : Option (List Text) :=
  if 0 ≤ it ∧ it ≤ fields.length then some (fields.insertIdx it.toNat field) else none

namespace FieldWindow

/-- The last shape that was added is the topmost. -/
def shapeAtPosition (pos : Point) (w : FieldWindow) : Option FieldWin := w.manager.reverse.find? (·.box.Contains pos)

def clear (w : FieldWindow) : FieldWindow := { w with manager := [], startPoint := ⟨10, 10⟩ }

def onMouseMove (dragging : Bool) (pos : Point) (w : FieldWindow) : FieldWindow :=
  if dragging then
    let w := match w.draggingField, w.shapeAtPosition pos with
      | none, some shape => { w with draggingField := some shape, initialDraggerPosition := shape.box }
      | _, _ => w
    if w.draggingField.isSome then { w with isDragging := true } else w
  else w

/-- `m_draggingField` where it can be dereferenced: it may be null, or its shape deleted. -/
def dragged (w : FieldWindow) : Option FieldWin := w.draggingField.filter (· ∈ w.manager)

/-- What `OnLeftUp` does at the end of a drop. -/
def finish (w : FieldWindow) : FieldWindow :=
  { w with shuffled := w.shuffled ++ [w.selectedFields], isDragging := false, draggingField := none }

section Extent

/-! The size of a field's bounding box comes from its text. -/

variable (extent : Text → ℕ × ℕ)

def addShape (fieldName : Text) (w : FieldWindow) : FieldWindow :=
  let box : Rect := ⟨w.startPoint.x, w.startPoint.y, (extent fieldName).1, (extent fieldName).2⟩
  { w with manager := w.manager ++ [⟨w.created, fieldName, box⟩], created := w.created + 1 }

def showField (fieldName : Text) (w : FieldWindow) : FieldWindow :=
  { w.addShape extent fieldName with
    startPoint := { w.startPoint with x := w.startPoint.x + (extent fieldName).1 + 5 } }

def addField (fieldName : Text) (w : FieldWindow) : FieldWindow :=
  { w.showField extent fieldName with selectedFields := w.selectedFields ++ [fieldName] }

def restart (w : FieldWindow) : FieldWindow := { w with manager := [], startPoint := { w.startPoint with x := 10 } }

def removeField (names : List Text) (w : FieldWindow) : FieldWindow :=
  names.foldl (fun w name => w.addField extent name) { w.restart with selectedFields := [] }

/-- The loop over `m_selectedFields` in `OnLeftUp`. -/
def showAll (names : List Text) (w : FieldWindow) : FieldWindow :=
  names.foldl (fun w name => w.showField extent name) w.restart

/-- A drop on empty space; the start point stays where the last field begins. -/
def dropAtEnd (field : Text) (w : FieldWindow) : FieldWindow :=
  let fields := w.selectedFields.filter (· ≠ field)
  { (w.showAll extent fields).addShape extent field with selectedFields := fields ++ [field] }

def dropOn (field : Text) (shape : FieldWin) (pos : Point) (w : FieldWindow) : Option FieldWindow :=
  let fields := w.selectedFields.filter (· ≠ field)
  let it : ℤ := fields.idxOf shape.fieldName
  let inserted := match direction pos shape.box with
    | .after => insertAt (it + 1) field fields
    | .before => insertAt (it - 1) field fields
    | .uninitialized => some fields
  inserted.map fun fields => { w.showAll extent fields with selectedFields := fields }

def onLeftUp (pos : Point) (w : FieldWindow) : Option FieldWindow :=
  if w.draggingField = none ∧ (w.shapeAtPosition pos).isSome then some w
  else if w.isDragging then
    w.dragged.bind fun field =>
      match w.shapeAtPosition pos with
      | none => w.selectedFields.getLast?.map fun last =>
        if field.fieldName = last then w else (w.dropAtEnd extent field.fieldName).finish
      | some shape =>
        if AlreadyThere pos shape.box w.initialDraggerPosition then some w
        else (w.dropOn extent field.fieldName shape pos).map finish
  else some w

end Extent

end FieldWindow

/-- A gesture is any number of moves with the button down, and its release. -/
inductive WindowEvent
  | addField (fieldName : Text)
  | removeField (names : List Text)
  | clear
  | gesture (moves : List Point) (release : Point)
  deriving DecidableEq, Repr

namespace FieldWindow

def step (extent : Text → ℕ × ℕ) (w : FieldWindow) : WindowEvent → Option FieldWindow
  | .addField fieldName => some (w.addField extent fieldName)
  | .removeField names => some (w.removeField extent names)
  | .clear => some w.clear
  | .gesture moves release => (moves.foldl (fun w pos => w.onMouseMove true pos) w).onLeftUp extent release

variable {extent : Text → ℕ × ℕ} {w : FieldWindow}

section Show

/-- The shapes stand from left to right as they were added, and the start point is behind them. -/
structure InOrder (w : FieldWindow) : Prop where
  shapes : w.manager.Pairwise (·.box.x < ·.box.x)
  start : ∀ shape ∈ w.manager, shape.box.x < w.startPoint.x

theorem inOrder_restart (w : FieldWindow) : InOrder w.restart := ⟨.nil, by simp [restart]⟩

theorem InOrder.addShape (h : InOrder w) (fieldName : Text) :
    (w.addShape extent fieldName).manager.Pairwise (·.box.x < ·.box.x) := by
  rw [FieldWindow.addShape, List.pairwise_append]
  refine ⟨h.shapes, List.pairwise_singleton .., fun shape hshape added hadded => ?_⟩
  obtain rfl := List.mem_singleton.mp hadded
  exact h.start shape hshape

theorem InOrder.showField (h : InOrder w) (fieldName : Text) : InOrder (w.showField extent fieldName) where
  shapes := h.addShape fieldName
  start shape hshape := by
    change shape ∈ w.manager ++ [_] at hshape
    change shape.box.x < w.startPoint.x + (extent fieldName).1 + 5
    rcases List.mem_append.mp hshape with hold | hnew
    · have hbefore := h.start shape hold
      omega
    · obtain rfl := List.mem_singleton.mp hnew
      dsimp only
      omega

structure Shows (w v : FieldWindow) (names : List Text) : Prop where
  inOrder : InOrder v
  names : v.manager.map (·.fieldName) = w.manager.map (·.fieldName) ++ names
  isDragging : v.isDragging = w.isDragging
  draggingField : v.draggingField = w.draggingField

theorem addShape_names (fieldName : Text) (w : FieldWindow) :
    (w.addShape extent fieldName).manager.map (·.fieldName) = w.manager.map (·.fieldName) ++ [fieldName] := by
  simp [FieldWindow.addShape]

theorem InOrder.shows (h : InOrder w) (fieldName : Text) : Shows w (w.showField extent fieldName) [fieldName] :=
  ⟨h.showField fieldName, addShape_names fieldName w, rfl, rfl⟩

theorem Shows.trans {u v : FieldWindow} {names more : List Text} (h : Shows u v names) (hmore : Shows v w more) :
    Shows u w (names ++ more) where
  inOrder := hmore.inOrder
  names := by rw [hmore.names, h.names, List.append_assoc]
  isDragging := hmore.isDragging.trans h.isDragging
  draggingField := hmore.draggingField.trans h.draggingField

theorem InOrder.shows_foldl {place : Text → FieldWindow → FieldWindow}
    (hshow : ∀ name w, InOrder w → Shows w (place name w) [name]) (h : InOrder w) (names : List Text) :
    Shows w (names.foldl (fun w name => place name w) w) names := by
  induction names generalizing w with
  | nil => exact ⟨h, by simp, rfl, rfl⟩
  | cons name names ih =>
    have hfirst := hshow name w h
    exact hfirst.trans (ih hfirst.inOrder)

theorem showAll_shows (names : List Text) (w : FieldWindow) : Shows w.restart (w.showAll extent names) names :=
  (inOrder_restart w).shows_foldl (fun name _ h => h.shows name) names

theorem InOrder.shows_addField (h : InOrder w) (fieldName : Text) : Shows w (w.addField extent fieldName) [fieldName] :=
  ⟨⟨(h.shows fieldName).inOrder.shapes, (h.shows fieldName).inOrder.start⟩, addShape_names fieldName w, rfl, rfl⟩

theorem foldl_addField_selectedFields (names : List Text) (w : FieldWindow) :
    (names.foldl (fun w name => w.addField extent name) w).selectedFields = w.selectedFields ++ names := by
  induction names generalizing w with
  | nil => simp
  | cons name names ih =>
    rw [List.foldl_cons, ih]
    exact List.append_assoc _ _ _

theorem removeField_shows (names : List Text) (w : FieldWindow) :
    Shows w.restart (w.removeField extent names) names := by
  have hempty : InOrder { w.restart with selectedFields := [] } := ⟨.nil, by simp [restart]⟩
  have hadd (name : Text) (v : FieldWindow) (h : InOrder v) : Shows v (v.addField extent name) [name] :=
    h.shows_addField name
  have hshows := hempty.shows_foldl hadd names
  exact ⟨hshows.inOrder, hshows.names, hshows.isDragging, hshows.draggingField⟩

theorem removeField_selectedFields (names : List Text) (w : FieldWindow) :
    (w.removeField extent names).selectedFields = names :=
  (foldl_addField_selectedFields names _).trans (List.nil_append names)

end Show

end FieldWindow

end DbHandler.FieldsWindow
