import DbHandler.FieldsWindow.FieldWindow
import DbHandler.Foundation.Neighbours
import DbHandler.Foundation.Runs
import DbHandler.Foundation.Vectors

namespace DbHandler.FieldsWindow.FieldWindow

open Foundation Foundation.Runs Foundation.Rectangles

variable {extent : Text → ℕ × ℕ} {w v : FieldWindow} {field shape : FieldWin} {moves : List Point} {release : Point}

/-- The shapes of the window, sorted from left to right, show these fields. -/
def ShownFromLeft (w : FieldWindow) (names : List Text) : Prop :=
  ∃ shapes : List FieldWin, shapes.Perm w.manager ∧ shapes.Pairwise (·.box.x < ·.box.x) ∧
    shapes.map (·.fieldName) = names

structure Arranged (w : FieldWindow) : Prop where
  distinct : w.selectedFields.Nodup
  shown : ShownFromLeft w w.selectedFields
  notDragging : w.isDragging = false
  nothing : w.draggingField = none

/-- The field that a gesture drags: the first one that a move hits. -/
def grabbed (w : FieldWindow) (moves : List Point) : Option FieldWin := moves.findSome? w.shapeAtPosition

/-- What a gesture is for. In its exact middle a field counts to both halves. -/
def Dropped (w : FieldWindow) (moves : List Point) (release : Point) (next : List Text) : Prop :=
  match w.grabbed moves with
  | none => next = w.selectedFields
  | some field =>
    next.Perm w.selectedFields ∧
      next.filter (· ≠ field.fieldName) = w.selectedFields.filter (· ≠ field.fieldName) ∧
      match w.shapeAtPosition release with
      | none => next.getLast? = some field.fieldName
      | some shape => shape.fieldName ≠ field.fieldName →
        (release.x ≤ middle shape.box ∧ [field.fieldName, shape.fieldName] <:+: next) ∨
          (middle shape.box ≤ release.x ∧ [shape.fieldName, field.fieldName] <:+: next)

def Moved (w : FieldWindow) (e : WindowEvent) (next : FieldWindow) : Prop :=
  match e with
  | .gesture moves release => Dropped w moves release next.selectedFields
  | _ => True

def ReleasedRight (w : FieldWindow) (moves : List Point) (release : Point) : Prop :=
  match w.grabbed moves with
  | none => True
  | some field =>
    match w.shapeAtPosition release with
    | none => w.selectedFields.getLast? ≠ some field.fieldName
    | some shape =>
      if shape.fieldName = field.fieldName then release.x < middle shape.box ∧ 2 ≤ w.selectedFields.length
      else middle shape.box < release.x ∧ ¬ (release.x < shape.box.right ∧ shape.box.right + 6 = field.box.left)

instance (w : FieldWindow) (moves : List Point) (release : Point) : Decidable (w.ReleasedRight moves release) := by
  unfold ReleasedRight
  cases w.grabbed moves with
  | none => exact isTrue trivial
  | some field => cases w.shapeAtPosition release <;> infer_instance

def Meets (w : FieldWindow) : WindowEvent → Prop
  | .addField fieldName => fieldName ∉ w.selectedFields ∧ ∀ shape ∈ w.manager, shape.box.x < w.startPoint.x
  | .removeField names => names.Nodup
  | .clear => w.selectedFields = []
  | .gesture moves release => w.ReleasedRight moves release

section Arranged

theorem InOrder.shownFromLeft (h : InOrder w) : ShownFromLeft w (w.manager.map (·.fieldName)) :=
  ⟨w.manager, List.Perm.refl _, h.shapes, rfl⟩

theorem Shows.shownFromLeft {names : List Text} (h : Shows w.restart v names) : ShownFromLeft v names := by
  have hnames : v.manager.map (·.fieldName) = names := h.names
  rw [← hnames]
  exact h.inOrder.shownFromLeft

theorem ShownFromLeft.mem {names : List Text} (h : ShownFromLeft w names) (hshape : shape ∈ w.manager) :
    shape.fieldName ∈ names := by
  obtain ⟨shapes, hperm, -, rfl⟩ := h
  exact List.mem_map_of_mem (hperm.mem_iff.mpr hshape)

theorem Arranged.shape_unique (h : Arranged w) (hfield : field ∈ w.manager) (hshape : shape ∈ w.manager)
    (hname : shape.fieldName = field.fieldName) : shape = field := by
  obtain ⟨shapes, hperm, -, hnames⟩ := h.shown
  have hdistinct : (shapes.map (·.fieldName)).Nodup := hnames ▸ h.distinct
  exact List.inj_on_of_nodup_map hdistinct (hperm.mem_iff.mpr hshape) (hperm.mem_iff.mpr hfield) hname

theorem shapeAtPosition_mem {pos : Point} (h : w.shapeAtPosition pos = some shape) : shape ∈ w.manager :=
  List.mem_reverse.mp (List.mem_of_find?_eq_some h)

theorem shapeAtPosition_contains {pos : Point} (h : w.shapeAtPosition pos = some shape) : shape.box.Contains pos := by
  simpa using List.find?_some h

theorem grabbed_mem (h : w.grabbed moves = some field) : field ∈ w.manager := by
  obtain ⟨pos, -, hpos⟩ := List.exists_of_findSome?_eq_some h
  exact shapeAtPosition_mem hpos

end Arranged

section Moves

def held (field : FieldWin) (w : FieldWindow) : FieldWindow :=
  { w with draggingField := some field, initialDraggerPosition := field.box, isDragging := true }

theorem onMouseMove_held (pos : Point) : (w.held field).onMouseMove true pos = w.held field := by
  simp [onMouseMove, held]

theorem foldl_onMouseMove (hnothing : w.draggingField = none) (moves : List Point) :
    moves.foldl (fun w pos => w.onMouseMove true pos) w =
      match w.grabbed moves with
      | none => w
      | some field => w.held field := by
  induction moves with
  | nil => rfl
  | cons pos moves ih =>
    rw [List.foldl_cons, grabbed, List.findSome?_cons]
    cases hpos : w.shapeAtPosition pos with
    | none =>
      have hstay : w.onMouseMove true pos = w := by simp [onMouseMove, hpos, hnothing]
      rw [hstay]
      exact ih
    | some field =>
      have hgrab : w.onMouseMove true pos = w.held field := by simp [onMouseMove, hpos, hnothing, held]
      rw [hgrab]
      have hrest (moves : List Point) :
          moves.foldl (fun w pos => w.onMouseMove true pos) (w.held field) = w.held field := by
        induction moves with
        | nil => rfl
        | cons pos moves ih => rw [List.foldl_cons, onMouseMove_held, ih]
      exact hrest moves

theorem step_gesture (h : Arranged w) : step extent w (.gesture moves release) =
    match w.grabbed moves with
    | none => some w
    | some field => (w.held field).onLeftUp extent release := by
  rw [step, foldl_onMouseMove h.nothing]
  cases w.grabbed moves with
  | some field => rfl
  | none => simp [onLeftUp, h.nothing, h.notDragging]

theorem onLeftUp_held (hfield : field ∈ w.manager) : (w.held field).onLeftUp extent release =
    match w.shapeAtPosition release with
    | none => w.selectedFields.getLast?.map fun last =>
      if field.fieldName = last then w.held field else ((w.held field).dropAtEnd extent field.fieldName).finish
    | some shape =>
      if AlreadyThere release shape.box field.box then some (w.held field)
      else ((w.held field).dropOn extent field.fieldName shape release).map finish := by
  have hdragged : (w.held field).dragged = some field := by simp [dragged, held, hfield]
  have hdragging : (w.held field).isDragging = true := rfl
  rw [onLeftUp, if_neg (by simp [held]), if_pos hdragging, hdragged, Option.bind_some]
  rfl

theorem not_arranged_held : ¬ Arranged (w.held field) := fun h => Bool.noConfusion h.notDragging

theorem arranged_finish (hdistinct : v.selectedFields.Nodup) (hshown : ShownFromLeft v v.selectedFields) :
    Arranged v.finish := ⟨hdistinct, hshown, rfl, rfl⟩

end Moves

section Insertion

theorem insertAt_split (field : Text) (c d : List Text) : insertAt c.length field (c ++ d) = some (c ++ field :: d) := by
  have hinside : 0 ≤ (c.length : ℤ) ∧ (c.length : ℤ) ≤ (c ++ d).length := by
    rw [List.length_append]
    omega
  rw [insertAt, if_pos hinside, Int.toNat_natCast, Vectors.insertIdx_eq (by simp), List.take_left, List.drop_left]

theorem insertAt_eq_none {it : ℤ} {field : Text} {fields : List Text} (h : it < 0 ∨ fields.length < it) :
    insertAt it field fields = none := if_neg (by omega)

theorem direction_of_contains {pos : Point} {r : Rect} (h : r.Contains pos) : direction pos r =
    if middle r < pos.x then .after else if pos.x < middle r then .before else .uninitialized := by
  obtain ⟨⟨hleft, hright⟩, -⟩ := h
  have hafter : middle r < pos.x ∧ pos.x < r.right + 5 ↔ middle r < pos.x := by
    rw [Rect.right]
    omega
  have hbefore : pos.x < middle r ∧ r.left - 5 < pos.x ↔ pos.x < middle r := by
    rw [Rect.left]
    omega
  rw [direction]
  simp only [hafter, hbefore]

theorem staying_fields (h : Arranged w) (hfield : field ∈ w.manager) :
    let fields := w.selectedFields.filter (· ≠ field.fieldName)
    fields.Nodup ∧ field.fieldName ∉ fields ∧ ¬ fields.Perm w.selectedFields ∧
      ∀ c d, fields = c ++ d → (c ++ field.fieldName :: d).Nodup ∧ (c ++ field.fieldName :: d).Perm w.selectedFields ∧
        (c ++ field.fieldName :: d).filter (· ≠ field.fieldName) = fields := by
  have hout : field.fieldName ∉ w.selectedFields.filter (· ≠ field.fieldName) := by simp
  refine ⟨h.distinct.filter _, hout, fun hperm => hout (hperm.mem_iff.mpr (h.shown.mem hfield)), fun c d hcd => ?_⟩
  have hperm := Neighbours.perm_insert h.distinct (h.shown.mem hfield) hcd
  refine ⟨hperm.nodup_iff.mpr h.distinct, hperm, ?_⟩
  rw [hcd]
  exact Neighbours.filter_ne_insert (hcd ▸ hout)

end Insertion

section Drop

theorem dropAtEnd_arranged (h : Arranged w) (hfield : field ∈ w.manager) :
    let fields := w.selectedFields.filter (· ≠ field.fieldName) ++ [field.fieldName]
    ((w.held field).dropAtEnd extent field.fieldName).selectedFields = fields ∧
      Arranged ((w.held field).dropAtEnd extent field.fieldName).finish := by
  obtain ⟨-, -, -, hinsert⟩ := staying_fields h hfield
  obtain ⟨hdistinct, -, -⟩ := hinsert _ [] (List.append_nil _).symm
  refine ⟨rfl, arranged_finish hdistinct ?_⟩
  have hshows := @showAll_shows extent (w.selectedFields.filter (· ≠ field.fieldName)) (w.held field)
  refine ⟨_, List.Perm.refl _, hshows.inOrder.addShape field.fieldName, ?_⟩
  exact (addShape_names _ _).trans (congrArg (· ++ [field.fieldName]) hshows.names)

/-- What the fields become where the field is dropped on a shape: nothing where the iterator leaves the vector. -/
def relisted (w : FieldWindow) (field shape : FieldWin) (release : Point) : Option (List Text) :=
  let fields := w.selectedFields.filter (· ≠ field.fieldName)
  let it : ℤ := fields.idxOf shape.fieldName
  if middle shape.box < release.x then insertAt (it + 1) field.fieldName fields
  else if release.x < middle shape.box then insertAt (it - 1) field.fieldName fields
  else some fields

theorem dropOn_eq (hcontains : shape.box.Contains release) :
    ((w.held field).dropOn extent field.fieldName shape release).map finish =
      (w.relisted field shape release).map fun fields =>
        ({ (w.held field).showAll extent fields with selectedFields := fields } : FieldWindow).finish := by
  rw [dropOn, direction_of_contains hcontains, relisted]
  split_ifs <;> exact Option.map_map ..

theorem arranged_showAll {fields : List Text} (hdistinct : fields.Nodup) (u : FieldWindow) :
    Arranged ({ u.showAll extent fields with selectedFields := fields } : FieldWindow).finish := by
  have hshown : ShownFromLeft (u.showAll extent fields) fields := (showAll_shows fields u).shownFromLeft
  exact arranged_finish hdistinct hshown

def Lands (extent : Text → ℕ × ℕ) (w : FieldWindow) (moves : List Point) (release : Point) : Prop :=
  ∃ t, step extent w (.gesture moves release) = some t ∧ Arranged t ∧ Dropped w moves release t.selectedFields

theorem lands_at_end_iff (h : Arranged w) (hgrabbed : w.grabbed moves = some field)
    (hrelease : w.shapeAtPosition release = none) :
    Lands extent w moves release ↔ w.selectedFields.getLast? ≠ some field.fieldName := by
  have hfield := grabbed_mem hgrabbed
  have hstep : step extent w (.gesture moves release) = w.selectedFields.getLast?.map fun last =>
      if field.fieldName = last then w.held field else ((w.held field).dropAtEnd extent field.fieldName).finish := by
    rw [step_gesture h, hgrabbed]
    change (w.held field).onLeftUp extent release = _
    rw [onLeftUp_held hfield, hrelease]
  obtain ⟨last, hlast⟩ : ∃ last, w.selectedFields.getLast? = some last :=
    ⟨_, List.getLast?_eq_some_getLast (List.ne_nil_of_mem (h.shown.mem hfield))⟩
  rw [hlast, Option.map_some] at hstep
  simp only [Lands, hstep, hlast, Option.some.injEq, exists_eq_left', ne_eq]
  by_cases hsame : field.fieldName = last
  · rw [if_pos hsame]
    exact iff_of_false (fun hlands => not_arranged_held hlands.1) fun hne => hne hsame.symm
  · rw [if_neg hsame]
    obtain ⟨hfields, harranged⟩ := @dropAtEnd_arranged extent w field h hfield
    obtain ⟨-, -, -, hinsert⟩ := staying_fields h hfield
    obtain ⟨-, hperm, hothers⟩ := hinsert _ [] (List.append_nil _).symm
    refine iff_of_true ⟨harranged, ?_⟩ fun heq => hsame heq.symm
    rw [Dropped, hgrabbed]
    change List.Perm ((w.held field).dropAtEnd extent field.fieldName).selectedFields _ ∧
      ((w.held field).dropAtEnd extent field.fieldName).selectedFields.filter _ = _ ∧ _
    rw [hfields, hrelease]
    exact ⟨hperm, hothers, List.getLast?_concat⟩

theorem lands_on_iff (h : Arranged w) (hgrabbed : w.grabbed moves = some field)
    (hrelease : w.shapeAtPosition release = some shape) :
    Lands extent w moves release ↔ ¬ AlreadyThere release shape.box field.box ∧
      ∃ fields, w.relisted field shape release = some fields ∧ fields.Nodup ∧ Dropped w moves release fields := by
  have hfield := grabbed_mem hgrabbed
  have hstep : step extent w (.gesture moves release) =
      if AlreadyThere release shape.box field.box then some (w.held field)
      else ((w.held field).dropOn extent field.fieldName shape release).map finish := by
    rw [step_gesture h, hgrabbed]
    change (w.held field).onLeftUp extent release = _
    rw [onLeftUp_held hfield, hrelease]
  rw [Lands, hstep, dropOn_eq (shapeAtPosition_contains hrelease)]
  by_cases hthere : AlreadyThere release shape.box field.box
  · rw [if_pos hthere]
    refine iff_of_false ?_ fun hnot => hnot.1 hthere
    rintro ⟨t, ht, harranged, -⟩
    obtain rfl := Option.some.inj ht
    exact not_arranged_held harranged
  · rw [if_neg hthere]
    constructor
    · rintro ⟨t, ht, harranged, hdropped⟩
      obtain ⟨fields, hfields, rfl⟩ := Option.map_eq_some_iff.mp ht
      exact ⟨hthere, fields, hfields, harranged.distinct, hdropped⟩
    · rintro ⟨-, fields, hfields, hdistinct, hdropped⟩
      exact ⟨_, Option.map_eq_some_iff.mpr ⟨fields, hfields, rfl⟩, arranged_showAll hdistinct _, hdropped⟩

theorem dropped_on_iff {next : List Text} (hgrabbed : w.grabbed moves = some field)
    (hrelease : w.shapeAtPosition release = some shape) : Dropped w moves release next ↔
      next.Perm w.selectedFields ∧
        next.filter (· ≠ field.fieldName) = w.selectedFields.filter (· ≠ field.fieldName) ∧
        (shape.fieldName ≠ field.fieldName →
          (release.x ≤ middle shape.box ∧ [field.fieldName, shape.fieldName] <:+: next) ∨
            (middle shape.box ≤ release.x ∧ [shape.fieldName, field.fieldName] <:+: next)) := by
  rw [Dropped, hgrabbed]
  dsimp only
  rw [hrelease]

/-- A field that is dropped on itself comes to stand before the last one. -/
theorem relisted_own_iff (h : Arranged w) (hgrabbed : w.grabbed moves = some field)
    (hrelease : w.shapeAtPosition release = some shape) (hown : shape.fieldName = field.fieldName) :
    (∃ fields, w.relisted field shape release = some fields ∧ fields.Nodup ∧ Dropped w moves release fields) ↔
      release.x < middle shape.box ∧ 2 ≤ w.selectedFields.length := by
  have hfield := grabbed_mem hgrabbed
  obtain ⟨-, hout, hlost, hinsert⟩ := staying_fields h hfield
  simp only [dropped_on_iff hgrabbed hrelease, hown, ne_eq, not_true_eq_false, false_implies, and_true]
  have hlength : (w.selectedFields.filter (· ≠ field.fieldName)).length + 1 = w.selectedFields.length := by
    obtain ⟨-, hperm, -⟩ := hinsert [] _ rfl
    exact hperm.length_eq
  rw [relisted, hown, List.idxOf_eq_length hout]
  rcases lt_trichotomy release.x (middle shape.box) with hlt | heq | hgt
  · simp only [hlt, not_lt.mpr hlt.le, if_true, if_false, true_and]
    rcases List.eq_nil_or_concat' (w.selectedFields.filter (· ≠ field.fieldName)) with hnil | ⟨c, z, hsplit⟩
    · rw [hnil] at hlength ⊢
      rw [insertAt_eq_none (Or.inl (by simp))]
      refine iff_of_false ?_ fun hlong => by simp at hlength; omega
      rintro ⟨fields, ⟨⟩, -⟩
    · obtain ⟨hdistinct, hperm, hothers⟩ := hinsert c [z] hsplit
      have hplace : (((w.selectedFields.filter (· ≠ field.fieldName)).length : ℤ) - 1) = c.length := by
        rw [hsplit, List.length_append, List.length_singleton]
        omega
      rw [hplace, hsplit, insertAt_split]
      refine iff_of_true ⟨_, rfl, hdistinct, hperm, ?_⟩ ?_
      · rw [← hsplit]
        exact hothers
      · rw [← hlength, hsplit, List.length_append, List.length_singleton]
        omega
  · simp only [heq, lt_irrefl, if_false, false_and, iff_false]
    rintro ⟨fields, hfields, -, hperm, -⟩
    obtain rfl := Option.some.inj hfields
    exact hlost hperm
  · simp only [hgt, not_lt.mpr hgt.le, if_true, false_and, iff_false]
    rw [insertAt_eq_none (Or.inr (by omega))]
    rintro ⟨fields, ⟨⟩, -⟩

/-- Only behind another field is the place the right one. -/
theorem relisted_other_iff (h : Arranged w) (hgrabbed : w.grabbed moves = some field)
    (hrelease : w.shapeAtPosition release = some shape) (hother : shape.fieldName ≠ field.fieldName) :
    (∃ fields, w.relisted field shape release = some fields ∧ fields.Nodup ∧ Dropped w moves release fields) ↔
      middle shape.box < release.x := by
  have hfield := grabbed_mem hgrabbed
  obtain ⟨hnodup, hout, hlost, hinsert⟩ := staying_fields h hfield
  simp only [dropped_on_iff hgrabbed hrelease, hother, ne_eq, not_false_eq_true, true_implies]
  have hmem : shape.fieldName ∈ w.selectedFields.filter (· ≠ field.fieldName) :=
    List.mem_filter.mpr ⟨h.shown.mem (shapeAtPosition_mem hrelease), decide_eq_true hother⟩
  obtain ⟨c, d, hsplit, hplace, hc, hd⟩ := Neighbours.split_at hnodup hmem
  rw [relisted, ← hplace]
  rcases lt_trichotomy release.x (middle shape.box) with hlt | heq | hgt
  · simp only [hlt, not_lt.mpr hlt.le, if_true, if_false, iff_false]
    rcases List.eq_nil_or_concat' c with rfl | ⟨c, z, rfl⟩
    · rw [insertAt_eq_none (Or.inl (by simp))]
      rintro ⟨fields, ⟨⟩, -⟩
    · have hsplit' : w.selectedFields.filter (· ≠ field.fieldName) = c ++ z :: shape.fieldName :: d := by
        rw [hsplit, List.append_assoc, List.singleton_append]
      have hbegin : (((c ++ [z]).length : ℤ) - 1) = c.length := by
        rw [List.length_append, List.length_singleton]
        omega
      rw [hbegin, hsplit', insertAt_split]
      rintro ⟨fields, hfields, -, -, -, hdrop⟩
      obtain rfl := Option.some.inj hfields
      obtain ⟨hleft, hright⟩ : field.fieldName ∉ c ∧ field.fieldName ∉ z :: shape.fieldName :: d := by
        rw [hsplit'] at hout
        exact not_or.mp fun hin => hout (List.mem_append.mpr hin)
      rcases hdrop with ⟨-, hbefore⟩ | ⟨hle, -⟩
      · have hnext := (Neighbours.before_iff hleft hright).mp hbefore
        obtain rfl : z = shape.fieldName := Option.some.inj hnext
        exact hc (by simp)
      · omega
  · simp only [heq, lt_irrefl, if_false, iff_false]
    rintro ⟨fields, hfields, -, hperm, -⟩
    obtain rfl := Option.some.inj hfields
    exact hlost hperm
  · simp only [hgt, if_true, iff_true]
    have hsplit' : w.selectedFields.filter (· ≠ field.fieldName) = (c ++ [shape.fieldName]) ++ d := by
      rw [hsplit, List.append_assoc, List.singleton_append]
    have hbehind : ((c.length : ℤ) + 1) = (c ++ [shape.fieldName]).length := by
      rw [List.length_append, List.length_singleton]
      omega
    obtain ⟨hdistinct, hperm, hothers⟩ := hinsert _ d hsplit'
    rw [hbehind, hsplit', insertAt_split]
    refine ⟨_, rfl, hdistinct, hperm, ?_, Or.inr ⟨hgt.le, ?_⟩⟩
    · rw [← hsplit']
      exact hothers
    · exact ⟨c, d, by simp⟩

theorem not_alreadyThere_self (hcontains : shape.box.Contains release) :
    ¬ AlreadyThere release shape.box shape.box := by
  obtain ⟨⟨hleft, hright⟩, -⟩ := hcontains
  rw [AlreadyThere, Rect.left, Rect.right]
  omega

theorem lands_iff (h : Arranged w) (moves : List Point) (release : Point) :
    Lands extent w moves release ↔ w.ReleasedRight moves release := by
  rw [ReleasedRight]
  cases hgrabbed : w.grabbed moves with
  | none =>
    refine iff_of_true ⟨w, ?_, h, ?_⟩ trivial
    · rw [step_gesture h, hgrabbed]
    · rw [Dropped, hgrabbed]
  | some field =>
    dsimp only
    cases hrelease : w.shapeAtPosition release with
    | none => exact lands_at_end_iff h hgrabbed hrelease
    | some shape =>
      dsimp only
      rw [lands_on_iff h hgrabbed hrelease]
      by_cases hown : shape.fieldName = field.fieldName
      · obtain rfl := h.shape_unique (grabbed_mem hgrabbed) (shapeAtPosition_mem hrelease) hown
        rw [if_pos rfl, relisted_own_iff h hgrabbed hrelease rfl]
        exact and_iff_right (not_alreadyThere_self (shapeAtPosition_contains hrelease))
      · rw [if_neg hown, relisted_other_iff h hgrabbed hrelease hown, and_comm]
        apply and_congr_right
        intro hbehind
        rw [AlreadyThere]
        omega

end Drop

section Events

theorem addField_arranged_iff (h : Arranged w) (fieldName : Text) : Arranged (w.addField extent fieldName) ↔
    fieldName ∉ w.selectedFields ∧ ∀ shape ∈ w.manager, shape.box.x < w.startPoint.x := by
  obtain ⟨added, hmanager, hname, hx⟩ : ∃ added : FieldWin,
      (w.addField extent fieldName).manager = w.manager ++ [added] ∧ added.fieldName = fieldName ∧
        added.box.x = w.startPoint.x := ⟨_, rfl, rfl, rfl⟩
  have hfields : (w.addField extent fieldName).selectedFields = w.selectedFields ++ [fieldName] := rfl
  have hnodup : (w.selectedFields ++ [fieldName]).Nodup ↔ fieldName ∉ w.selectedFields ∧ w.selectedFields.Nodup := by
    rw [← List.concat_eq_append, List.nodup_concat]
  constructor
  · intro harranged
    obtain ⟨hnew, -⟩ := hnodup.mp harranged.distinct
    refine ⟨hnew, ?_⟩
    obtain ⟨shapes, hperm, hsorted, hnames⟩ := harranged.shown
    rw [hmanager] at hperm
    rw [hfields] at hnames
    -- the last of the shapes is the one that was added, as no other has its name
    obtain ⟨c, last, rfl, hc, hlast⟩ := List.map_eq_append_iff.mp hnames
    obtain ⟨z, rfl, hz⟩ : ∃ z, last = [z] ∧ z.fieldName = fieldName := by simpa using hlast
    have hadded : added ∈ c ++ [z] := hperm.mem_iff.mpr (by simp)
    have hnotin : added ∉ c := fun hin => hnew (hc ▸ hname ▸ List.mem_map_of_mem hin)
    obtain rfl : added = z := by simpa [hnotin] using hadded
    have hrest : c.Perm w.manager := (List.perm_append_right_iff [added]).mp hperm
    intro shape hshape
    rw [← hx]
    exact (List.pairwise_append.mp hsorted).2.2 shape (hrest.mem_iff.mpr hshape) added (List.mem_singleton_self _)
  · rintro ⟨hnew, hleft⟩
    obtain ⟨shapes, hperm, hsorted, hnames⟩ := h.shown
    refine ⟨hnodup.mpr ⟨hnew, h.distinct⟩, ⟨shapes ++ [added], ?_, ?_, ?_⟩, h.notDragging, h.nothing⟩
    · rw [hmanager]
      exact hperm.append_right _
    · rw [List.pairwise_append]
      refine ⟨hsorted, List.pairwise_singleton .., fun shape hshape z hz => ?_⟩
      rw [List.mem_singleton.mp hz, hx]
      exact hleft shape (hperm.mem_iff.mp hshape)
    · rw [hfields, List.map_append, hnames, List.map_singleton, hname]

theorem removeField_arranged_iff (h : Arranged w) (names : List Text) :
    Arranged (w.removeField extent names) ↔ names.Nodup := by
  have hfields : (w.removeField extent names).selectedFields = names := removeField_selectedFields names w
  have hshows : Shows w.restart (w.removeField extent names) names := removeField_shows names w
  constructor
  · intro harranged
    have hdistinct := harranged.distinct
    rwa [hfields] at hdistinct
  · intro hdistinct
    have hshown : ShownFromLeft (w.removeField extent names) names := hshows.shownFromLeft
    refine ⟨?_, ?_, hshows.isDragging.trans h.notDragging, hshows.draggingField.trans h.nothing⟩
    · rwa [hfields]
    · rwa [hfields]

theorem clear_arranged_iff (h : Arranged w) : Arranged w.clear ↔ w.selectedFields = [] := by
  constructor
  · rintro ⟨-, ⟨shapes, hperm, -, hnames⟩, -⟩
    obtain rfl := List.perm_nil.mp hperm
    exact hnames.symm
  · intro hempty
    exact ⟨h.distinct, ⟨[], List.Perm.refl _, .nil, hempty.symm⟩, h.notDragging, h.nothing⟩

theorem step_decided (w : FieldWindow) (e : WindowEvent) (h : Arranged w) :
    (∃ t, step extent w e = some t ∧ Arranged t ∧ Moved w e t) ↔ w.Meets e := by
  cases e with
  | addField fieldName => simpa [step, Moved, Meets] using @addField_arranged_iff extent w h fieldName
  | removeField names => simpa [step, Moved, Meets] using @removeField_arranged_iff extent w h names
  | clear => simpa [step, Moved, Meets] using clear_arranged_iff h
  | gesture moves release => exact lands_iff h moves release

theorem dragging_permutes_iff (extent : Text → ℕ × ℕ) (w : FieldWindow) (h : Arranged w) (es : List WindowEvent) :
    ((run (step extent) w es).isSome ∧ Throughout (step extent) Arranged w es ∧
      EachStep (step extent) Moved w es) ↔ Before (step extent) Meets w es :=
  upheld_iff step_decided h es

theorem arranged_empty : Arranged {} := ⟨List.nodup_nil, ⟨[], List.Perm.refl _, .nil, rfl⟩, rfl, rfl⟩

theorem dragging_behind_permutes :
    let extent : Text → ℕ × ℕ := fun _ => (20, 10)
    let es : List WindowEvent := [.addField "id".toList, .addField "name".toList, .gesture [⟨12, 12⟩, ⟨40, 12⟩] ⟨50, 12⟩]
    (run (step extent) {} es).map (·.selectedFields) = some ["name".toList, "id".toList] ∧
      Throughout (step extent) Arranged {} es ∧ EachStep (step extent) Moved {} es := by
  intro extent es
  have hmeets : Before (step extent) Meets {} es := by
    rw [before_cons]
    refine ⟨⟨by simp, by simp⟩, ?_⟩
    rintro _ ⟨⟩
    rw [before_cons]
    refine ⟨⟨by decide, by decide⟩, ?_⟩
    rintro _ ⟨⟩
    rw [before_cons]
    refine ⟨?_, ?_⟩
    · rw [Meets]
      decide
    · intro t _
      exact before_nil _ t
  obtain ⟨-, hthroughout, heach⟩ := (dragging_permutes_iff extent {} arranged_empty es).mpr hmeets
  exact ⟨by decide, hthroughout, heach⟩

/-- On the left half of the first field the iterator goes before the begin of the vector. -/
theorem dragging_before_first_fails :
    let extent : Text → ℕ × ℕ := fun _ => (20, 10)
    let es : List WindowEvent := [.addField "id".toList, .addField "name".toList, .gesture [⟨40, 12⟩] ⟨12, 12⟩]
    run (step extent) {} es = none ∧ ¬ ((run (step extent) {} es).isSome ∧ Throughout (step extent) Arranged {} es ∧
      EachStep (step extent) Moved {} es) := by
  intro extent es
  have hnone : run (step extent) {} es = none := by decide
  refine ⟨hnone, ?_⟩
  rintro ⟨hrun, -⟩
  rw [hnone] at hrun
  exact Bool.noConfusion hrun

end Events

end DbHandler.FieldsWindow.FieldWindow
