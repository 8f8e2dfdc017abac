import DbHandler.Foundation.Rectangles
import DbHandler.Diagram.TableCells

namespace DbHandler.Diagram

open Foundation Rectangles

/-- The size of `GetBoundingBox`; a spacer is a plain `wxSFShapeBase`, whose box is empty. -/
def boundingBox (size : CellShape → Size) (shape : CellShape) : Size :=
  match shape.content with
  | .spacer => (0, 0)
  | _ => size shape

/-- The three maxima that `DoChildrenLayout` collects. -/
structure MaxRects where
  isKeyPresent : Bool := false
  maxRect0 : Size := (0, 0)
  maxRect1 : Size := (0, 0)
  maxRect2 : Size := (0, 0)
  deriving DecidableEq, Repr

/-- `SetCommonProps` expands no shape, so both extents are compared. -/
def grow (currRect maxRect : Size) : Size :=
  (if currRect.1 > maxRect.1 then currRect.1 else maxRect.1, if currRect.2 > maxRect.2 then currRect.2 else maxRect.2)

namespace MaxRects

def collect (type : ViewType) (size : CellShape → Size) (m : MaxRects) (shape : CellShape) : MaxRects :=
  let currRect := boundingBox size shape
  match type, shape.content with
  | .databaseView, .bitmap _ => { m with isKeyPresent := true, maxRect0 := grow currRect m.maxRect0 }
  | .databaseView, .field .. => { m with maxRect1 := grow currRect m.maxRect1 }
  | .databaseView, .comment .. => { m with maxRect2 := grow currRect m.maxRect2 }
  | .databaseView, .spacer | .databaseView, .fieldType .. => if m.isKeyPresent then m else { m with maxRect0 := (2, 14) }
  | .queryView, .field .. => { m with maxRect0 := grow currRect m.maxRect0 }
  | .queryView, .fieldType .. => { m with maxRect1 := grow currRect m.maxRect1 }
  | .queryView, .comment .. => { m with maxRect2 := grow currRect m.maxRect2 }
  | .queryView, _ => m

def rects (cellSpace row col : ℤ) (m : MaxRects) : List Rect :=
  let x := col * m.maxRect0.1 + (col + 1) * cellSpace
  let y := row * m.maxRect0.2 + (row + 1) * cellSpace
  (if col = 0 then [⟨x, y, m.maxRect0.1, m.maxRect0.2⟩] else []) ++
    ((if col = 1 then [⟨x, y, m.maxRect1.1, m.maxRect1.2⟩] else []) ++
      if col = 2 then [⟨x, y, m.maxRect1.1, m.maxRect1.2⟩] else [])

end MaxRects

/-- `nIndex`, `nCol` and `nRow`, and the rectangles assigned so far. -/
structure Cursor where
  index : ℤ
  col : ℤ
  row : ℤ
  placed : List (CellShape × Rect)
  deriving DecidableEq, Repr

namespace CellGrid

def placeCell (m : MaxRects) (g : CellGrid) (c : Cursor) (id : ℤ) : Cursor :=
  match g.getChild id with
  | none => c
  | some shape =>
    let col := if c.index % g.cols = 0 then 0 else c.col + 1
    let row := if c.index % g.cols = 0 then c.row + 1 else c.row
    { index := c.index + 1
      col := col
      row := row
      placed := c.placed ++ (m.rects g.cellSpace row col).map fun rect => (shape, rect) }

def maxRects (size : CellShape → Size) (g : CellGrid) : MaxRects := g.children.foldl (MaxRects.collect g.type size) {}

def doChildrenLayout (size : CellShape → Size) (g : CellGrid) : List (CellShape × Rect) :=
  if g.cols = 0 ∨ g.rows = 0 then []
  else (g.cells.foldl (g.placeCell (g.maxRects size)) ⟨0, 0, -1, []⟩).placed

end CellGrid

/-- Every cell has a rectangle of its own in which its shape fits, in the rows and columns of the grid. -/
structure Tidy (size : CellShape → Size) (g : CellGrid) (placed : List (CellShape × Rect)) : Prop where
  all : placed.map (fun p => some p.1) = g.cells.map g.getChild
  disjoint : placed.Pairwise fun p q => p.2.Disjoint q.2
  fits : ∀ p ∈ placed, (boundingBox size p.1).1 ≤ p.2.width ∧ (boundingBox size p.1).2 ≤ p.2.height
  rows : ∀ (k l : ℕ) p q, placed[k]? = some p → placed[l]? = some q → k / g.cols.toNat = l / g.cols.toNat → p.2.y = q.2.y
  columns : ∀ (k l : ℕ) p q, placed[k]? = some p → placed[l]? = some q → k % g.cols.toNat = l % g.cols.toNat → p.2.x = q.2.x

def boxesOf (size : CellShape → Size) (part : FieldPart) (shapes : List CellShape) : Size :=
  largest ((shapes.filter fun shape => shape.content.part = part).map (boundingBox size))

namespace MyErdTable

def shapes (t : MyErdTable) : List CellShape := numbered 10000 t.contentsOf

/-- The extent of the keys, where a first field without a key counts as (2, 14), or of the names of a query. -/
def firstColumn (size : CellShape → Size) (t : MyErdTable) : Size :=
  match t.type with
  | .databaseView =>
    boxesOf size .key t.shapes ⊔ if t.fields.head?.map keyOf = some .spacer then (2, 14) else (0, 0)
  | .queryView => boxesOf size .field t.shapes

def secondColumn (size : CellShape → Size) (t : MyErdTable) : Size :=
  match t.type with
  | .databaseView => boxesOf size .field t.shapes
  | .queryView => boxesOf size .fieldType t.shapes

/-- The comments are no larger than the second column, and the second column is hardly larger than the first. -/
structure HasRoom (size : CellShape → Size) (t : MyErdTable) : Prop where
  comments : boxesOf size .comment t.shapes ≤ t.secondColumn size
  columns : t.shownColumns = 3 → (t.secondColumn size).2 = 0 ∨ (t.secondColumn size).1 ≤ (t.firstColumn size).1 + 1
  rows : t.fields.length ≤ 1 ∨ (t.secondColumn size).1 = 0 ∨ (t.secondColumn size).2 ≤ (t.firstColumn size).2 + 1

end MyErdTable

theorem grow_eq (currRect maxRect : Size) : grow currRect maxRect = maxRect ⊔ currRect := by
  have hmax (m n : ℕ) : (if n > m then n else m) = max m n := by
    split_ifs <;> omega
  rw [grow, hmax, hmax]
  rfl

section Maxima

variable {size : CellShape → Size} {t : MyErdTable} {g : CellGrid}

theorem boxesOf_cons (part : FieldPart) (shape : CellShape) (shapes : List CellShape) :
    boxesOf size part (shape :: shapes) =
      (if shape.content.part = part then boundingBox size shape else ⊥) ⊔ boxesOf size part shapes := by
  by_cases hpart : shape.content.part = part
  · have hfilter : (shape :: shapes).filter (fun shape => decide (shape.content.part = part)) =
        shape :: shapes.filter fun shape => decide (shape.content.part = part) :=
      List.filter_cons_of_pos (decide_eq_true hpart)
    rw [if_pos hpart, boxesOf, hfilter]
    rfl
  · have hfilter : (shape :: shapes).filter (fun shape => decide (shape.content.part = part)) =
        shapes.filter fun shape => decide (shape.content.part = part) :=
      List.filter_cons_of_neg (by simpa using hpart)
    rw [if_neg hpart, bot_sup_eq, boxesOf, hfilter, boxesOf]

theorem collect_queryView (shapes : List CellShape) (m : MaxRects) :
    (shapes.foldl (MaxRects.collect .queryView size) m).maxRect0 = m.maxRect0 ⊔ boxesOf size .field shapes ∧
      (shapes.foldl (MaxRects.collect .queryView size) m).maxRect1 = m.maxRect1 ⊔ boxesOf size .fieldType shapes := by
  induction shapes generalizing m with
  | nil => simp [boxesOf, largest]
  | cons shape shapes ih =>
    rw [List.foldl_cons, (ih _).1, (ih _).2, boxesOf_cons, boxesOf_cons, ← sup_assoc, ← sup_assoc]
    obtain ⟨id, content⟩ := shape
    cases content <;> simp [MaxRects.collect, CellContent.part, grow_eq]

/-- Once the first column has been set, a spacer changes nothing. -/
structure KeysSeen (m : MaxRects) : Prop where
  spacers : m.isKeyPresent = false → m.maxRect0 = (2, 14)

theorem collect_spacer {m : MaxRects} (hm : KeysSeen m) :
    (if m.isKeyPresent = true then m else { m with maxRect0 := (2, 14) }) = m := by
  split_ifs with hpresent
  · rfl
  · rw [← hm.spacers (Bool.eq_false_of_not_eq_true hpresent)]

theorem collect_databaseView_step (shape : CellShape) {m : MaxRects} (hm : KeysSeen m) :
    KeysSeen (m.collect .databaseView size shape) ∧
      (m.collect .databaseView size shape).maxRect0 =
        m.maxRect0 ⊔ (if shape.content.part = .key then boundingBox size shape else ⊥) ∧
      (m.collect .databaseView size shape).maxRect1 =
        m.maxRect1 ⊔ (if shape.content.part = .field then boundingBox size shape else ⊥) := by
  obtain ⟨id, content⟩ := shape
  cases content with
  | bitmap picture => exact ⟨⟨nofun⟩, grow_eq _ _, (sup_bot_eq _).symm⟩
  | spacer =>
    rw [show m.collect .databaseView size ⟨id, .spacer⟩ = m from collect_spacer hm]
    exact ⟨hm, (sup_bot_eq _).symm, (sup_bot_eq _).symm⟩
  | field text field => exact ⟨⟨hm.spacers⟩, (sup_bot_eq _).symm, grow_eq _ _⟩
  | fieldType text field =>
    rw [show m.collect .databaseView size ⟨id, .fieldType text field⟩ = m from collect_spacer hm]
    exact ⟨hm, (sup_bot_eq _).symm, (sup_bot_eq _).symm⟩
  | comment text field => exact ⟨⟨hm.spacers⟩, (sup_bot_eq _).symm, (sup_bot_eq _).symm⟩

theorem collect_databaseView (size : CellShape → Size) (shapes : List CellShape) {m : MaxRects} (hm : KeysSeen m) :
    (shapes.foldl (MaxRects.collect .databaseView size) m).maxRect0 = m.maxRect0 ⊔ boxesOf size .key shapes ∧
      (shapes.foldl (MaxRects.collect .databaseView size) m).maxRect1 = m.maxRect1 ⊔ boxesOf size .field shapes := by
  induction shapes generalizing m with
  | nil => simp [boxesOf, largest]
  | cons shape shapes ih =>
    obtain ⟨hnext, hfirst, hsecond⟩ := collect_databaseView_step shape hm
    rw [List.foldl_cons, (ih hnext).1, (ih hnext).2, hfirst, hsecond, boxesOf_cons, boxesOf_cons, sup_assoc, sup_assoc]
    exact ⟨rfl, rfl⟩

theorem collect_firstKey (size : CellShape → Size) (id : ℤ) {content : CellContent} (hkey : content.part = .key) :
    KeysSeen (MaxRects.collect .databaseView size {} ⟨id, content⟩) ∧
      (MaxRects.collect .databaseView size {} ⟨id, content⟩).maxRect0 =
        boundingBox size ⟨id, content⟩ ⊔ (if content = .spacer then (2, 14) else (0, 0)) ∧
      (MaxRects.collect .databaseView size {} ⟨id, content⟩).maxRect1 = (0, 0) := by
  cases content with
  | bitmap picture => exact ⟨⟨nofun⟩, (grow_eq _ _).trans (sup_comm _ _), rfl⟩
  | spacer => exact ⟨⟨fun _ => rfl⟩, (bot_sup_eq _).symm, rfl⟩
  | field text field => cases hkey
  | fieldType text field => cases hkey
  | comment text field => cases hkey

theorem maxRects_databaseView (hview : t.type = .databaseView) :
    (t.shapes.foldl (MaxRects.collect .databaseView size) {}).maxRect0 = t.firstColumn size ∧
      (t.shapes.foldl (MaxRects.collect .databaseView size) {}).maxRect1 = t.secondColumn size := by
  rw [MyErdTable.firstColumn, MyErdTable.secondColumn, hview]
  cases hfields : t.fields with
  | nil =>
    have hshapes : t.shapes = [] := by
      rw [MyErdTable.shapes, MyErdTable.contentsOf, hfields]
      rfl
    rw [hshapes]
    exact ⟨rfl, rfl⟩
  | cons f fields =>
    obtain ⟨rest, hshapes⟩ : ∃ rest, t.shapes = ⟨10000, MyErdTable.keyOf f⟩ :: rest := by
      rw [MyErdTable.shapes, MyErdTable.contentsOf, hfields, List.zipIdx_cons, List.flatMap_cons, MyErdTable.rowOf, hview]
      exact ⟨_, rfl⟩
    have hkey := MyErdTable.part_keyOf f
    obtain ⟨hseen, hfirst, hsecond⟩ := collect_firstKey size 10000 hkey
    obtain ⟨hfold, hfoldSecond⟩ := collect_databaseView size rest hseen
    have hkeys : boxesOf size .key (⟨10000, MyErdTable.keyOf f⟩ :: rest) =
        boundingBox size ⟨10000, MyErdTable.keyOf f⟩ ⊔ boxesOf size .key rest := by rw [boxesOf_cons, if_pos hkey]
    have hnames : boxesOf size .field (⟨10000, MyErdTable.keyOf f⟩ :: rest) = boxesOf size .field rest := by
      rw [boxesOf_cons, hkey, if_neg (by decide), bot_sup_eq]
    rw [hshapes, List.foldl_cons, hfold, hfoldSecond, hfirst, hsecond, hkeys, hnames, List.head?_cons, Option.map_some]
    simp only [Option.some.injEq]
    exact ⟨sup_right_comm _ _ _, bot_sup_eq _⟩

theorem maxRects_eq (size : CellShape → Size) (h : t.UpdatedGrid g) :
    (g.maxRects size).maxRect0 = t.firstColumn size ∧ (g.maxRects size).maxRect1 = t.secondColumn size := by
  rw [CellGrid.maxRects, h.type, show g.children = t.shapes from h.drawn.children]
  cases hview : t.type with
  | databaseView => exact maxRects_databaseView hview
  | queryView =>
    rw [(collect_queryView _ _).1, (collect_queryView _ _).2, MyErdTable.firstColumn, MyErdTable.secondColumn, hview]
    exact ⟨bot_sup_eq _, bot_sup_eq _⟩

end Maxima

/-- The rectangle of a cell; the later columns all have the size of the second one. -/
def MaxRects.cellRect (m : MaxRects) (cellSpace : ℤ) (row col : ℕ) : Rect :=
  let extent := if col = 0 then m.maxRect0 else m.maxRect1
  ⟨col * m.maxRect0.1 + (col + 1) * cellSpace, row * m.maxRect0.2 + (row + 1) * cellSpace, extent.1, extent.2⟩

theorem rects_eq (m : MaxRects) (cellSpace : ℤ) (row : ℕ) {col : ℕ} (hcol : col < 3) :
    m.rects cellSpace row col = [m.cellRect cellSpace row col] := by
  obtain rfl | rfl | rfl : col = 0 ∨ col = 1 ∨ col = 2 := by omega
  · rfl
  · rfl
  · rfl

structure Cursor.At (n k : ℕ) (c : Cursor) : Prop where
  index : c.index = k
  first : k % n = 0 → c.row + 1 = (k / n : ℕ)
  later : k % n ≠ 0 → c.row = (k / n : ℕ) ∧ c.col + 1 = (k % n : ℕ)

section Cells

variable {m : MaxRects} {g : CellGrid} {c : Cursor} {shape : CellShape} {n k : ℕ}

theorem placeCell_next (hn : 0 < n) (hcols : g.cols = n) (hat : c.At n k) (hshape : g.getChild shape.id = some shape)
    (hcol : k % n < 3) :
    (g.placeCell m c shape.id).placed = c.placed ++ [(shape, m.cellRect g.cellSpace (k / n) (k % n))] ∧
      (g.placeCell m c shape.id).At n (k + 1) := by
  have hrow : (if c.index % g.cols = 0 then c.row + 1 else c.row) = (k / n : ℕ) ∧
      (if c.index % g.cols = 0 then 0 else c.col + 1) = (k % n : ℕ) := by
    rw [hat.index, hcols, ← Int.natCast_mod]
    by_cases hfirst : k % n = 0
    · rw [hfirst, Nat.cast_zero, if_pos rfl, if_pos rfl]
      exact ⟨hat.first hfirst, rfl⟩
    · rw [if_neg (Nat.cast_ne_zero.mpr hfirst), if_neg (Nat.cast_ne_zero.mpr hfirst)]
      exact hat.later hfirst
  have hplace : g.placeCell m c shape.id =
      ⟨k + 1, (k % n : ℕ), (k / n : ℕ), c.placed ++ [(shape, m.cellRect g.cellSpace (k / n) (k % n))]⟩ := by
    rw [CellGrid.placeCell, hshape]
    simp only [hrow.1, hrow.2, rects_eq m g.cellSpace (k / n) hcol, List.map_singleton]
    rw [hat.index]
  rw [hplace]
  refine ⟨rfl, rfl, fun hfirst => ?_, fun hlater => ?_⟩
  · rcases RowMajor.next_place hn k with ⟨hcolumn, -⟩ | ⟨-, -, hnext⟩
    · omega
    · rw [hnext]
      rfl
  · rcases RowMajor.next_place hn k with ⟨hcolumn, hnext⟩ | ⟨hcolumn, -⟩
    · rw [hcolumn, hnext]
      exact ⟨rfl, rfl⟩
    · exact absurd hcolumn hlater

theorem placeCells (hn : 0 < n) (hthree : n ≤ 3) (hcols : g.cols = n) {shapes : List CellShape} (hat : c.At n k)
    (hshapes : ∀ shape ∈ shapes, g.getChild shape.id = some shape) :
    ((shapes.map CellShape.id).foldl (g.placeCell m) c).placed =
      c.placed ++ (shapes.zipIdx k).map fun p => (p.1, m.cellRect g.cellSpace (p.2 / n) (p.2 % n)) := by
  induction shapes generalizing k c with
  | nil => simp
  | cons shape shapes ih =>
    rw [List.forall_mem_cons] at hshapes
    have hcol : k % n < 3 := Nat.lt_of_lt_of_le (Nat.mod_lt k hn) hthree
    obtain ⟨hplaced, hnext⟩ := placeCell_next (m := m) hn hcols hat hshapes.1 hcol
    rw [List.map_cons, List.foldl_cons, ih hnext hshapes.2, hplaced, List.zipIdx_cons, List.map_cons, List.append_assoc]
    rfl

end Cells

section Layout

variable {size : CellShape → Size} {t : MyErdTable} {g : CellGrid}

theorem MyErdTable.shownColumns_le (t : MyErdTable) : t.shownColumns ≤ 3 := by
  rw [shownColumns]
  cases t.type <;> cases t.displayTypes <;> cases t.displayComments <;> decide

theorem doChildrenLayout_eq (h : t.UpdatedGrid g) :
    g.doChildrenLayout size = t.shapes.zipIdx.map fun p =>
      (p.1, (g.maxRects size).cellRect 1 (p.2 / t.shownColumns) (p.2 % t.shownColumns)) := by
  have hpos := t.shownColumns_pos
  have hcols : g.cols = t.shownColumns := h.drawn.filled.cols
  have hrows := h.rows
  have hstart : (⟨0, 0, -1, []⟩ : Cursor).At t.shownColumns 0 := by
    refine ⟨rfl, fun _ => ?_, fun hlater => ?_⟩
    · rw [Nat.zero_div]
      rfl
    · exact absurd (Nat.zero_mod _) hlater
  rw [CellGrid.doChildrenLayout, if_neg (by rw [hcols]; omega), ← h.drawn.ids,
    placeCells hpos t.shownColumns_le hcols hstart fun shape hshape => h.drawn.getChild_of_mem hshape, List.nil_append,
    h.cellSpace, h.drawn.children]
  rfl

theorem placed_eq (h : t.UpdatedGrid g) {k : ℕ} {p : CellShape × Rect} (hp : (g.doChildrenLayout size)[k]? = some p) :
    t.shapes[k]? = some p.1 ∧ p.2 = (g.maxRects size).cellRect 1 (k / t.shownColumns) (k % t.shownColumns) := by
  rw [doChildrenLayout_eq h, List.getElem?_map, List.getElem?_zipIdx] at hp
  obtain ⟨place, hplace, rfl⟩ := Option.map_eq_some_iff.mp hp
  obtain ⟨shape, hshape, rfl⟩ := Option.map_eq_some_iff.mp hplace
  exact ⟨hshape, by rw [Nat.zero_add]⟩

end Layout

section Geometry

variable {m : MaxRects} {row col below beside : ℕ}

theorem cellRect_below (hrow : row < below) (hheight : (m.cellRect 1 row col).height ≤ m.maxRect0.2 + 1) :
    (m.cellRect 1 row col).Disjoint (m.cellRect 1 below beside) := by
  apply (Rect.disjoint_iff _ _).mpr
  right; right; right; right; left
  have hrows : (row + 1) * m.maxRect0.2 ≤ below * m.maxRect0.2 := Nat.mul_le_mul_right _ hrow
  rw [Nat.add_mul, Nat.one_mul] at hrows
  have hpitch : (row : ℤ) * m.maxRect0.2 + m.maxRect0.2 ≤ below * m.maxRect0.2 := by exact_mod_cast hrows
  simp only [MaxRects.cellRect] at hheight ⊢
  omega

theorem cellRect_beside (hcol : col < beside) (hwidth : (m.cellRect 1 row col).width ≤ m.maxRect0.1 + 1) :
    (m.cellRect 1 row col).Disjoint (m.cellRect 1 below beside) := by
  apply (Rect.disjoint_iff _ _).mpr
  right; right; left
  have hcols : (col + 1) * m.maxRect0.1 ≤ beside * m.maxRect0.1 := Nat.mul_le_mul_right _ hcol
  rw [Nat.add_mul, Nat.one_mul] at hcols
  have hpitch : (col : ℤ) * m.maxRect0.1 + m.maxRect0.1 ≤ beside * m.maxRect0.1 := by exact_mod_cast hcols
  simp only [MaxRects.cellRect] at hwidth ⊢
  omega

theorem cellRect_of_pos (m : MaxRects) (row : ℕ) (hcol : 0 < col) :
    (m.cellRect 1 row col).width = m.maxRect1.1 ∧ (m.cellRect 1 row col).height = m.maxRect1.2 := by
  rw [MaxRects.cellRect, if_neg (by omega)]
  exact ⟨rfl, rfl⟩

/-- Behind a cell come those of the later rows and those further right in its own row. -/
theorem cellRects_disjoint {n rows k l : ℕ} (hn : 0 < n) (hthree : n ≤ 3)
    (hcolumns : n = 3 → m.maxRect1.2 = 0 ∨ m.maxRect1.1 ≤ m.maxRect0.1 + 1)
    (hrows : rows ≤ 1 ∨ m.maxRect1.1 = 0 ∨ m.maxRect1.2 ≤ m.maxRect0.2 + 1) (hkl : k < l) (hl : l < rows * n) :
    (m.cellRect 1 (k / n) (k % n)).Disjoint (m.cellRect 1 (l / n) (l % n)) := by
  have hlast : l / n < rows := Nat.div_lt_of_lt_mul (by rwa [Nat.mul_comm])
  rcases Nat.lt_or_eq_of_le (Nat.div_le_div_right (c := n) hkl.le) with hrow | hrow
  · rcases Nat.eq_zero_or_pos (k % n) with hcol | hcol
    · apply cellRect_below hrow
      rw [hcol]
      simp only [MaxRects.cellRect, if_true]
      omega
    · obtain ⟨hwidth, hheight⟩ := cellRect_of_pos m (k / n) hcol
      rcases hrows with hrows | hrows | hrows
      · have hlater : 0 < l / n := Nat.lt_of_le_of_lt (Nat.zero_le _) hrow
        omega
      · apply (Rect.disjoint_iff _ _).mpr
        left; left
        rw [hwidth, hrows]
        rfl
      · apply cellRect_below hrow
        rw [hheight]
        exact_mod_cast hrows
  · have hcols : k % n < l % n := by
      have hk := Nat.div_add_mod k n
      have hl := Nat.div_add_mod l n
      rw [hrow] at hk
      omega
    have hend := Nat.mod_lt l hn
    rcases Nat.eq_zero_or_pos (k % n) with hcol | hcol
    · apply cellRect_beside hcols
      rw [hcol]
      simp only [MaxRects.cellRect, if_true]
      omega
    · obtain ⟨hwidth, hheight⟩ := cellRect_of_pos m (k / n) hcol
      rcases hcolumns (by omega) with hcolumns | hcolumns
      · apply (Rect.disjoint_iff _ _).mpr
        left; right
        rw [hheight, hcolumns]
        rfl
      · apply cellRect_beside hcols
        rw [hwidth]
        exact_mod_cast hcolumns

theorem columns_of_disjoint (h : (m.cellRect 1 0 1).Disjoint (m.cellRect 1 0 2)) :
    m.maxRect1.2 = 0 ∨ m.maxRect1.1 ≤ m.maxRect0.1 + 1 := by
  rw [Rect.disjoint_iff] at h
  simp [MaxRects.cellRect, Rect.IsEmpty] at h
  omega

theorem rows_of_disjoint (h : (m.cellRect 1 0 1).Disjoint (m.cellRect 1 1 1)) :
    m.maxRect1.1 = 0 ∨ m.maxRect1.2 ≤ m.maxRect0.2 + 1 := by
  rw [Rect.disjoint_iff] at h
  simp [MaxRects.cellRect, Rect.IsEmpty] at h
  omega

end Geometry

section Tidiness

variable {size : CellShape → Size} {t next : MyErdTable} {g : CellGrid} {shape : CellShape} {k : ℕ}

theorem length_shapes (t : MyErdTable) : t.shapes.length = t.fields.length * t.shownColumns := by
  have hcontents := congrArg List.length (contents_numbered 10000 t.contentsOf)
  rw [List.length_map] at hcontents
  rw [MyErdTable.shapes, hcontents, MyErdTable.contentsOf, RowMajor.length_flatMap fun field _ => t.length_rowOf field,
    List.length_zipIdx]

theorem part_of_place (h : t.shapes[k]? = some shape) : t.rowParts[k % t.shownColumns]? = some shape.content.part := by
  have hcontent : t.contentsOf[k]? = some shape.content := by
    rw [← contents_numbered 10000 t.contentsOf, List.getElem?_map]
    exact congrArg (Option.map CellShape.content) h
  rw [MyErdTable.contentsOf, RowMajor.getElem?_flatMap t.shownColumns_pos fun field _ => t.length_rowOf field] at hcontent
  obtain ⟨field, -, hfield⟩ := Option.bind_eq_some_iff.mp hcontent
  rw [← t.parts_rowOf field, List.getElem?_map, hfield, Option.map_some]

theorem le_boxesOf (size : CellShape → Size) {shapes : List CellShape} (h : shape ∈ shapes) :
    boundingBox size shape ≤ boxesOf size shape.content.part shapes := by
  apply le_largest
  apply List.mem_map_of_mem
  exact List.mem_filter.mpr ⟨h, decide_eq_true rfl⟩

theorem boxesOf_le_iff {part : FieldPart} {shapes : List CellShape} {bound : Size} :
    boxesOf size part shapes ≤ bound ↔ ∀ shape ∈ shapes, shape.content.part = part → boundingBox size shape ≤ bound := by
  rw [boxesOf, largest_le_iff, List.forall_mem_map]
  simp only [List.mem_filter, decide_eq_true_eq, and_imp]

/-- The class whose shapes make up the second column, next to comments. -/
def secondPart : ViewType → FieldPart
  | .databaseView => .field
  | .queryView => .fieldType

theorem secondColumn_eq (size : CellShape → Size) (t : MyErdTable) :
    t.secondColumn size = boxesOf size (secondPart t.type) t.shapes := by
  rw [MyErdTable.secondColumn]
  cases t.type <;> rfl

theorem firstPart_le {part : FieldPart} (hpart : t.rowParts[0]? = some part) :
    boxesOf size part t.shapes ≤ t.firstColumn size := by
  rw [MyErdTable.firstColumn]
  rw [MyErdTable.rowParts] at hpart
  cases hview : t.type with
  | databaseView =>
    rw [hview] at hpart
    obtain rfl : FieldPart.key = part := Option.some.inj hpart
    exact le_sup_left
  | queryView =>
    rw [hview] at hpart
    obtain rfl : FieldPart.field = part := Option.some.inj hpart
    exact le_rfl

theorem laterPart {j : ℕ} {part : FieldPart} (hpart : t.rowParts[j + 1]? = some part) :
    part = secondPart t.type ∨ part = .comment := by
  have htail : part ∈ t.rowParts.tail := List.mem_of_getElem? (List.getElem?_tail.trans hpart)
  rw [MyErdTable.rowParts] at htail
  cases hview : t.type with
  | databaseView =>
    rw [hview] at htail
    rcases List.mem_cons.mp htail with rfl | hcomment
    · exact Or.inl rfl
    · exact Or.inr (by simpa using hcomment : _ ∧ part = .comment).2
  | queryView =>
    rw [hview] at htail
    rcases List.mem_append.mp htail with htypes | hcomment
    · exact Or.inl (by simpa using htypes : _ ∧ part = .fieldType).2
    · exact Or.inr (by simpa using hcomment : _ ∧ part = .comment).2

theorem comment_not_first : t.rowParts[0]? ≠ some .comment := by
  rw [MyErdTable.rowParts]
  cases t.type <;> simp

theorem secondPart_not_first : t.rowParts[0]? ≠ some (secondPart t.type) := by
  rw [MyErdTable.rowParts]
  cases t.type <;> simp [secondPart]

theorem secondColumn_eq_zero (h : t.shownColumns ≤ 1 ∨ t.fields = []) : t.secondColumn size = ⊥ := by
  rw [secondColumn_eq, eq_bot_iff, boxesOf_le_iff]
  intro shape hshape hpart
  obtain ⟨k, hk⟩ := List.getElem?_of_mem hshape
  rcases h with hcolumns | hfields
  · have hone : t.shownColumns = 1 := by have := t.shownColumns_pos; omega
    have hplace := part_of_place hk
    rw [hone, Nat.mod_one, hpart] at hplace
    exact absurd hplace secondPart_not_first
  · have hlength := length_shapes t
    rw [hfields, List.length_nil, Nat.zero_mul] at hlength
    rw [List.eq_nil_of_length_eq_zero hlength] at hshape
    simp at hshape

theorem shape_fits (h : t.UpdatedGrid g) (hroom : boxesOf size .comment t.shapes ≤ t.secondColumn size) (row : ℕ)
    (hshape : t.shapes[k]? = some shape) :
    ((boundingBox size shape).1 : ℤ) ≤ ((g.maxRects size).cellRect 1 row (k % t.shownColumns)).width ∧
      ((boundingBox size shape).2 : ℤ) ≤ ((g.maxRects size).cellRect 1 row (k % t.shownColumns)).height := by
  obtain ⟨hfirst, hsecond⟩ := maxRects_eq size h
  have hpart := part_of_place hshape
  have hbox := le_boxesOf size (List.mem_of_getElem? hshape)
  cases hcol : k % t.shownColumns with
  | zero =>
    rw [hcol] at hpart
    obtain ⟨hwidth, hheight⟩ := hbox.trans (firstPart_le hpart)
    rw [← hfirst] at hwidth hheight
    exact ⟨Int.ofNat_le.mpr hwidth, Int.ofNat_le.mpr hheight⟩
  | succ j =>
    rw [hcol] at hpart
    have hle : boundingBox size shape ≤ t.secondColumn size := by
      rcases laterPart hpart with hpart | hpart
      · rw [hpart, ← secondColumn_eq] at hbox
        exact hbox
      · rw [hpart] at hbox
        exact hbox.trans hroom
    obtain ⟨hwidth, hheight⟩ := cellRect_of_pos (g.maxRects size) row (Nat.succ_pos j)
    rw [hwidth, hheight, hsecond]
    exact ⟨Int.ofNat_le.mpr hle.1, Int.ofNat_le.mpr hle.2⟩

theorem tidy_of_hasRoom (h : t.UpdatedGrid g) (hroom : t.HasRoom size) : Tidy size g (g.doChildrenLayout size) := by
  obtain ⟨hfirst, hsecond⟩ := maxRects_eq size h
  have hcols : g.cols.toNat = t.shownColumns := by rw [h.drawn.filled.cols, Int.toNat_natCast]
  refine ⟨?_, ?_, ?_, ?_, ?_⟩
  · have hshapes : (t.shapes.zipIdx.map Prod.fst).map some = g.children.map some := by
      rw [List.zipIdx_map_fst, h.drawn.children]
      rfl
    rw [doChildrenLayout_eq h, h.drawn.getChild_cells, ← hshapes, List.map_map, List.map_map]
    rfl
  · rw [List.pairwise_iff_getElem]
    intro k l hk hl hkl
    obtain ⟨-, hkrect⟩ := placed_eq h (List.getElem?_eq_getElem hk)
    obtain ⟨hlshape, hlrect⟩ := placed_eq h (List.getElem?_eq_getElem hl)
    rw [hkrect, hlrect]
    have hlast : l < t.fields.length * t.shownColumns := by
      rw [← length_shapes]
      exact (List.getElem?_eq_some_iff.mp hlshape).1
    apply cellRects_disjoint t.shownColumns_pos t.shownColumns_le _ _ hkl hlast
    · rw [hfirst, hsecond]
      exact hroom.columns
    · rw [hfirst, hsecond]
      exact hroom.rows
  · intro p hp
    obtain ⟨k, hk⟩ := List.getElem?_of_mem hp
    obtain ⟨hshape, hrect⟩ := placed_eq h hk
    rw [hrect]
    exact shape_fits h hroom.comments _ hshape
  · intro k l p q hp hq hrow
    rw [(placed_eq h hp).2, (placed_eq h hq).2, ← hcols, hrow]
    rfl
  · intro k l p q hp hq hcol
    rw [(placed_eq h hp).2, (placed_eq h hq).2, ← hcols, hcol]
    rfl

theorem placed_at (size : CellShape → Size) (h : t.UpdatedGrid g) (hk : k < t.fields.length * t.shownColumns) :
    ∃ p, (g.doChildrenLayout size)[k]? = some p := by
  refine ⟨_, List.getElem?_eq_getElem ?_⟩
  rw [doChildrenLayout_eq h, List.length_map, List.length_zipIdx, length_shapes]
  exact hk

theorem Tidy.cells_disjoint (h : t.UpdatedGrid g) (htidy : Tidy size g (g.doChildrenLayout size)) {l : ℕ} (hkl : k < l)
    (hl : l < t.fields.length * t.shownColumns) :
    ((g.maxRects size).cellRect 1 (k / t.shownColumns) (k % t.shownColumns)).Disjoint
      ((g.maxRects size).cellRect 1 (l / t.shownColumns) (l % t.shownColumns)) := by
  obtain ⟨p, hp⟩ := placed_at size h (Nat.lt_trans hkl hl)
  obtain ⟨q, hq⟩ := placed_at size h hl
  rw [← (placed_eq h hp).2, ← (placed_eq h hq).2]
  obtain ⟨hk, rfl⟩ := List.getElem?_eq_some_iff.mp hp
  obtain ⟨hl, rfl⟩ := List.getElem?_eq_some_iff.mp hq
  exact List.pairwise_iff_getElem.mp htidy.disjoint k l hk hl hkl

/-- A comment never stands in the first column, so its rectangle has the extent of the second one. -/
theorem Tidy.comments_fit (h : t.UpdatedGrid g) (htidy : Tidy size g (g.doChildrenLayout size)) :
    boxesOf size .comment t.shapes ≤ t.secondColumn size := by
  rw [boxesOf_le_iff]
  intro shape hshape hpart
  obtain ⟨k, hk⟩ := List.getElem?_of_mem hshape
  have hplace := part_of_place hk
  have hcol : 0 < k % t.shownColumns := by
    apply Nat.pos_of_ne_zero
    intro hzero
    rw [hzero, hpart] at hplace
    exact comment_not_first hplace
  obtain ⟨p, hp⟩ := placed_at size h (length_shapes t ▸ (List.getElem?_eq_some_iff.mp hk).1)
  obtain ⟨hpshape, hprect⟩ := placed_eq h hp
  obtain rfl : p.1 = shape := Option.some.inj (hpshape.symm.trans hk)
  have hfits := htidy.fits p (List.mem_of_getElem? hp)
  obtain ⟨hwidth, hheight⟩ := cellRect_of_pos (g.maxRects size) (k / t.shownColumns) hcol
  rw [hprect, hwidth, hheight, (maxRects_eq size h).2] at hfits
  exact ⟨Int.ofNat_le.mp hfits.1, Int.ofNat_le.mp hfits.2⟩

theorem hasRoom_of_tidy (h : t.UpdatedGrid g) (htidy : Tidy size g (g.doChildrenLayout size)) : t.HasRoom size := by
  obtain ⟨hfirst, hsecond⟩ := maxRects_eq size h
  refine ⟨htidy.comments_fit h, ?_, ?_⟩
  · intro hthree
    cases hfields : t.fields with
    | nil =>
      left
      rw [secondColumn_eq_zero (Or.inr hfields)]
      rfl
    | cons field fields =>
      have hlast : 2 < t.fields.length * t.shownColumns := by
        rw [hfields, hthree, List.length_cons]
        omega
      have hcells := htidy.cells_disjoint h (Nat.lt_succ_self 1) hlast
      rw [hthree] at hcells
      rw [← hfirst, ← hsecond]
      exact columns_of_disjoint hcells
  · rcases Nat.lt_or_ge 1 t.shownColumns with hcolumns | hcolumns
    · rcases Nat.lt_or_ge 1 t.fields.length with hfields | hfields
      · right
        have hrows : 2 * t.shownColumns ≤ t.fields.length * t.shownColumns := Nat.mul_le_mul_right _ hfields
        have hcells := htidy.cells_disjoint h (k := 0 * t.shownColumns + 1) (l := 1 * t.shownColumns + 1) (by omega) (by omega)
        rw [RowMajor.place_row hcolumns, RowMajor.place_column hcolumns, RowMajor.place_row hcolumns,
          RowMajor.place_column hcolumns] at hcells
        rw [← hfirst, ← hsecond]
        exact rows_of_disjoint hcells
      · exact Or.inl hfields
    · right; left
      rw [secondColumn_eq_zero (Or.inl hcolumns)]
      rfl

end Tidiness

namespace MyErdTable

theorem layout_tidy_iff {t : MyErdTable} (h : t.Agrees) : ∃ next, t.updateTable = .ok next ∧
    ∀ size, Tidy size next.grid (next.grid.doChildrenLayout size) ↔ t.HasRoom size := by
  obtain ⟨next, hnext, hupdated⟩ := updateTable_next h
  exact ⟨next, hnext, fun size => ⟨hasRoom_of_tidy hupdated, tidy_of_hasRoom hupdated⟩⟩

def shortNames : MyErdTable where
  type := .databaseView
  fields := [⟨"id".toList, "integer".toList, "k".toList, true, false⟩, ⟨"no".toList, "integer".toList, [], false, false⟩]
  displayTypes := true
  displayComments := true
  columns := 3
  grid := { rows := 1, cols := 3, cells := [], type := .databaseView, cellSpace := 8, children := [] }

theorem shortNames_tidy : ∃ next, shortNames.updateTable = .ok next ∧
    Tidy (fun shape => if shape.content.part = .comment then (5, 12) else (16, 14)) next.grid
      (next.grid.doChildrenLayout fun shape => if shape.content.part = .comment then (5, 12) else (16, 14)) := by
  obtain ⟨next, hnext, hiff⟩ := layout_tidy_iff (t := shortNames) ⟨rfl, rfl, rfl, rfl⟩
  refine ⟨next, hnext, (hiff _).mpr ⟨?_, ?_, ?_⟩⟩
  · exact ⟨by decide, by decide⟩
  · decide
  · decide

/-- A field without a key, whose name takes 30 pixels. -/
def wideName : MyErdTable where
  type := .databaseView
  fields := [⟨"description".toList, "varchar".toList, "text".toList, false, false⟩]
  displayTypes := true
  displayComments := true
  columns := 3
  grid := { rows := 1, cols := 3, cells := [], type := .databaseView, cellSpace := 8, children := [] }

theorem wideName_under_comment : wideName.Agrees ∧ ∃ next, wideName.updateTable = .ok next ∧
    ¬ Tidy (fun _ => (30, 12)) next.grid (next.grid.doChildrenLayout fun _ => (30, 12)) :=
  ⟨⟨rfl, rfl, rfl, rfl⟩, _, rfl, fun h => absurd h.disjoint (by decide)⟩

end MyErdTable

end DbHandler.Diagram
