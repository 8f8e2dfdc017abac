import Mathlib.Tactic.Ring
import DbHandler.Foundation.Faults
import DbHandler.Diagram.Canvas

namespace DbHandler.Diagram

open Foundation

/-- `wxSFGridShape`: its cells hold the ids of the shapes. -/
structure GridShape where
  rows : ℤ
  cols : ℤ
  cells : List ℤ
  deriving DecidableEq, Repr

/-- A negative number of cells is allocated, or the number of cells is divided by zero. -/
inductive GridFault
  | allocation
  | divisionByZero
  deriving DecidableEq, Repr

namespace GridShape

def empty : GridShape := ⟨0, 0, []⟩

/-- Without any cell the dimensions stay as they are. -/
def setDimensions (rows cols : ℤ) (g : GridShape) : Except GridFault GridShape :=
  if rows * cols = 0 then .ok g
  else if rows * cols < 0 then .error .allocation
  else .ok { g with rows := rows, cols := cols }

def setCount (n : ℕ) (cells : List ℤ) : List ℤ := cells.take n ++ List.replicate (n - cells.length) 0

def insertToGrid (row col id : ℤ) (g : GridShape) : GridShape :=
  if id ∈ g.cells then g
  else if col ≥ g.cols then g
  else {
    rows := max g.rows (row + 1)
    cols := g.cols
    cells := (setCount (row * g.cols + col + 1).toNat g.cells).set (row * g.cols + col).toNat id }

end GridShape

/-- The shapes of a field; the key is a bitmap or a spacer. -/
inductive FieldPart
  | key
  | field
  | fieldType
  | comment
  deriving DecidableEq, Repr

structure GridTableShape extends GridShape where
  type : ViewType
  showDataTypes : Bool := true
  showComments : Bool := true
  deriving DecidableEq, Repr

namespace GridTableShape

def columnOf (g : GridTableShape) : FieldPart → ℤ
  | .key => if g.type = .databaseView then 0 else 1
  | .field => if g.type = .databaseView then 1 else 0
  | .fieldType => if g.type = .databaseView then 2 else 1
  | .comment => if g.type = .databaseView then 2 else if g.showDataTypes then 2 else 1

def insertToTableGrid (part : FieldPart) (id : ℤ) (g : GridTableShape) : Except GridFault GridTableShape :=
  if g.cols = 0 then .error .divisionByZero
  else .ok { g with toGridShape := g.insertToGrid (g.cells.length / g.cols) (g.columnOf part) id }

end GridTableShape

/-- `MyErdTable` with its grids; of its database table only the number of fields matters to them. -/
structure TableShape where
  type : ViewType
  numFields : ℕ
  displayTypes : Bool
  displayComments : Bool
  columns : ℤ
  headerColumns : ℤ
  header : GridShape
  grid : GridTableShape
  deriving DecidableEq, Repr

namespace TableShape

def displayTypesSet (display : Bool) (t : TableShape) : TableShape :=
  { t with
    displayTypes := display
    grid := { t.grid with showDataTypes := display }
    columns := if display then t.columns + 1 else t.columns - 1 }

def displayCommentsSet (display : Bool) (t : TableShape) : TableShape :=
  { t with
    displayComments := display
    grid := { t.grid with showComments := display }
    columns := if display then t.columns + 1 else t.columns - 1
    headerColumns := if display then t.headerColumns + 1 else t.headerColumns - 1 }

def clearGrid (t : TableShape) : Except GridFault TableShape := do
  let header ← GridShape.empty.setDimensions 1 t.headerColumns
  let grid ← GridShape.empty.setDimensions 1 t.columns
  return { t with header := header, grid := { t.grid with toGridShape := grid } }

/-- The parts that `AddColumn` inserts, with their ids. -/
def partsOf (t : TableShape) (id : ℤ) : List (FieldPart × ℤ) :=
  match t.type with
  | .databaseView => [(.key, id + 10000), (.field, id + 10000 + 1), (.comment, id + 10000 + 2)]
  | .queryView =>
    (.field, id + 10000) ::
      ((if t.displayTypes then [(.fieldType, id + 10000 + 1)] else []) ++
        if t.displayComments then [(.comment, id + 10000 + if t.displayTypes then 2 else 1)] else [])

def addColumn (t : TableShape) (grid : GridTableShape) (id : ℤ) : Except GridFault GridTableShape :=
  (t.partsOf id).foldlM (fun g part => g.insertToTableGrid part.1 part.2) grid

def setHeader (t : TableShape) : TableShape :=
  let header := t.header.insertToGrid 0 0 1000
  { t with header := if t.displayComments then header.insertToGrid 0 1 1001 else header }

def updateTable (t : TableShape) : Except GridFault TableShape := do
  let t ← t.clearGrid
  let t := t.setHeader
  let grid ← (List.range t.numFields).foldlM (fun grid (i : ℕ) => t.addColumn grid (i * t.columns)) t.grid
  return { t with grid := grid }

/-- The columns that the parts of a field take up. -/
def shownColumns (t : TableShape) : ℕ :=
  match t.type with
  | .databaseView => 2 + t.displayComments.toNat
  | .queryView => 1 + t.displayTypes.toNat + t.displayComments.toNat

end TableShape

/-- The ids of a grid that was filled row by row. -/
def filledCells (n : ℕ) : List ℤ := (List.range n).map fun i => 10000 + (i : ℤ)

@[simp] theorem length_filledCells (n : ℕ) : (filledCells n).length = n := by simp [filledCells]

theorem filledCells_succ (n : ℕ) : filledCells (n + 1) = filledCells n ++ [10000 + (n : ℤ)] := by
  simp [filledCells, List.range_succ]

theorem not_mem_filledCells (n : ℕ) : 10000 + (n : ℤ) ∉ filledCells n := by
  simp [filledCells]

theorem setCount_filledCells (n : ℕ) :
    (GridShape.setCount (n + 1) (filledCells n)).set n (10000 + (n : ℤ)) = filledCells (n + 1) := by
  have htake : (filledCells n).take (n + 1) = filledCells n := List.take_of_length_le (by simp)
  rw [GridShape.setCount, htake, length_filledCells, show n + 1 - n = 1 by omega, List.set_append_right _ _ (by simp),
    filledCells_succ]
  simp

/-- The grid of a table has `cols` columns and is filled up to the cell `n`. -/
structure Filled (cols n : ℕ) (g : GridTableShape) : Prop where
  cols : g.cols = cols
  cells : g.cells = filledCells n

structure SameParts (g next : GridTableShape) : Prop where
  type : next.type = g.type
  showDataTypes : next.showDataTypes = g.showDataTypes
  showComments : next.showComments = g.showComments

theorem SameParts.refl (g : GridTableShape) : SameParts g g := ⟨rfl, rfl, rfl⟩

theorem SameParts.trans {f g h : GridTableShape} (hfg : SameParts f g) (hgh : SameParts g h) : SameParts f h :=
  ⟨hgh.type.trans hfg.type, hgh.showDataTypes.trans hfg.showDataTypes, hgh.showComments.trans hfg.showComments⟩

theorem SameParts.columnOf {g next : GridTableShape} (h : SameParts g next) (part : FieldPart) :
    next.columnOf part = g.columnOf part := by
  cases part <;> simp only [GridTableShape.columnOf, h.type, h.showDataTypes]

section Insert

variable {cols i k : ℕ} {g : GridTableShape}

theorem insertToTableGrid_next {part : FieldPart} (h : Filled cols (i * cols + k) g) (hk : k < cols)
    (hcolumn : g.columnOf part = k) :
    ∃ next, g.insertToTableGrid part (10000 + ((i * cols + k : ℕ) : ℤ)) = .ok next ∧
      Filled cols (i * cols + k + 1) next ∧ SameParts g next := by
  have hcols : g.cols ≠ 0 := by rw [h.cols]; omega
  have hrow : (g.cells.length : ℤ) / g.cols = i := by
    rw [h.cells, length_filledCells, h.cols]
    norm_cast
    rw [Nat.mul_comm i cols, Nat.mul_add_div (by omega), Nat.div_eq_of_lt hk, Nat.add_zero]
  refine ⟨_, if_neg hcols, ⟨?_, ?_⟩, ⟨rfl, rfl, rfl⟩⟩
  · rw [GridShape.insertToGrid]
    split_ifs
    exacts [h.cols, h.cols, h.cols]
  · have hfresh : 10000 + ((i * cols + k : ℕ) : ℤ) ∉ g.cells := h.cells ▸ not_mem_filledCells _
    have hplace : ((i : ℤ) * cols + k).toNat = i * cols + k := by omega
    have hcount : ((i : ℤ) * cols + k + 1).toNat = i * cols + k + 1 := by omega
    rw [GridShape.insertToGrid, if_neg hfresh, hcolumn, if_neg (by rw [h.cols]; omega), hrow]
    change (GridShape.setCount (i * g.cols + k + 1).toNat g.cells).set (i * g.cols + k).toNat _ = _
    rw [h.cols, h.cells, hplace, hcount]
    exact setCount_filledCells _

/-- A part whose column the grid does not have is not inserted. -/
theorem insertToTableGrid_outside {part : FieldPart} (hcols : g.cols ≠ 0) (hcolumn : g.columnOf part ≥ g.cols) (id : ℤ) :
    g.insertToTableGrid part id = .ok g := by
  rw [GridTableShape.insertToTableGrid, if_neg hcols, GridShape.insertToGrid]
  split_ifs <;> rfl

theorem insertParts_next (parts : List (FieldPart × ℤ)) (h : Filled cols (i * cols + k) g)
    (hlength : k + parts.length ≤ cols)
    (hparts : ∀ j part, parts[j]? = some part →
      g.columnOf part.1 = (k + j : ℕ) ∧ part.2 = 10000 + ((i * cols + (k + j) : ℕ) : ℤ)) :
    ∃ next, parts.foldlM (fun g part => g.insertToTableGrid part.1 part.2) g = .ok next ∧
      Filled cols (i * cols + k + parts.length) next ∧ SameParts g next := by
  induction parts generalizing g k with
  | nil => exact ⟨g, rfl, h, .refl g⟩
  | cons part parts ih =>
    obtain ⟨hcolumn, hid⟩ := hparts 0 part rfl
    rw [List.length_cons] at hlength
    obtain ⟨next, hnext, hfilled, hsame⟩ : ∃ next, g.insertToTableGrid part.1 _ = .ok next ∧ _ :=
      insertToTableGrid_next h (by omega) hcolumn
    obtain ⟨last, hlast, hfilled, hrest⟩ := ih (k := k + 1) (by rw [← Nat.add_assoc]; exact hfilled) (by omega) fun j p hj => by
      obtain ⟨hcolumn, hid⟩ := hparts (j + 1) p hj
      rw [hsame.columnOf]
      exact ⟨by rw [hcolumn]; omega, by rw [hid]; omega⟩
    refine ⟨last, ?_, ?_, hsame.trans hrest⟩
    · rw [List.foldlM_cons, hid, Nat.add_zero, hnext]
      exact hlast
    · rw [List.length_cons, show i * cols + k + (parts.length + 1) = i * cols + (k + 1) + parts.length by omega]
      exact hfilled

end Insert

/-- The column counters and the flags of the grid are those of the parts that are shown. -/
structure TableShape.Counts (t : TableShape) : Prop where
  columns : t.columns = t.shownColumns
  headerColumns : t.headerColumns = 1 + t.displayComments.toNat
  gridType : t.grid.type = t.type
  gridTypes : t.grid.showDataTypes = t.displayTypes
  gridComments : t.grid.showComments = t.displayComments

section Update

variable {t : TableShape}

theorem TableShape.shownColumns_pos (t : TableShape) : 0 < t.shownColumns := by
  rw [shownColumns]
  split <;> omega

theorem insertRow {i : ℕ} {g : GridTableShape} (h : t.Counts) (hsame : SameParts t.grid g)
    (hfilled : Filled t.shownColumns (i * t.shownColumns) g) {parts : List (FieldPart × ℤ)}
    (hlength : parts.length = t.shownColumns)
    (hparts : ∀ (j : ℕ) part, parts[j]? = some part →
      g.columnOf part.1 = j ∧ part.2 = (i : ℤ) * t.columns + 10000 + j) :
    ∃ next, parts.foldlM (fun g part => g.insertToTableGrid part.1 part.2) g = .ok next ∧
      Filled t.shownColumns ((i + 1) * t.shownColumns) next ∧ SameParts t.grid next := by
  have hid (k : ℕ) : (i : ℤ) * t.columns + 10000 + k = 10000 + ((i * t.shownColumns + k : ℕ) : ℤ) := by
    rw [h.columns]
    push_cast
    ring
  obtain ⟨next, hnext, hrow, hnextSame⟩ := insertParts_next (k := 0) parts hfilled (by omega) fun j part hj => by
    obtain ⟨hcolumn, hpart⟩ := hparts j part hj
    exact ⟨by rw [hcolumn, Nat.zero_add], by rw [hpart, hid, Nat.zero_add]⟩
  refine ⟨next, hnext, ?_, hsame.trans hnextSame⟩
  rw [hlength, Nat.add_zero] at hrow
  rw [Nat.add_mul, Nat.one_mul]
  exact hrow

theorem addColumn_next {i : ℕ} {g : GridTableShape} (h : t.Counts) (hsame : SameParts t.grid g)
    (hfilled : Filled t.shownColumns (i * t.shownColumns) g) :
    ∃ next, t.addColumn g (i * t.columns) = .ok next ∧ Filled t.shownColumns ((i + 1) * t.shownColumns) next ∧
      SameParts t.grid next := by
  have htype : g.type = t.type := hsame.type.trans h.gridType
  have htypes : g.showDataTypes = t.displayTypes := hsame.showDataTypes.trans h.gridTypes
  rw [TableShape.addColumn, TableShape.partsOf]
  cases hview : t.type with
  | queryView =>
    refine insertRow h hsame hfilled ?_ ?_
    · cases hshow : t.displayTypes <;> cases hcomments : t.displayComments <;>
        simp [TableShape.shownColumns, hview, hshow, hcomments]
    · intro j part hj
      rw [hview] at htype
      cases hshow : t.displayTypes <;> cases hcomments : t.displayComments <;> rw [hshow] at htypes <;>
        simp only [hshow, hcomments] at hj <;>
        rcases j with _ | _ | _ | j <;> simp at hj <;> subst hj <;> simp [GridTableShape.columnOf, htype, htypes]
  | databaseView =>
    have hcolumns : t.shownColumns = 2 + t.displayComments.toNat := by rw [TableShape.shownColumns, hview]
    rw [hview] at htype
    cases hcomments : t.displayComments with
    | true =>
      refine insertRow h hsame hfilled ?_ fun j part hj => ?_
      · rw [hcolumns, hcomments]
        rfl
      · rcases j with _ | _ | _ | j <;> simp at hj <;> subst hj <;> simp [GridTableShape.columnOf, htype]
    | false =>
      rw [hcomments] at hcolumns
      obtain ⟨next, hnext, hrow, hnextSame⟩ : ∃ next,
          [(FieldPart.key, (i : ℤ) * t.columns + 10000), (.field, (i : ℤ) * t.columns + 10000 + 1)].foldlM
            (fun (g : GridTableShape) part => g.insertToTableGrid part.1 part.2) g = .ok next ∧ _ :=
        insertRow h hsame hfilled hcolumns.symm fun j part hj => by
          rcases j with _ | _ | j <;> simp at hj <;> subst hj <;> simp [GridTableShape.columnOf, htype]
      refine ⟨next, ?_, hrow, hnextSame⟩
      have hnextType : next.type = .databaseView := (hnextSame.type.trans h.gridType).trans hview
      have houtside : next.insertToTableGrid .comment ((i : ℤ) * t.columns + 10000 + 2) = .ok next := by
        apply insertToTableGrid_outside
        · rw [hrow.cols, hcolumns]
          decide
        · rw [hrow.cols, hcolumns, GridTableShape.columnOf, if_pos hnextType]
          decide
      change (([(FieldPart.key, (i : ℤ) * t.columns + 10000), (.field, (i : ℤ) * t.columns + 10000 + 1)] ++
        [(FieldPart.comment, (i : ℤ) * t.columns + 10000 + 2)]).foldlM _ g) = _
      rw [List.foldlM_append, hnext, Faults.ok_bind, List.foldlM_cons, houtside]
      rfl

theorem addColumns_next {g : GridTableShape} (h : t.Counts) (hsame : SameParts t.grid g) (hfilled : Filled t.shownColumns 0 g)
    (n : ℕ) : ∃ next, (List.range n).foldlM (fun grid (i : ℕ) => t.addColumn grid (i * t.columns)) g = .ok next ∧
      Filled t.shownColumns (n * t.shownColumns) next ∧ SameParts t.grid next := by
  induction n with
  | zero => exact ⟨g, rfl, by simpa using hfilled, hsame⟩
  | succ n ih =>
    obtain ⟨before, hbefore, hrows, hbeforeSame⟩ := ih
    obtain ⟨next, hnext, hrow, hnextSame⟩ := addColumn_next h hbeforeSame hrows
    refine ⟨next, ?_, hrow, hnextSame⟩
    rw [List.range_succ, List.foldlM_append, hbefore, Faults.ok_bind, List.foldlM_cons, hnext]
    rfl

/-- What an update of the table leaves: the grid is filled with one row a field. -/
structure TableShape.Updated (t next : TableShape) : Prop where
  type : next.type = t.type
  numFields : next.numFields = t.numFields
  displayTypes : next.displayTypes = t.displayTypes
  displayComments : next.displayComments = t.displayComments
  columns : next.columns = t.columns
  headerColumns : next.headerColumns = t.headerColumns
  sameParts : SameParts t.grid next.grid
  filled : Filled t.shownColumns (t.numFields * t.shownColumns) next.grid

theorem setDimensions_pos {cols : ℕ} (h : 0 < cols) (g : GridShape) :
    g.setDimensions 1 cols = .ok { g with rows := 1, cols := cols } := by
  rw [GridShape.setDimensions, if_neg (by omega), if_neg (by omega)]

def TableShape.cleared (t : TableShape) : TableShape :=
  { t with
    header := { GridShape.empty with rows := 1, cols := t.headerColumns }
    grid := { t.grid with rows := 1, cols := t.columns, cells := [] } }

theorem clearGrid_eq (h : t.Counts) : t.clearGrid = .ok t.cleared := by
  have hheader : GridShape.empty.setDimensions 1 t.headerColumns =
      .ok { GridShape.empty with rows := 1, cols := t.headerColumns } := by
    rw [h.headerColumns, ← Nat.cast_one, ← Nat.cast_add]
    exact setDimensions_pos (by simp) _
  have hgrid : GridShape.empty.setDimensions 1 t.columns =
      .ok { GridShape.empty with rows := 1, cols := t.columns } := by
    rw [h.columns]
    exact setDimensions_pos t.shownColumns_pos _
  rw [TableShape.clearGrid, hheader, Faults.ok_bind, hgrid, Faults.ok_bind]
  rfl

theorem updateTable_next (h : t.Counts) : ∃ next, t.updateTable = .ok next ∧ t.Updated next := by
  have hcounts : t.cleared.setHeader.Counts := ⟨h.columns, h.headerColumns, h.gridType, h.gridTypes, h.gridComments⟩
  have hempty : Filled t.cleared.setHeader.shownColumns 0 t.cleared.setHeader.grid := ⟨h.columns, rfl⟩
  obtain ⟨grid, hgrid, hfilled, hsame⟩ := addColumns_next hcounts (.refl _) hempty t.numFields
  refine ⟨{ t.cleared.setHeader with grid := grid }, ?_, ⟨rfl, rfl, rfl, rfl, rfl, rfl, ⟨hsame.type, hsame.showDataTypes,
    hsame.showComments⟩, hfilled⟩⟩
  rw [TableShape.updateTable, clearGrid_eq h, Faults.ok_bind]
  exact (congrArg (· >>= _) hgrid).trans rfl

end Update

end DbHandler.Diagram
