import Mathlib.Data.List.Induction
import DbHandler.Foundation.RowMajor
import DbHandler.Foundation.Neighbours
import DbHandler.Diagram.TableGrid

namespace DbHandler.Diagram

open Foundation

/-- What `AddColumn` reads of a field. -/
structure DrawnField where
  fieldName : Text
  fullType : Text
  comment : Text
  columnPK : Bool
  columnFK : Bool
  deriving DecidableEq, Repr

/-- The values of `Constraint::constraintType` that `UpdateTable` hands over. -/
inductive KeyType
  | primaryKey
  | foreignKey
  | noKey
  deriving DecidableEq, Repr

def DrawnField.keyType (f : DrawnField) : KeyType :=
  if f.columnPK then .primaryKey else if f.columnFK then .foreignKey else .noKey

/-- `key_p_xpm` and `key_f_xpm` -/
inductive KeyPicture
  | keyP
  | keyF
  deriving DecidableEq, Repr

/-- The shapes of a grid by their classes, with what is set on them; a pointer to a field is its place in the table. -/
inductive CellContent
  | bitmap (picture : KeyPicture)
  | spacer
  | field (text : Text) (field : ℕ)
  | fieldType (text : Text) (field : ℕ)
  | comment (text : Text) (field : ℕ)
  deriving DecidableEq, Repr

def CellContent.part : CellContent → FieldPart
  | .bitmap _ | .spacer => .key
  | .field .. => .field
  | .fieldType .. => .fieldType
  | .comment .. => .comment

structure CellShape where
  id : ℤ
  content : CellContent
  deriving DecidableEq, Repr

/-- `GridTableShape` with its children. -/
structure CellGrid extends GridTableShape where
  cellSpace : ℤ
  children : List CellShape
  deriving DecidableEq, Repr

def GridTableShape.accepts (part : FieldPart) (id : ℤ) (g : GridTableShape) : Bool :=
  decide (id ∉ g.cells) && decide (g.columnOf part < g.cols)

namespace CellGrid

/-- A shape that is refused is deleted. -/
def insertToTableGrid (shape : CellShape) (g : CellGrid) : Except GridFault CellGrid := do
  let grid ← g.toGridTableShape.insertToTableGrid shape.content.part shape.id
  return { g with
    toGridTableShape := grid
    children := if g.accepts shape.content.part shape.id then g.children ++ [shape] else g.children }

def getChild (id : ℤ) (g : CellGrid) : Option CellShape := g.children.find? fun shape => shape.id = id

/-- `wxSFGridShape::Update` up to the layout: cells without a child are removed, children without a cell get one. -/
def update (g : CellGrid) : CellGrid :=
  let assigned := g.cells.filter fun id => (g.getChild id).isSome
  { g with cells := g.children.foldl (fun cells shape => if shape.id ∈ cells then cells else cells ++ [shape.id]) assigned }

end CellGrid

/-- `MyErdTable` with its main grid. -/
structure MyErdTable where
  type : ViewType
  fields : List DrawnField
  displayTypes : Bool
  displayComments : Bool
  columns : ℤ
  grid : CellGrid
  deriving DecidableEq, Repr

namespace MyErdTable

def clearGrid (t : MyErdTable) : Except GridFault MyErdTable := do
  let grid ← GridShape.empty.setDimensions 1 t.columns
  return { t with grid := { t.grid with toGridShape := grid, cellSpace := 1, children := [] } }

/-- The shapes that `AddColumn` creates for the field at a place of the table. -/
def shapesOf (t : MyErdTable) (field : DrawnField × ℕ) (id : ℤ) (type : KeyType) : List CellShape :=
  match t.type with
  | .databaseView => [
      ⟨id + 10000, match type with
        | .noKey => .spacer
        | .primaryKey => .bitmap .keyP
        | .foreignKey => .bitmap .keyF⟩,
      ⟨id + 10000 + 1, .field field.1.fieldName field.2⟩,
      ⟨id + 10000 + 2, .comment field.1.comment field.2⟩]
  | .queryView =>
    let counter : ℤ := if t.displayTypes then 2 else 1
    ⟨id + 10000, .field field.1.fieldName field.2⟩ ::
      ((if t.displayTypes then [⟨id + 10000 + 1, .fieldType field.1.fullType field.2⟩] else []) ++
        if t.displayComments then [⟨id + 10000 + counter, .comment field.1.comment field.2⟩] else [])

def addColumn (t : MyErdTable) (field : DrawnField × ℕ) (id : ℤ) (type : KeyType) (grid : CellGrid) :
    Except GridFault CellGrid :=
  (t.shapesOf field id type).foldlM (fun g shape => g.insertToTableGrid shape) grid

/-- The loop over the fields; the second argument is `i`. -/
def addColumns (t : MyErdTable) : List (DrawnField × ℕ) → ℤ → CellGrid → Except GridFault CellGrid
  | [], _, grid => .ok grid
  | field :: fields, i, grid => do
    let grid ← t.addColumn field i field.1.keyType grid
    t.addColumns fields (i + t.columns) grid

def updateTable (t : MyErdTable) : Except GridFault MyErdTable := do
  let t ← t.clearGrid
  let grid ← t.addColumns t.fields.zipIdx 0 t.grid
  return { t with grid := grid.update }

def shownColumns (t : MyErdTable) : ℕ :=
  match t.type with
  | .databaseView => 2 + t.displayComments.toNat
  | .queryView => 1 + t.displayTypes.toNat + t.displayComments.toNat

/-- `m_columns` and the flags of the grid are those of the table. -/
structure Agrees (t : MyErdTable) : Prop where
  columns : t.columns = t.shownColumns
  type : t.grid.type = t.type
  dataTypes : t.grid.showDataTypes = t.displayTypes
  comments : t.grid.showComments = t.displayComments

def keyOf (f : DrawnField) : CellContent :=
  if f.columnPK then .bitmap .keyP else if f.columnFK then .bitmap .keyF else .spacer

def rowOf (t : MyErdTable) (field : DrawnField × ℕ) : List CellContent :=
  (match t.type with
    | .databaseView => [keyOf field.1, .field field.1.fieldName field.2]
    | .queryView =>
      .field field.1.fieldName field.2 :: if t.displayTypes then [.fieldType field.1.fullType field.2] else []) ++
    if t.displayComments then [.comment field.1.comment field.2] else []

end MyErdTable

def CellGrid.contentAt (g : CellGrid) (id : ℤ) : Option CellContent := (g.getChild id).map CellShape.content

/-- The grid `g` has one row a field of `t`, with the cells of that field. -/
structure MyErdTable.ShowsFields (t : MyErdTable) (g : CellGrid) : Prop where
  cols : g.cols = t.shownColumns
  length : g.cells.length = t.fields.length * t.shownColumns
  rows : ∀ i field, t.fields[i]? = some field →
    (RowMajor.row t.shownColumns g.cells i).map g.contentAt = (t.rowOf (field, i)).map some
  distinct : g.cells.Nodup

def numbered (id : ℤ) : List CellContent → List CellShape
  | [] => []
  | content :: contents => ⟨id, content⟩ :: numbered (id + 1) contents

theorem numbered_append (id : ℤ) (contents more : List CellContent) :
    numbered id (contents ++ more) = numbered id contents ++ numbered (id + contents.length) more := by
  induction contents generalizing id with
  | nil => simp [numbered]
  | cons content contents ih =>
    rw [List.cons_append, numbered, numbered, ih, List.length_cons, Nat.cast_succ, List.cons_append,
      show id + 1 + (contents.length : ℤ) = id + (contents.length + 1) by omega]

theorem ids_numbered (contents : List CellContent) : (numbered 10000 contents).map CellShape.id = filledCells contents.length := by
  induction contents using List.reverseRec with
  | nil => rfl
  | append_singleton contents content ih =>
    rw [numbered_append, List.map_append, ih, List.length_append, List.length_singleton, filledCells_succ]
    rfl

theorem contents_numbered (id : ℤ) (contents : List CellContent) :
    (numbered id contents).map CellShape.content = contents := by
  induction contents generalizing id with
  | nil => rfl
  | cons content contents ih => rw [numbered, List.map_cons, ih]

theorem nodup_filledCells (n : ℕ) : (filledCells n).Nodup := by
  induction n with
  | zero => simp [filledCells]
  | succ n ih =>
    rw [filledCells_succ]
    exact ih.append (List.nodup_singleton _) (List.disjoint_singleton.mpr (not_mem_filledCells n))

theorem CellGrid.insertToTableGrid_refused {shape : CellShape} {g : CellGrid} (hcols : g.cols ≠ 0)
    (hcolumn : g.columnOf shape.content.part ≥ g.cols) : g.insertToTableGrid shape = .ok g := by
  have haccepts : g.accepts shape.content.part shape.id = false := by
    rw [GridTableShape.accepts, Bool.and_eq_false_iff]
    exact Or.inr (decide_eq_false (not_lt.mpr hcolumn))
  rw [insertToTableGrid, insertToTableGrid_outside hcols hcolumn, haccepts]
  rfl

theorem rows_le_of_insert {part : FieldPart} {id : ℤ} {g next : GridTableShape}
    (h : g.insertToTableGrid part id = .ok next) : g.rows ≤ next.rows := by
  rw [GridTableShape.insertToTableGrid] at h
  split at h
  · cases h
  · obtain rfl := Except.ok.inj h
    simp only [GridShape.insertToGrid]
    split_ifs
    · exact le_refl _
    · exact le_refl _
    · exact le_max_left _ _

structure SameGrid (g next : CellGrid) : Prop extends SameParts g.toGridTableShape next.toGridTableShape where
  cellSpace : next.cellSpace = g.cellSpace
  rows : g.rows ≤ next.rows

theorem SameGrid.refl (g : CellGrid) : SameGrid g g := ⟨.refl _, rfl, le_refl _⟩

theorem SameGrid.trans {f g h : CellGrid} (hfg : SameGrid f g) (hgh : SameGrid g h) : SameGrid f h :=
  ⟨hfg.toSameParts.trans hgh.toSameParts, hgh.cellSpace.trans hfg.cellSpace, hfg.rows.trans hgh.rows⟩

/-- A grid that is filled row by row, and whose children have been inserted in the order of the cells. -/
structure Drawn (cols : ℕ) (contents : List CellContent) (g : CellGrid) : Prop where
  filled : Filled cols contents.length g.toGridTableShape
  children : g.children = numbered 10000 contents

namespace Drawn

variable {cols : ℕ} {contents : List CellContent} {g : CellGrid}

theorem ids (h : Drawn cols contents g) : g.children.map CellShape.id = g.cells := by
  rw [h.children, h.filled.cells, ids_numbered]

theorem nodup (h : Drawn cols contents g) : g.cells.Nodup := by
  rw [h.filled.cells]
  exact nodup_filledCells _

theorem getChild_of_mem (h : Drawn cols contents g) {shape : CellShape} (hshape : shape ∈ g.children) :
    g.getChild shape.id = some shape := by
  have hnodup : (g.children.map CellShape.id).Nodup := h.ids ▸ h.nodup
  exact Neighbours.find_key hnodup hshape

theorem getChild_cells (h : Drawn cols contents g) : (g.cells.map fun id => g.getChild id) = g.children.map some := by
  rw [← h.ids, List.map_map]
  apply List.map_congr_left
  intro shape hshape
  exact h.getChild_of_mem hshape

theorem contentAt_cells (h : Drawn cols contents g) : g.cells.map g.contentAt = contents.map some := by
  have hcontents : contents = g.children.map CellShape.content := by rw [h.children, contents_numbered]
  have hcells := congrArg (List.map (Option.map CellShape.content)) h.getChild_cells
  rw [List.map_map, List.map_map] at hcells
  rw [hcontents, List.map_map]
  exact hcells

theorem update_eq (h : Drawn cols contents g) : g.update = g := by
  have hmem (shape : CellShape) (hshape : shape ∈ g.children) : shape.id ∈ g.cells := by
    rw [← h.ids]
    exact List.mem_map_of_mem hshape
  have hassigned : g.cells.filter (fun id => (g.getChild id).isSome) = g.cells := by
    apply List.filter_eq_self.mpr
    intro id hid
    rw [← h.ids] at hid
    obtain ⟨shape, hshape, rfl⟩ := List.mem_map.mp hid
    rw [h.getChild_of_mem hshape]
    rfl
  have hfold (shapes : List CellShape) (hshapes : ∀ shape ∈ shapes, shape.id ∈ g.cells) :
      shapes.foldl (fun cells shape => if shape.id ∈ cells then cells else cells ++ [shape.id]) g.cells = g.cells := by
    induction shapes with
    | nil => rfl
    | cons shape shapes ih =>
      rw [List.forall_mem_cons] at hshapes
      rw [List.foldl_cons, if_pos hshapes.1]
      exact ih hshapes.2
  rw [CellGrid.update, hassigned, hfold g.children hmem]

theorem insert_next (h : Drawn cols contents g) {i k : ℕ} (hlength : contents.length = i * cols + k) (hk : k < cols)
    {content : CellContent} (hcolumn : g.columnOf content.part = k) :
    ∃ next, g.insertToTableGrid ⟨10000 + contents.length, content⟩ = .ok next ∧ Drawn cols (contents ++ [content]) next ∧
      SameGrid g next := by
  have hfilled := h.filled
  rw [hlength] at hfilled
  obtain ⟨grid, hgrid, hnext, hsame⟩ := insertToTableGrid_next hfilled hk hcolumn
  have haccepts : g.accepts content.part (10000 + contents.length) = true := by
    rw [GridTableShape.accepts, Bool.and_eq_true, decide_eq_true_iff, decide_eq_true_iff, h.filled.cells, hcolumn,
      h.filled.cols]
    exact ⟨not_mem_filledCells _, Nat.cast_lt.mpr hk⟩
  refine ⟨{ g with toGridTableShape := grid, children := g.children ++ [⟨10000 + contents.length, content⟩] }, ?_, ⟨?_, ?_⟩,
    ⟨hsame, rfl, rows_le_of_insert hgrid⟩⟩
  · rw [CellGrid.insertToTableGrid, haccepts, hlength, hgrid]
    rfl
  · rw [List.length_append, List.length_singleton, hlength]
    exact hnext
  · change g.children ++ _ = _
    rw [h.children, numbered_append]
    rfl

theorem insertAll_next {i k : ℕ} {more : List CellContent} (h : Drawn cols contents g)
    (hlength : contents.length = i * cols + k) (hmore : k + more.length ≤ cols)
    (hcolumns : ∀ j content, more[j]? = some content → g.columnOf content.part = (k + j : ℕ)) :
    ∃ next, (numbered (10000 + contents.length) more).foldlM (fun g shape => g.insertToTableGrid shape) g = .ok next ∧
      Drawn cols (contents ++ more) next ∧ SameGrid g next := by
  induction more generalizing contents g k with
  | nil => exact ⟨g, rfl, by rwa [List.append_nil], .refl _⟩
  | cons content more ih =>
    rw [List.length_cons] at hmore
    obtain ⟨next, hnext, hdrawn, hsame⟩ := h.insert_next hlength (by omega) (hcolumns 0 content rfl)
    have hcount : (contents ++ [content]).length = i * cols + (k + 1) := by
      rw [List.length_append, List.length_singleton]
      omega
    obtain ⟨last, hlast, hdrawn, hrest⟩ := ih hdrawn hcount (by omega) fun j content hj => by
      rw [hsame.columnOf, hcolumns (j + 1) content hj]
      omega
    refine ⟨last, ?_, ?_, hsame.trans hrest⟩
    · rw [numbered, List.foldlM_cons, hnext]
      rw [List.length_append, List.length_singleton, Nat.cast_succ, ← add_assoc] at hlast
      exact hlast
    · rw [List.append_assoc] at hdrawn
      exact hdrawn

end Drawn

namespace MyErdTable

variable {t : MyErdTable} {field : DrawnField × ℕ} {contents : List CellContent} {g : CellGrid}

theorem length_rowOf (t : MyErdTable) (field : DrawnField × ℕ) : (t.rowOf field).length = t.shownColumns := by
  rw [rowOf, shownColumns]
  cases t.type <;> cases t.displayTypes <;> cases t.displayComments <;> rfl

theorem shownColumns_pos (t : MyErdTable) : 0 < t.shownColumns := by
  rw [shownColumns]
  split <;> omega

def rowParts (t : MyErdTable) : List FieldPart :=
  (match t.type with
    | .databaseView => [.key, .field]
    | .queryView => .field :: if t.displayTypes then [.fieldType] else []) ++
    if t.displayComments then [.comment] else []

theorem part_keyOf (f : DrawnField) : (keyOf f).part = .key := by
  rw [keyOf]
  split_ifs <;> rfl

theorem parts_rowOf (t : MyErdTable) (field : DrawnField × ℕ) : (t.rowOf field).map CellContent.part = t.rowParts := by
  rw [rowOf, rowParts]
  cases t.type <;> cases t.displayTypes <;> cases t.displayComments <;>
    simp only [List.map_append, List.map_cons, part_keyOf] <;> rfl

theorem columns_rowParts (h : t.Agrees) (hsame : SameGrid t.grid g) :
    (t.rowParts.map fun part => g.columnOf part) = (List.range t.shownColumns).map fun j : ℕ => (j : ℤ) := by
  have htype : g.type = t.type := hsame.type.trans h.type
  have htypes : g.showDataTypes = t.displayTypes := hsame.showDataTypes.trans h.dataTypes
  simp only [rowParts, shownColumns, GridTableShape.columnOf, htype, htypes]
  cases t.type <;> cases t.displayTypes <;> cases t.displayComments <;> decide

theorem columnOf_rowParts (h : t.Agrees) (hsame : SameGrid t.grid g) {j : ℕ} {part : FieldPart}
    (hj : t.rowParts[j]? = some part) : g.columnOf part = j := by
  have hcolumn := congrArg (·[j]?) (columns_rowParts h hsame)
  simp only [List.getElem?_map, hj, Option.map_some] at hcolumn
  obtain ⟨i, hi, hcolumn⟩ := Option.map_eq_some_iff.mp hcolumn.symm
  obtain ⟨hlt, rfl⟩ := List.getElem?_eq_some_iff.mp hi
  rw [List.getElem_range] at hcolumn
  exact hcolumn.symm

/-- The comment that the database view creates where comments are hidden. -/
def refusedOf (t : MyErdTable) (field : DrawnField × ℕ) : List CellContent :=
  if t.type = .databaseView ∧ t.displayComments = false then [.comment field.1.comment field.2] else []

theorem shapesOf_eq (t : MyErdTable) (field : DrawnField × ℕ) (id : ℤ) :
    t.shapesOf field id field.1.keyType = numbered (id + 10000) (t.rowOf field ++ t.refusedOf field) := by
  have htwo : id + 10000 + 1 + 1 = id + 10000 + 2 := by omega
  obtain ⟨f, place⟩ := field
  cases hview : t.type with
  | databaseView =>
    cases hpk : f.columnPK <;> cases hfk : f.columnFK <;> cases hcomments : t.displayComments <;>
      simp [shapesOf, rowOf, refusedOf, hview, hcomments, numbered, DrawnField.keyType, keyOf, hpk, hfk, htwo]
  | queryView =>
    cases htypes : t.displayTypes <;> cases hcomments : t.displayComments <;>
      simp [shapesOf, rowOf, refusedOf, hview, htypes, hcomments, numbered, htwo]

theorem insert_refused (h : t.Agrees) (hsame : SameGrid t.grid g)
    (hcols : g.cols = t.shownColumns) (id : ℤ) :
    (numbered id (t.refusedOf field)).foldlM (fun g shape => g.insertToTableGrid shape) g = .ok g := by
  rw [refusedOf]
  split_ifs with hrefused
  · obtain ⟨hview, hcomments⟩ := hrefused
    have hgview : g.type = .databaseView := (hsame.type.trans h.type).trans hview
    have htwo : g.cols = 2 := by
      rw [hcols, shownColumns, hview, hcomments]
      rfl
    have hrefuses : g.insertToTableGrid ⟨id, .comment field.1.comment field.2⟩ = .ok g := by
      apply CellGrid.insertToTableGrid_refused
      · rw [htwo]
        decide
      · rw [htwo]
        exact (if_pos hgview : g.columnOf .comment = 2).ge
    rw [numbered, numbered, List.foldlM_cons, hrefuses]
    rfl
  · rfl

theorem addColumn_next (field : DrawnField × ℕ) {n : ℕ} (h : t.Agrees) (hsame : SameGrid t.grid g)
    (hdrawn : Drawn t.shownColumns contents g) (hlength : contents.length = n * t.shownColumns) :
    ∃ next, t.addColumn field (n * t.columns) field.1.keyType g = .ok next ∧
      Drawn t.shownColumns (contents ++ t.rowOf field) next ∧
      SameGrid t.grid next := by
  have hid : (n : ℤ) * t.columns + 10000 = 10000 + contents.length := by
    rw [h.columns, hlength, Nat.cast_mul, add_comm]
  obtain ⟨next, hnext, hrow, hrowSame⟩ := hdrawn.insertAll_next (k := 0) hlength (by rw [t.length_rowOf field, Nat.zero_add])
    fun j content hj => by
      have hpart : t.rowParts[j]? = some content.part := by rw [← parts_rowOf t field, List.getElem?_map, hj, Option.map_some]
      rw [columnOf_rowParts h hsame hpart, Nat.zero_add]
  refine ⟨next, ?_, hrow, hsame.trans hrowSame⟩
  rw [addColumn, shapesOf_eq, hid, numbered_append, List.foldlM_append, hnext]
  exact insert_refused h (hsame.trans hrowSame) hrow.filled.cols _

theorem addColumns_next (fields : List (DrawnField × ℕ)) {n : ℕ} (h : t.Agrees)
    (hsame : SameGrid t.grid g) (hdrawn : Drawn t.shownColumns contents g)
    (hlength : contents.length = n * t.shownColumns) :
    ∃ next, t.addColumns fields (n * t.columns) g = .ok next ∧
      Drawn t.shownColumns (contents ++ fields.flatMap t.rowOf) next ∧ SameGrid t.grid next := by
  induction fields generalizing contents g n with
  | nil => exact ⟨g, rfl, by simpa using hdrawn, hsame⟩
  | cons field fields ih =>
    obtain ⟨row, hrow, hdrawn, hsame⟩ := addColumn_next field h hsame hdrawn hlength
    have hcount : (contents ++ t.rowOf field).length = (n + 1) * t.shownColumns := by
      rw [List.length_append, hlength, length_rowOf, Nat.succ_mul]
    obtain ⟨next, hnext, hdrawn, hlast⟩ := ih hsame hdrawn hcount
    refine ⟨next, ?_, ?_, hlast⟩
    · rw [addColumns, hrow, Faults.ok_bind, ← hnext, Nat.cast_succ, add_mul, one_mul]
    · rw [List.append_assoc] at hdrawn
      exact hdrawn

def contentsOf (t : MyErdTable) : List CellContent := t.fields.zipIdx.flatMap t.rowOf

structure UpdatedGrid (t : MyErdTable) (g : CellGrid) : Prop where
  drawn : Drawn t.shownColumns t.contentsOf g
  type : g.type = t.type
  cellSpace : g.cellSpace = 1
  rows : 1 ≤ g.rows

def cleared (t : MyErdTable) : MyErdTable :=
  { t with grid := { t.grid with rows := 1, cols := t.columns, cells := [], cellSpace := 1, children := [] } }

theorem clearGrid_eq (h : t.Agrees) : t.clearGrid = .ok t.cleared := by
  have hgrid : GridShape.empty.setDimensions 1 t.columns = .ok { GridShape.empty with rows := 1, cols := t.columns } := by
    rw [h.columns]
    exact setDimensions_pos t.shownColumns_pos _
  rw [clearGrid, hgrid]
  rfl

theorem updateTable_next (h : t.Agrees) : ∃ next, t.updateTable = .ok next ∧ t.UpdatedGrid next.grid := by
  have hagrees : t.cleared.Agrees := ⟨h.columns, h.type, h.dataTypes, h.comments⟩
  have hempty : Drawn t.cleared.shownColumns [] t.cleared.grid := ⟨⟨h.columns, rfl⟩, rfl⟩
  obtain ⟨grid, hgrid, hdrawn, hsame⟩ :=
    addColumns_next t.fields.zipIdx (n := 0) hagrees (.refl _) hempty (by simp)
  refine ⟨{ t.cleared with grid := grid.update }, ?_, ?_⟩
  · rw [Nat.cast_zero, zero_mul] at hgrid
    rw [updateTable, clearGrid_eq h, Faults.ok_bind]
    change t.cleared.addColumns t.fields.zipIdx 0 t.cleared.grid >>= _ = _
    rw [hgrid]
    rfl
  · change t.UpdatedGrid grid.update
    rw [hdrawn.update_eq]
    exact ⟨hdrawn, hsame.type.trans h.type, hsame.cellSpace, hsame.rows⟩

theorem updateTable_showsFields (h : t.Agrees) : ∃ next, t.updateTable = .ok next ∧ t.ShowsFields next.grid := by
  obtain ⟨next, hnext, ⟨hdrawn, -, -, -⟩⟩ := updateTable_next h
  have hlength : t.contentsOf.length = t.fields.length * t.shownColumns := by
    rw [contentsOf, RowMajor.length_flatMap fun field _ => t.length_rowOf field, List.length_zipIdx]
  refine ⟨next, hnext, hdrawn.filled.cols, ?_, ?_, hdrawn.nodup⟩
  · rw [hdrawn.filled.cells, length_filledCells, hlength]
  · intro i field hfield
    have hplace : t.fields.zipIdx[i]? = some (field, i) := by
      rw [List.getElem?_zipIdx, hfield]
      simp
    rw [← RowMajor.row_map, hdrawn.contentAt_cells, RowMajor.row_map, contentsOf,
      RowMajor.row_flatMap (fun field _ => t.length_rowOf field) hplace]

/-- A table of the database view without comments, whose grid still holds the cells of an earlier update. -/
def hiddenComments : MyErdTable where
  type := .databaseView
  fields := [
    ⟨"id".toList, "integer".toList, "key".toList, true, true⟩,
    ⟨"owner".toList, "integer".toList, [], false, true⟩,
    ⟨"name".toList, "varchar".toList, [], false, false⟩]
  displayTypes := true
  displayComments := false
  columns := 2
  grid := {
    rows := 1, cols := 3, cells := [10000, 10001, 10002], type := .databaseView, showComments := false, cellSpace := 1
    children := [⟨10000, .spacer⟩, ⟨10001, .field "id".toList 0⟩, ⟨10002, .comment [] 0⟩] }

theorem hiddenComments_showsFields :
    ∃ next, hiddenComments.updateTable = .ok next ∧ hiddenComments.ShowsFields next.grid :=
  updateTable_showsFields ⟨rfl, rfl, rfl, rfl⟩

end MyErdTable

end DbHandler.Diagram
