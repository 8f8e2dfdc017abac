import Mathlib.Data.List.DropRight
import DbHandler.FieldProperties.Commands
import DbHandler.Foundation.Rectangles
import DbHandler.Foundation.Separators
import DbHandler.LoadedTable
import DbHandler.TableProperties.Statements

namespace DbHandler.Diagram

open Foundation Rectangles Separators

inductive FontStyle
  | normal
  | italic
  deriving DecidableEq, Repr

inductive FontWeight
  | normal
  | bold
  deriving DecidableEq, Repr

/-- A `wxFont` of the default family. -/
structure WxFont where
  pointSize : ℤ
  style : FontStyle
  weight : FontWeight
  underlined : Bool
  faceName : Text
  deriving DecidableEq, Repr

/-- The strike-out, the encoding and the size in pixels are not passed on. -/
def wxFont (f : Font) : WxFont where
  pointSize := f.size
  style := if f.italic then .italic else .normal
  weight := if f.weight = 0 then .normal else .bold
  underlined := f.underline
  faceName := f.name

/-- A `TableField` with its `m_props`. -/
structure QueryField extends TableField where
  props : FieldProperties

/-- Of a `DatabaseTable` its name and its fonts. -/
structure PropertyTable where
  tableName : Text
  props : TableProperties

inductive DesignClass
  | designLabel
  | designField
  | divider
  deriving DecidableEq, Repr

/-- What is passed to the constructors; `none` is the font that is not set. -/
inductive DesignShape
  | designLabel (font : Option WxFont) (label : Text) (alignment : ℤ)
  | designField (font : Option WxFont) (label : Text) (alignment : ℤ)
  | divider (type : Text)
  deriving DecidableEq, Repr

namespace DesignShape

def classInfo : DesignShape → DesignClass
  | designLabel .. => .designLabel
  | designField .. => .designField
  | divider _ => .divider

def text : DesignShape → Text
  | designLabel _ label _ => label
  | designField _ label _ => label
  | divider type => type

end DesignShape

structure PlacedShape where
  shape : DesignShape
  boundingBox : Rect
  deriving DecidableEq, Repr

/-- The framework, the device context and the database. `size` is the extent of a shape once it is laid out, and
`inset` how far `FitToChildren` then moves a label or a field down: the grid in it begins one pixel below it, and the
still empty shape goes where `wxRect::Union` of both begins. -/
structure Toolkit where
  size : DesignShape → Size
  inset : ℕ
  textExtent : WxFont → Text → Size
  fieldHeader : Text → Text → Text

/-- `GetBoundingBox` behind `AddShape` at a point of a canvas that is neither scrolled nor scaled. -/
def Toolkit.boundingBox (k : Toolkit) (shape : DesignShape) (pos : Point) : Rect :=
  match shape with
  | .divider _ => ⟨pos.x, pos.y, 5000, (k.size shape).2⟩
  | _ => ⟨pos.x, pos.y + k.inset, (k.size shape).1, (k.size shape).2⟩

structure DesignCanvas where
  startPoint : Point := ⟨1, 1⟩
  shapes : List PlacedShape := []
  deriving DecidableEq, Repr

section Places

/-- The shapes of a class, in the order in which they were added. -/
def getShapes (info : DesignClass) (shapes : List PlacedShape) : List PlacedShape :=
  shapes.filter fun p => p.shape.classInfo = info

/-- No catalog translates the type of a divider, whose last blank `Trim` takes away. -/
def headerEnd (shapes : List PlacedShape) : ℤ :=
  match (getShapes .divider shapes).find? fun p => p.shape.text.rdropWhile Char.isWhitespace = "Header".toList with
  | none => 0
  | some p => p.boundingBox.height + p.boundingBox.y + 2

def headerPlace (shapes : List PlacedShape) : ℤ :=
  (getShapes .designLabel shapes).foldl (fun ypos p =>
    let temp := p.boundingBox.height
    if temp + 2 > ypos then temp else ypos) 1

def dataPlace (shapes : List PlacedShape) : ℤ :=
  if (getShapes .designField shapes).length > 0 then
    (getShapes .designField shapes).foldl (fun ypos p =>
      let temp := p.boundingBox.height + p.boundingBox.y
      if temp + 2 > ypos then temp else ypos) 1
  else (getShapes .divider shapes).foldl (fun ypos p => ypos + (p.boundingBox.height + 2)) 1

end Places

namespace DesignCanvas

variable (k : Toolkit)

def addShape (c : DesignCanvas) (shape : DesignShape) (pos : Point) : DesignCanvas :=
  { c with shapes := c.shapes ++ [⟨shape, k.boundingBox shape pos⟩] }

def addFieldLabelToCanvas (labelFont : Option WxFont) (c : DesignCanvas) (label : QueryField) : DesignCanvas :=
  let labelShape := .designLabel labelFont label.props.heading label.props.headingPosition
  let rectLabel := k.boundingBox labelShape c.startPoint
  { c.addShape k labelShape c.startPoint with startPoint := ⟨c.startPoint.x + rectLabel.width + 2, c.startPoint.y⟩ }

def addFieldToCanvas (dataFont : Option WxFont) (c : DesignCanvas) (label : QueryField) : DesignCanvas :=
  let startPoint : Point := ⟨c.startPoint.x, headerEnd c.shapes⟩
  let labelShape := .designField dataFont label.props.label label.props.labelPosition
  let rectLabel := k.boundingBox labelShape startPoint
  { c.addShape k labelShape startPoint with startPoint := ⟨startPoint.x + rectLabel.width + 2, startPoint.y⟩ }

def addHeaderDivider (c : DesignCanvas) : DesignCanvas :=
  { c.addShape k (.divider "Header ".toList) ⟨1, headerPlace c.shapes⟩ with startPoint := ⟨1, c.startPoint.y⟩ }

def addDataDivider (c : DesignCanvas) : DesignCanvas := c.addShape k (.divider "Data ".toList) ⟨1, dataPlace c.shapes⟩

end DesignCanvas

section Fonts

variable (k : Toolkit)

def padded (diff : ℕ) (string : Text) : Text :=
  (List.range diff).foldl (fun string i => if i % 2 = 0 then ' ' :: string else string ++ [' ']) string

def withBlanks (string : Text) : Text := string.map fun c => if c = '_' then ' ' else c

/-- The condition for `dataFont` compares the height of the second text with itself. -/
def chooseFont (table : PropertyTable) (tableName : Text) (field : QueryField) : WxFont :=
  let headerStr := k.fieldHeader tableName field.columnName
  let headerString := withBlanks headerStr
  let dataString := withBlanks field.columnName
  let dataString := padded (headerString.length - dataString.length) dataString
  let labelFont := wxFont table.props.labelFont
  let dataFont := wxFont table.props.dataFont
  let size1 := k.textExtent labelFont headerStr
  let size2 := k.textExtent dataFont dataString
  if size1.1 > size2.1 ∧ size1.2 > size2.2 then labelFont
  else if size1.1 < size2.1 ∧ size2.2 < size2.2 then dataFont
  else labelFont

structure FontSearch where
  fontUsed : Option WxFont := none
  found : Bool := false
  deriving DecidableEq, Repr

def tableNameOf (field : QueryField) : Text := before '.' field.fullName

def searchTables (tables : List PropertyTable) (search : FontSearch) (field : QueryField) : FontSearch :=
  tables.foldl (fun search table =>
    if search.found then search
    else if table.tableName = tableNameOf field then ⟨some (chooseFont k table (tableNameOf field) field), true⟩
    else search) search

/-- `tables` is the list of the first catalog; the columns of the grouping are not used. -/
def populateQueryCanvas (tables : List PropertyTable) (queryFields : List QueryField) (c : DesignCanvas) :
    DesignCanvas :=
  if queryFields.length > 0 then
    let (search, c) := queryFields.foldl (fun (search, c) field =>
      let search := searchTables k tables search field
      (search, c.addFieldLabelToCanvas k search.fontUsed field)) (({} : FontSearch), c)
    let c := c.addHeaderDivider k
    let c := queryFields.foldl (DesignCanvas.addFieldToCanvas k search.fontUsed) c
    c.addDataDivider k
  else c

end Fonts

section Populating

variable (k : Toolkit) (tables : List PropertyTable)

/-- Shapes side by side from a place on. -/
def row (y : ℤ) : ℤ → List DesignShape → List PlacedShape
  | _, [] => []
  | x, shape :: shapes =>
    ⟨shape, k.boundingBox shape ⟨x, y⟩⟩ :: row y (x + (k.boundingBox shape ⟨x, y⟩).width + 2) shapes

/-- The labels, each with what the search has come to at its field. -/
def labelShapes (search : FontSearch) : List QueryField → List DesignShape
  | [] => []
  | field :: fields =>
    let search := searchTables k tables search field
    .designLabel search.fontUsed field.props.heading field.props.headingPosition :: labelShapes search fields

def fontUsed (fields : List QueryField) : Option WxFont := (fields.foldl (searchTables k tables) {}).fontUsed

def fieldShapes (font : Option WxFont) (fields : List QueryField) : List DesignShape :=
  fields.map fun field => .designField font field.props.label field.props.labelPosition

variable (queryFields : List QueryField) (c : DesignCanvas)

def labelled : List PlacedShape :=
  c.shapes ++ row k c.startPoint.y c.startPoint.x (labelShapes k tables {} queryFields)

def headed : List PlacedShape :=
  let shapes := labelled k tables queryFields c
  shapes ++ [⟨.divider "Header ".toList, k.boundingBox (.divider "Header ".toList) ⟨1, headerPlace shapes⟩⟩]

def filled : List PlacedShape :=
  let shapes := headed k tables queryFields c
  shapes ++ row k (headerEnd shapes) 1 (fieldShapes (fontUsed k tables queryFields) queryFields)

variable {k tables queryFields c}

theorem row_shapes (y x : ℤ) (shapes : List DesignShape) : (row k y x shapes).map PlacedShape.shape = shapes := by
  induction shapes generalizing x with
  | nil => rfl
  | cons shape shapes ih => rw [row, List.map_cons, ih]

theorem addLabels_eq (k : Toolkit) (tables : List PropertyTable) (search : FontSearch) (fields : List QueryField)
    (c : DesignCanvas) :
    ∃ x, fields.foldl (fun (search, c) field =>
        let search := searchTables k tables search field
        (search, c.addFieldLabelToCanvas k search.fontUsed field)) (search, c) =
      (fields.foldl (searchTables k tables) search,
        ⟨⟨x, c.startPoint.y⟩,
          c.shapes ++ row k c.startPoint.y c.startPoint.x (labelShapes k tables search fields)⟩) := by
  induction fields generalizing search c with
  | nil => exact ⟨c.startPoint.x, by rw [labelShapes, row, List.append_nil]; rfl⟩
  | cons field fields ih =>
    obtain ⟨x, hx⟩ := ih (searchTables k tables search field)
      (c.addFieldLabelToCanvas k (searchTables k tables search field).fontUsed field)
    refine ⟨x, ?_⟩
    rw [List.foldl_cons, List.foldl_cons, hx, labelShapes, row, List.append_cons]
    rfl

theorem headerEnd_append (shapes : List PlacedShape) {shape : PlacedShape} (h : shape.shape.classInfo ≠ .divider) :
    headerEnd (shapes ++ [shape]) = headerEnd shapes := by
  have hdividers : getShapes .divider (shapes ++ [shape]) = getShapes .divider shapes := by
    rw [getShapes, List.filter_append, List.filter_cons_of_neg (by simpa using h), List.filter_nil, List.append_nil,
      getShapes]
  rw [headerEnd, hdividers, headerEnd]

theorem addFields_shapes (font : Option WxFont) (fields : List QueryField) (c : DesignCanvas) :
    (fields.foldl (DesignCanvas.addFieldToCanvas k font) c).shapes =
      c.shapes ++ row k (headerEnd c.shapes) c.startPoint.x (fieldShapes font fields) := by
  induction fields generalizing c with
  | nil => rw [List.foldl_nil, fieldShapes, List.map_nil, row, List.append_nil]
  | cons field fields ih =>
    have hend : headerEnd (c.addFieldToCanvas k font field).shapes = headerEnd c.shapes :=
      headerEnd_append c.shapes (by simp [DesignShape.classInfo])
    have hshapes : fieldShapes font (field :: fields) =
        .designField font field.props.label field.props.labelPosition :: fieldShapes font fields := rfl
    rw [List.foldl_cons, ih, hend, hshapes, row, List.append_cons]
    rfl

theorem populateQueryCanvas_shapes (h : queryFields ≠ []) : (populateQueryCanvas k tables queryFields c).shapes =
    filled k tables queryFields c ++ [⟨.divider "Data ".toList,
      k.boundingBox (.divider "Data ".toList) ⟨1, dataPlace (filled k tables queryFields c)⟩⟩] := by
  obtain ⟨x, hx⟩ := addLabels_eq k tables {} queryFields c
  rw [populateQueryCanvas, if_pos (List.length_pos_iff.mpr h), hx]
  dsimp only
  rw [DesignCanvas.addDataDivider, DesignCanvas.addShape, addFields_shapes]
  rfl

theorem labelShapes_class (search : FontSearch) (fields : List QueryField) :
    ∀ shape ∈ labelShapes k tables search fields, shape.classInfo = .designLabel := by
  induction fields generalizing search with
  | nil => exact fun shape hshape => absurd hshape List.not_mem_nil
  | cons field fields ih => exact List.forall_mem_cons.mpr ⟨rfl, ih _⟩

theorem fieldShapes_class (font : Option WxFont) (fields : List QueryField) :
    ∀ shape ∈ fieldShapes font fields, shape.classInfo = .designField := by
  intro shape hshape
  obtain ⟨field, -, rfl⟩ := List.mem_map.mp hshape
  rfl

theorem getShapes_row {info : DesignClass} (y x : ℤ) {shapes : List DesignShape}
    (h : ∀ shape ∈ shapes, shape.classInfo = info) (asked : DesignClass) :
    getShapes asked (row k y x shapes) = if info = asked then row k y x shapes else [] := by
  have hplaced (placed) (hmem : placed ∈ row k y x shapes) : placed.shape.classInfo = info := by
    apply h
    rw [← row_shapes (k := k) y x shapes]
    exact List.mem_map_of_mem hmem
  split_ifs with hinfo
  · exact List.filter_eq_self.mpr fun placed hmem => decide_eq_true ((hplaced placed hmem).trans hinfo)
  · exact List.filter_eq_nil_iff.mpr fun placed hmem hasked =>
      hinfo ((hplaced placed hmem).symm.trans (of_decide_eq_true hasked))

theorem getShapes_append (info : DesignClass) (a b : List PlacedShape) :
    getShapes info (a ++ b) = getShapes info a ++ getShapes info b := List.filter_append a b

theorem getShapes_singleton (info : DesignClass) (placed : PlacedShape) :
    getShapes info [placed] = if placed.shape.classInfo = info then [placed] else [] := by
  simp [getShapes, List.filter_cons]

theorem getShapes_labelled (info : DesignClass) : getShapes info (labelled k tables queryFields c) =
    getShapes info c.shapes ++ if .designLabel = info then
      row k c.startPoint.y c.startPoint.x (labelShapes k tables {} queryFields) else [] := by
  rw [labelled, getShapes_append, getShapes_row _ _ (labelShapes_class {} queryFields)]

theorem getShapes_headed (info : DesignClass) : getShapes info (headed k tables queryFields c) =
    getShapes info (labelled k tables queryFields c) ++ if .divider = info then
      [⟨.divider "Header ".toList,
        k.boundingBox (.divider "Header ".toList) ⟨1, headerPlace (labelled k tables queryFields c)⟩⟩] else [] := by
  rw [headed, getShapes_append, getShapes_singleton]
  rfl

theorem getShapes_filled (info : DesignClass) : getShapes info (filled k tables queryFields c) =
    getShapes info (headed k tables queryFields c) ++ if .designField = info then
      row k (headerEnd (headed k tables queryFields c)) 1 (fieldShapes (fontUsed k tables queryFields) queryFields)
      else [] := by
  rw [filled, getShapes_append, getShapes_row _ _ (fieldShapes_class (fontUsed k tables queryFields) queryFields)]

/-- What stands on the canvas of each class behind what stood there. -/
theorem getShapes_populated (h : queryFields ≠ []) (info : DesignClass) :
    getShapes info (populateQueryCanvas k tables queryFields c).shapes = getShapes info c.shapes ++
      match info with
      | .designLabel => row k c.startPoint.y c.startPoint.x (labelShapes k tables {} queryFields)
      | .designField => row k (headerEnd (headed k tables queryFields c)) 1
          (fieldShapes (fontUsed k tables queryFields) queryFields)
      | .divider =>
        [⟨.divider "Header ".toList,
            k.boundingBox (.divider "Header ".toList) ⟨1, headerPlace (labelled k tables queryFields c)⟩⟩,
          ⟨.divider "Data ".toList,
            k.boundingBox (.divider "Data ".toList) ⟨1, dataPlace (filled k tables queryFields c)⟩⟩] := by
  rw [populateQueryCanvas_shapes h, getShapes_append, getShapes_filled, getShapes_headed, getShapes_labelled,
    getShapes_singleton]
  cases info <;> simp [DesignShape.classInfo]

end Populating

end DbHandler.Diagram
