import DbHandler.Diagram.DesignCanvas

namespace DbHandler.Diagram

open Foundation Rectangles Separators

/-- The fonts that the properties of a table describe. -/
def PropertyTable.fonts (table : PropertyTable) : List WxFont :=
  [wxFont table.props.labelFont, wxFont table.props.dataFont, wxFont table.props.headingFont]

def tableOf (tables : List PropertyTable) (field : QueryField) : Option PropertyTable :=
  tables.find? fun table => table.tableName = tableNameOf field

def InTableFont (tables : List PropertyTable) (field : QueryField) (font : WxFont) : Prop :=
  ∃ table, tableOf tables field = some table ∧ font ∈ table.fonts

def DesignCanvas.drawn (info : DesignClass) (c : DesignCanvas) : List DesignShape :=
  (getShapes info c.shapes).map PlacedShape.shape

/-- Behind what was on the canvas each query field is drawn in order, with a font of its own table. -/
structure DrawsInTableFonts (tables : List PropertyTable) (queryFields : List QueryField) (c c' : DesignCanvas) :
    Prop where
  labels : ∃ labels, c'.drawn .designLabel = c.drawn .designLabel ++ labels ∧
    List.Forall₂ (fun field shape => ∃ font, InTableFont tables field font ∧
      shape = .designLabel (some font) field.props.heading field.props.headingPosition) queryFields labels
  fields : ∃ fields, c'.drawn .designField = c.drawn .designField ++ fields ∧
    List.Forall₂ (fun field shape => ∃ font, InTableFont tables field font ∧
      shape = .designField (some font) field.props.label field.props.labelPosition) queryFields fields

/-- The label font of the first field's table is one of the fonts of every field's table. -/
def SharesFirstFont (tables : List PropertyTable) (queryFields : List QueryField) : Prop :=
  ∀ first ∈ queryFields.head?, ∃ table, tableOf tables first = some table ∧
    ∀ field ∈ queryFields, InTableFont tables field (wxFont table.props.labelFont)

section Search

variable (k : Toolkit) {tables : List PropertyTable} {search : FontSearch} {field : QueryField}

theorem chooseFont_eq (table : PropertyTable) (tableName : Text) (field : QueryField) :
    chooseFont k table tableName field = wxFont table.props.labelFont := by
  rw [chooseFont]
  split_ifs with hlabel hdata
  · rfl
  · exact absurd hdata.2 (lt_irrefl _)
  · rfl

theorem searchTables_of_found (h : search.found = true) : searchTables k tables search field = search := by
  rw [searchTables]
  induction tables with
  | nil => rfl
  | cons table tables ih => rw [List.foldl_cons, if_pos h, ih]

theorem searchTables_of_not_found (h : search.found = false) : searchTables k tables search field =
    (tableOf tables field).elim search fun table => ⟨some (wxFont table.props.labelFont), true⟩ := by
  induction tables with
  | nil => rfl
  | cons table tables ih =>
    have hstep : searchTables k (table :: tables) search field = searchTables k tables
        (if table.tableName = tableNameOf field then ⟨some (chooseFont k table (tableNameOf field) field), true⟩
          else search) field := by
      rw [searchTables, List.foldl_cons, if_neg (by rw [h]; exact Bool.false_ne_true)]
      rfl
    by_cases hname : table.tableName = tableNameOf field
    · have hfind : tableOf (table :: tables) field = some table := List.find?_cons_of_pos (decide_eq_true hname)
      rw [hstep, if_pos hname, hfind, searchTables_of_found k rfl, chooseFont_eq]
      rfl
    · have hfind : tableOf (table :: tables) field = tableOf tables field :=
        List.find?_cons_of_neg (by simpa using hname)
      rw [hstep, if_neg hname, hfind, ih]

end Search

section Populated

variable (k : Toolkit) {tables : List PropertyTable} {queryFields : List QueryField} {c : DesignCanvas}

theorem labels_drawn (h : queryFields ≠ []) : (populateQueryCanvas k tables queryFields c).drawn .designLabel =
    c.drawn .designLabel ++ labelShapes k tables {} queryFields := by
  rw [DesignCanvas.drawn, getShapes_populated h, List.map_append, row_shapes, DesignCanvas.drawn]

theorem fields_drawn (h : queryFields ≠ []) : (populateQueryCanvas k tables queryFields c).drawn .designField =
    c.drawn .designField ++ fieldShapes (fontUsed k tables queryFields) queryFields := by
  rw [DesignCanvas.drawn, getShapes_populated h, List.map_append, row_shapes, DesignCanvas.drawn]

theorem labelShapes_of_found {search : FontSearch} (h : search.found = true) (fields : List QueryField) :
    labelShapes k tables search fields = fields.map fun field =>
      .designLabel search.fontUsed field.props.heading field.props.headingPosition := by
  induction fields with
  | nil => rfl
  | cons field fields ih => rw [labelShapes, searchTables_of_found k h, ih, List.map_cons]

theorem search_of_found {search : FontSearch} (h : search.found = true) (fields : List QueryField) :
    fields.foldl (searchTables k tables) search = search := by
  induction fields with
  | nil => rfl
  | cons field fields ih => rw [List.foldl_cons, searchTables_of_found k h, ih]

section First

variable {first : QueryField} {rest : List QueryField} {table : PropertyTable}

theorem searchTables_first (h : tableOf tables first = some table) :
    searchTables k tables {} first = ⟨some (wxFont table.props.labelFont), true⟩ := by
  rw [searchTables_of_not_found k rfl, h, Option.elim_some]

theorem labelShapes_first (h : tableOf tables first = some table) :
    labelShapes k tables {} (first :: rest) = (first :: rest).map fun field =>
      .designLabel (some (wxFont table.props.labelFont)) field.props.heading field.props.headingPosition := by
  rw [labelShapes, searchTables_first k h, labelShapes_of_found k rfl, List.map_cons]

theorem fontUsed_first (h : tableOf tables first = some table) :
    fontUsed k tables (first :: rest) = some (wxFont table.props.labelFont) := by
  rw [fontUsed, List.foldl_cons, searchTables_first k h, search_of_found k rfl]

end First

/-- The first field decides on the font of all. -/
theorem drawsInTableFonts_iff (tables : List PropertyTable) (queryFields : List QueryField) (c : DesignCanvas) :
    DrawsInTableFonts tables queryFields c (populateQueryCanvas k tables queryFields c) ↔
      SharesFirstFont tables queryFields := by
  cases queryFields with
  | nil =>
    refine iff_of_true ⟨⟨[], ?_, .nil⟩, ⟨[], ?_, .nil⟩⟩ fun first hfirst => ?_
    · exact (List.append_nil _).symm
    · exact (List.append_nil _).symm
    · exact absurd hfirst (Option.not_mem_none first)
  | cons first rest =>
    have hne : first :: rest ≠ [] := List.cons_ne_nil first rest
    have hlabels : (populateQueryCanvas k tables (first :: rest) c).drawn .designLabel =
        c.drawn .designLabel ++ labelShapes k tables {} (first :: rest) := labels_drawn k hne
    constructor
    · rintro h _ ⟨⟩
      obtain ⟨labels, happended, hdrawn⟩ := h.labels
      rw [hlabels] at happended
      rw [← List.append_cancel_left happended] at hdrawn
      cases htable : tableOf tables first with
      | none =>
        -- the label of the first field has no font at all
        rw [labelShapes, searchTables_of_not_found k rfl, htable] at hdrawn
        obtain ⟨⟨font, -, hfont⟩, -⟩ := List.forall₂_cons.mp hdrawn
        cases hfont
      | some table =>
        refine ⟨table, rfl, ?_⟩
        rw [labelShapes_first k htable, List.forall₂_map_right_iff, List.forall₂_same] at hdrawn
        intro field hfield
        obtain ⟨font, hfont, hsame⟩ := hdrawn field hfield
        cases hsame
        exact hfont
    · intro h
      obtain ⟨table, htable, hfonts⟩ := h first rfl
      refine ⟨⟨_, hlabels, ?_⟩, ⟨_, fields_drawn k hne, ?_⟩⟩
      · rw [labelShapes_first k htable, List.forall₂_map_right_iff, List.forall₂_same]
        exact fun field hfield => ⟨_, hfonts field hfield, rfl⟩
      · rw [fontUsed_first k htable, fieldShapes, List.forall₂_map_right_iff, List.forall₂_same]
        exact fun field hfield => ⟨_, hfonts field hfield, rfl⟩

/-- A column and a table as their constructors leave them, with a size for the fonts. -/
def columnOf (table column : Text) : QueryField where
  columnName := column
  columnType := []
  fieldSize := -1
  decimalSize := -1
  fullName := table ++ '.' :: column
  columnDefaultValue := []
  columnIsNull := false
  autoIncrement := false
  columnPK := false
  columnFK := false
  props := ⟨[], column.map fun c => if c = '_' then '.' else c, column.map fun c => if c = '_' then '\n' else c, 0, 2⟩

def tableWithSize (name : Text) (size : ℤ) : PropertyTable where
  tableName := name
  props :=
    { comment := []
      dataFontName := "MS Sans Serif".toList
      headingFontName := "MS Sans Serif".toList
      labelFontName := "MS Sans Serif".toList
      dataFontSize := size
      dataFontEncoding := 0
      dataFontPixelSize := 0
      dataFontWeight := 0
      dataFontUnderline := false
      dataFontStrikethrough := false
      dataFontItalic := false
      headingFontSize := size
      headingFontEncoding := 0
      headingFontPixelSize := 0
      headingFontWeight := 1
      headingFontUnderline := false
      headingFontStrikethrough := false
      headingFontItalic := false
      labelFontSize := size
      labelFontEncoding := 0
      labelFontPixelSize := 0
      labelFontWeight := 1
      labelFontUnderline := false
      labelFontStrikethrough := false
      labelFontItalic := false }

/-- Shapes are a pixel higher in the font that is not set. -/
def plainToolkit (inset : ℕ) : Toolkit where
  size
    | .designLabel none label _ => (8 * label.length, 25)
    | .divider _ => (5000, 18)
    | shape => (8 * shape.text.length, 24)
  inset := inset
  textExtent font text := (8 * text.length, font.pointSize.toNat)
  fieldHeader _ fieldName := fieldName

def twoTables : List PropertyTable := [tableWithSize "orders".toList 8, tableWithSize "clients".toList 12]

def fieldsOfBoth : List QueryField := [columnOf "orders".toList "id".toList, columnOf "clients".toList "name".toList]

theorem second_table_in_first_font :
    ¬ DrawsInTableFonts twoTables fieldsOfBoth {} (populateQueryCanvas (plainToolkit 1) twoTables fieldsOfBoth {}) := by
  intro h
  obtain ⟨labels, happended, hdrawn⟩ := h.labels
  have hfirst : tableOf twoTables (columnOf "orders".toList "id".toList) = some (tableWithSize "orders".toList 8) := rfl
  rw [fieldsOfBoth, labels_drawn _ (List.cons_ne_nil _ _)] at happended
  rw [← List.append_cancel_left happended, fieldsOfBoth, labelShapes_first _ hfirst, List.forall₂_map_right_iff,
    List.forall₂_same] at hdrawn
  obtain ⟨font, ⟨table, htable, hfont⟩, hsame⟩ := hdrawn (columnOf "clients".toList "name".toList) (by simp)
  cases hsame
  obtain rfl : tableWithSize "clients".toList 12 = table := Option.some.inj htable
  exact absurd hfont (by decide)

end Populated

end DbHandler.Diagram
