import DbHandler.Diagram.DesignFonts
import DbHandler.Foundation.Marks

namespace DbHandler.Diagram

open Foundation Rectangles Marks

/-- From left to right on one level, none over another. -/
structure SideBySide (boxes : List Rect) : Prop where
  level : ∀ r ∈ boxes, ∀ s ∈ boxes, r.y = s.y
  ordered : boxes.Pairwise fun r s => r.x + r.width ≤ s.x
  disjoint : boxes.Pairwise Rect.Disjoint

structure LaidOut (queryFields : List QueryField) (c : DesignCanvas) : Prop where
  labels : (c.drawn .designLabel).map DesignShape.text = queryFields.map fun field => field.props.heading
  labelsBeside : SideBySide ((getShapes .designLabel c.shapes).map PlacedShape.boundingBox)
  fields : (c.drawn .designField).map DesignShape.text = queryFields.map fun field => field.props.label
  fieldsBeside : SideBySide ((getShapes .designField c.shapes).map PlacedShape.boundingBox)
  dividers : ∃ header data, getShapes .divider c.shapes =
      [⟨.divider "Header ".toList, header⟩, ⟨.divider "Data ".toList, data⟩] ∧
    (∀ p ∈ getShapes .designLabel c.shapes, p.boundingBox.bottom ≤ header.y) ∧
    (∀ p ∈ getShapes .designField c.shapes, header.bottom < p.boundingBox.y) ∧
    ∀ p ∈ getShapes .designField c.shapes, p.boundingBox.bottom ≤ data.y

section Heights

variable (k : Toolkit) (tables : List PropertyTable) (queryFields : List QueryField)

def heights (shapes : List DesignShape) : List ℤ := shapes.map fun shape => ((k.size shape).2 : ℤ)

def labelHeights : List ℤ := heights k (labelShapes k tables {} queryFields)

def fieldHeights : List ℤ := heights k (fieldShapes (fontUsed k tables queryFields) queryFields)

/-- The framework leaves the labels where they are put. Behind the last of the highest labels none is exactly one pixel
lower; behind the last of the fields that are at most one pixel lower than the highest, none is exactly one pixel lower
than that field, unless it is a highest one. -/
structure FitsDividers : Prop where
  inset : k.inset = 0
  labels : ∀ highest ∈ (labelHeights k tables queryFields).max?, Settles 2 highest (labelHeights k tables queryFields)
  fields : ∀ highest ∈ (fieldHeights k tables queryFields).max?,
    Settles 2 (highest - 1) (fieldHeights k tables queryFields)

end Heights

section Marks

variable {values : List ℤ}

theorem under_labels_iff (hne : values ≠ []) (hpos : ∀ v ∈ values, 0 ≤ v) (inset : ℕ) :
    (∀ v ∈ values, inset + v ≤ values.foldl (follow 2) 1) ↔
      inset = 0 ∧ ∀ highest ∈ values.max?, Settles 2 highest values := by
  have hiff : (∀ v ∈ values, v - 0 ≤ values.foldl (follow 2) 1) ↔
      ∀ highest ∈ values.max?, Settles 2 (highest - 0) values :=
    forall_le_follow_iff hne (by omega) fun v hv => by have := hpos v hv; omega
  simp only [Int.sub_zero] at hiff
  rw [← hiff]
  constructor
  · intro h
    obtain ⟨highest, hmax⟩ := Option.isSome_iff_exists.mp (List.isSome_max?_of_ne_nil hne)
    have hhighest := h highest (List.max?_eq_some_iff.mp hmax).1
    have hle : values.foldl (follow 2) 1 ≤ highest :=
      foldl_follow_le_max hmax fun v hv => by have := hpos v hv; omega
    obtain rfl : inset = 0 := by omega
    refine ⟨rfl, fun v hv => ?_⟩
    simpa using h v hv
  · rintro ⟨rfl, h⟩ v hv
    simpa using h v hv

theorem behind_fields_iff (hne : values ≠ []) (hpos : ∀ v ∈ values, 0 ≤ v) {top : ℤ} (htop : 0 < top) :
    (∀ v ∈ values, top + v - 1 ≤ (values.map fun v => top + v).foldl (follow 2) 1) ↔
      ∀ highest ∈ values.max?, Settles 2 (highest - 1) values := by
  have hfold : (values.map fun v => top + v).foldl (follow 2) (top + (1 - top)) =
      top + values.foldl (follow 2) (1 - top) := foldl_follow_add top
  have hiff : (∀ v ∈ values, v - 1 ≤ values.foldl (follow 2) (1 - top)) ↔
      ∀ highest ∈ values.max?, Settles 2 (highest - 1) values :=
    forall_le_follow_iff hne (by omega) fun v hv => by have := hpos v hv; omega
  have hstart : top + (1 - top) = 1 := by omega
  rw [hstart] at hfold
  rw [hfold, ← hiff]
  simp only [Int.add_sub_assoc, Int.add_le_add_iff_left]

end Marks

section Rows

variable {k : Toolkit} {y x : ℤ} {shapes : List DesignShape} {p : PlacedShape}

theorem row_heights (y x : ℤ) (shapes : List DesignShape) :
    (row k y x shapes).map (fun p => p.boundingBox.height) = heights k shapes := by
  induction shapes generalizing x with
  | nil => rfl
  | cons shape shapes ih =>
    rw [row, List.map_cons, ih, heights, heights, List.map_cons]
    cases shape <;> rfl

theorem boundingBox_x (shape : DesignShape) (pos : Point) : (k.boundingBox shape pos).x = pos.x := by
  cases shape <;> rfl

theorem row_left (y x : ℤ) (shapes : List DesignShape) : ∀ p ∈ row k y x shapes, x ≤ p.boundingBox.x := by
  induction shapes generalizing x with
  | nil => exact fun p hp => absurd hp List.not_mem_nil
  | cons shape shapes ih =>
    rw [row, List.forall_mem_cons]
    have hwidth : 0 ≤ (k.boundingBox shape ⟨x, y⟩).width := by cases shape <;> simp [Toolkit.boundingBox]
    refine ⟨(boundingBox_x shape ⟨x, y⟩).ge, fun p hp => ?_⟩
    have := ih _ p hp
    omega

theorem row_top (y x : ℤ) (hclass : ∀ shape ∈ shapes, shape.classInfo ≠ .divider) :
    ∀ p ∈ row k y x shapes, p.boundingBox.y = y + k.inset := by
  induction shapes generalizing x with
  | nil => exact fun p hp => absurd hp List.not_mem_nil
  | cons shape shapes ih =>
    obtain ⟨hshape, hshapes⟩ := List.forall_mem_cons.mp hclass
    rw [row, List.forall_mem_cons]
    refine ⟨?_, ih _ hshapes⟩
    cases shape with
    | designLabel font label alignment => rfl
    | designField font label alignment => rfl
    | divider type => exact absurd rfl hshape

theorem row_ordered (y x : ℤ) (shapes : List DesignShape) :
    (row k y x shapes).Pairwise fun p q => p.boundingBox.x + p.boundingBox.width ≤ q.boundingBox.x := by
  induction shapes generalizing x with
  | nil => exact List.Pairwise.nil
  | cons shape shapes ih =>
    rw [row, List.pairwise_cons]
    refine ⟨fun p hp => ?_, ih _⟩
    have := row_left y _ shapes p hp
    rw [boundingBox_x]
    dsimp only
    omega

theorem row_sideBySide (y x : ℤ) (hclass : ∀ shape ∈ shapes, shape.classInfo ≠ .divider) :
    SideBySide ((row k y x shapes).map PlacedShape.boundingBox) := by
  have hordered : ((row k y x shapes).map PlacedShape.boundingBox).Pairwise fun r s => r.x + r.width ≤ s.x :=
    List.pairwise_map.mpr (row_ordered y x shapes)
  refine ⟨?_, hordered, hordered.imp fun {r s} h => (Rect.disjoint_iff r s).mpr ?_⟩
  · simp only [List.forall_mem_map]
    intro p hp q hq
    rw [row_top y x hclass p hp, row_top y x hclass q hq]
  · exact Or.inr (Or.inr (Or.inl h))

theorem headerPlace_row {placed : List PlacedShape} (h : getShapes .designLabel placed = row k y x shapes) :
    headerPlace placed = (heights k shapes).foldl (follow 2) 1 := by
  rw [headerPlace, h, ← row_heights y x shapes, List.foldl_map]
  rfl

theorem dataPlace_row {placed : List PlacedShape} (h : getShapes .designField placed = row k y x shapes)
    (hclass : ∀ shape ∈ shapes, shape.classInfo ≠ .divider) (hne : shapes ≠ []) :
    dataPlace placed = ((heights k shapes).map fun v => y + k.inset + v).foldl (follow 2) 1 := by
  have hlength : (row k y x shapes).length = shapes.length := by
    rw [← List.length_map (f := PlacedShape.shape), row_shapes]
  have hends : (row k y x shapes).map (fun p => p.boundingBox.height + p.boundingBox.y) =
      (heights k shapes).map fun v => y + k.inset + v := by
    rw [← row_heights y x shapes, List.map_map]
    apply List.map_congr_left
    intro p hp
    rw [row_top y x hclass p hp, Function.comp_apply, Int.add_comm]
  rw [dataPlace, h, hlength, if_pos (List.length_pos_iff.mpr hne), ← hends, List.foldl_map]
  rfl

end Rows

section Populated

variable {k : Toolkit} {tables : List PropertyTable} {queryFields : List QueryField}

theorem labelShapes_text (search : FontSearch) (fields : List QueryField) :
    (labelShapes k tables search fields).map DesignShape.text = fields.map fun field => field.props.heading := by
  induction fields generalizing search with
  | nil => rfl
  | cons field fields ih =>
    rw [labelShapes, List.map_cons, ih, List.map_cons]
    rfl

theorem fieldShapes_text (font : Option WxFont) (fields : List QueryField) :
    (fieldShapes font fields).map DesignShape.text = fields.map fun field => field.props.label := by
  rw [fieldShapes, List.map_map]
  rfl

theorem labels_not_divider : ∀ shape ∈ labelShapes k tables {} queryFields, shape.classInfo ≠ .divider := by
  intro shape hshape
  rw [labelShapes_class {} queryFields shape hshape]
  exact DesignClass.noConfusion

theorem fields_not_divider (font : Option WxFont) :
    ∀ shape ∈ fieldShapes font queryFields, shape.classInfo ≠ .divider := by
  intro shape hshape
  rw [fieldShapes_class font queryFields shape hshape]
  exact DesignClass.noConfusion

theorem headerPlace_labelled :
    headerPlace (labelled k tables queryFields {}) = (labelHeights k tables queryFields).foldl (follow 2) 1 := by
  apply headerPlace_row
  rw [getShapes_labelled, if_pos rfl]
  rfl

theorem headerEnd_of_header {placed : List PlacedShape} {box : Rect}
    (h : getShapes .divider placed = [⟨.divider "Header ".toList, box⟩]) :
    headerEnd placed = box.height + box.y + 2 := by
  have htype : decide ((DesignShape.divider "Header ".toList).text.rdropWhile Char.isWhitespace =
      "Header".toList) = true := by decide
  rw [headerEnd, h, List.find?_cons, htype]

theorem headerEnd_headed : headerEnd (headed k tables queryFields {}) = (k.size (.divider "Header ".toList)).2 +
    (labelHeights k tables queryFields).foldl (follow 2) 1 + 2 := by
  have hdividers : getShapes .divider (headed k tables queryFields {}) = [⟨.divider "Header ".toList,
      k.boundingBox (.divider "Header ".toList) ⟨1, headerPlace (labelled k tables queryFields {})⟩⟩] := by
    rw [getShapes_headed, getShapes_labelled, if_pos rfl, if_neg DesignClass.noConfusion]
    rfl
  rw [headerEnd_of_header hdividers, ← headerPlace_labelled]
  rfl

theorem dataPlace_filled (h : queryFields ≠ []) :
    dataPlace (filled k tables queryFields {}) = ((fieldHeights k tables queryFields).map fun v =>
      headerEnd (headed k tables queryFields {}) + k.inset + v).foldl (follow 2) 1 := by
  have hfields : getShapes .designField (filled k tables queryFields {}) =
      row k (headerEnd (headed k tables queryFields {})) 1
        (fieldShapes (fontUsed k tables queryFields) queryFields) := by
    rw [getShapes_filled, getShapes_headed, getShapes_labelled, if_pos rfl, if_neg DesignClass.noConfusion,
      if_neg DesignClass.noConfusion]
    rfl
  exact dataPlace_row hfields (fields_not_divider _) (by simpa [fieldShapes] using h)

theorem heights_nonneg (shapes : List DesignShape) : ∀ v ∈ heights k shapes, 0 ≤ v := by
  intro v hv
  obtain ⟨shape, -, rfl⟩ := List.mem_map.mp hv
  exact Int.natCast_nonneg _

theorem headerEnd_pos : 0 < headerEnd (headed k tables queryFields {}) := by
  have hmark : 0 ≤ (labelHeights k tables queryFields).foldl (follow 2) 1 :=
    le_foldl_follow (by omega) (heights_nonneg _)
  rw [headerEnd_headed]
  omega

/-- The bottoms of a row, in numbers. -/
theorem bottoms_le_iff {y x bound : ℤ} {shapes : List DesignShape}
    (hclass : ∀ shape ∈ shapes, shape.classInfo ≠ .divider) :
    (∀ p ∈ row k y x shapes, p.boundingBox.bottom ≤ bound) ↔ ∀ v ∈ heights k shapes, y + k.inset + v - 1 ≤ bound := by
  rw [← row_heights y x shapes, List.forall_mem_map]
  apply forall₂_congr
  intro p hp
  rw [Rect.bottom, row_top y x hclass p hp]

/-- Whatever the sizes are, only the dividers can stand too high. -/
theorem laidOut_iff_bottoms (h : queryFields ≠ []) : LaidOut queryFields (populateQueryCanvas k tables queryFields {}) ↔
    (∀ v ∈ labelHeights k tables queryFields, k.inset + v ≤ headerPlace (labelled k tables queryFields {})) ∧
      ∀ v ∈ fieldHeights k tables queryFields, headerEnd (headed k tables queryFields {}) + k.inset + v - 1 ≤
        dataPlace (filled k tables queryFields {}) := by
  have hlabels : getShapes .designLabel (populateQueryCanvas k tables queryFields {}).shapes =
      row k 1 1 (labelShapes k tables {} queryFields) := getShapes_populated h .designLabel
  have hfields : getShapes .designField (populateQueryCanvas k tables queryFields {}).shapes =
      row k (headerEnd (headed k tables queryFields {})) 1 (fieldShapes (fontUsed k tables queryFields) queryFields) :=
    getShapes_populated h .designField
  have hunder : (∀ p ∈ row k 1 1 (labelShapes k tables {} queryFields),
      p.boundingBox.bottom ≤ headerPlace (labelled k tables queryFields {})) ↔
        ∀ v ∈ labelHeights k tables queryFields, k.inset + v ≤ headerPlace (labelled k tables queryFields {}) := by
    rw [bottoms_le_iff labels_not_divider, labelHeights]
    exact forall₂_congr fun v hv => by omega
  constructor
  · rintro ⟨-, -, -, -, header, data, hdividers, hlabelsEnd, -, hfieldsEnd⟩
    cases (getShapes_populated h .divider).symm.trans hdividers
    rw [hlabels] at hlabelsEnd
    rw [hfields] at hfieldsEnd
    exact ⟨hunder.mp hlabelsEnd, (bottoms_le_iff (fields_not_divider _)).mp hfieldsEnd⟩
  · rintro ⟨hlabelsEnd, hfieldsEnd⟩
    refine ⟨?_, ?_, ?_, ?_, _, _, getShapes_populated h .divider, ?_, ?_, ?_⟩
    · rw [labels_drawn k h]
      exact labelShapes_text {} queryFields
    · rw [hlabels]
      exact row_sideBySide 1 1 labels_not_divider
    · rw [fields_drawn k h]
      exact fieldShapes_text _ queryFields
    · rw [hfields]
      exact row_sideBySide _ 1 (fields_not_divider _)
    · rw [hlabels]
      exact hunder.mpr hlabelsEnd
    · rw [hfields]
      intro p hp
      rw [row_top _ 1 (fields_not_divider _) p hp, headerEnd_headed, ← headerPlace_labelled]
      simp only [Rect.bottom, Toolkit.boundingBox]
      omega
    · rw [hfields]
      exact (bottoms_le_iff (fields_not_divider _)).mpr hfieldsEnd

theorem labelHeights_ne_nil (h : queryFields ≠ []) : labelHeights k tables queryFields ≠ [] := by
  cases queryFields with
  | nil => exact absurd rfl h
  | cons field fields => exact List.cons_ne_nil _ _

theorem laidOut_iff (h : queryFields ≠ []) : LaidOut queryFields (populateQueryCanvas k tables queryFields {}) ↔
    FitsDividers k tables queryFields := by
  have hfields : fieldHeights k tables queryFields ≠ [] := by simpa [fieldHeights, heights, fieldShapes] using h
  have htop : 0 < headerEnd (headed k tables queryFields {}) + k.inset := by
    have hpos : 0 < headerEnd (headed k tables queryFields {}) := headerEnd_pos
    omega
  rw [laidOut_iff_bottoms h, headerPlace_labelled, dataPlace_filled h,
    under_labels_iff (labelHeights_ne_nil h) (heights_nonneg _), behind_fields_iff hfields (heights_nonneg _) htop]
  constructor
  · rintro ⟨⟨hinset, hunder⟩, hbehind⟩
    exact ⟨hinset, hunder, hbehind⟩
  · intro fits
    exact ⟨⟨fits.inset, fits.labels⟩, fits.fields⟩

/-- With its edge behind the last row of pixels, a highest label always ends below the upper edge of the divider. -/
theorem header_above_edge (h : queryFields ≠ []) :
    ∃ p ∈ getShapes .designLabel (populateQueryCanvas k tables queryFields {}).shapes,
      headerPlace (labelled k tables queryFields {}) < p.boundingBox.y + p.boundingBox.height := by
  have hne : labelHeights k tables queryFields ≠ [] := labelHeights_ne_nil h
  obtain ⟨highest, hmax⟩ := Option.isSome_iff_exists.mp (List.isSome_max?_of_ne_nil hne)
  have hmem := (List.max?_eq_some_iff.mp hmax).1
  have hle : (labelHeights k tables queryFields).foldl (follow 2) 1 ≤ highest :=
    foldl_follow_le_max hmax fun v hv => by have : 0 ≤ v := heights_nonneg _ v hv; omega
  rw [labelHeights, ← row_heights 1 1] at hmem
  obtain ⟨p, hp, hheight⟩ := List.mem_map.mp hmem
  refine ⟨p, ?_, ?_⟩
  · rw [getShapes_populated h]
    exact hp
  · rw [headerPlace_labelled, row_top 1 1 labels_not_divider p hp, hheight]
    omega

def oneTable : List PropertyTable := [tableWithSize "orders".toList 8]

theorem lower_label_lifts_divider :
    ¬ LaidOut fieldsOfBoth.reverse (populateQueryCanvas (plainToolkit 0) oneTable fieldsOfBoth.reverse {}) ∧
      ¬ LaidOut fieldsOfBoth.reverse (populateQueryCanvas (plainToolkit 1) oneTable fieldsOfBoth.reverse {}) := by
  have hne : fieldsOfBoth.reverse ≠ [] := List.cons_ne_nil _ _
  constructor <;> rw [laidOut_iff_bottoms hne, headerPlace_labelled] <;> rintro ⟨h, -⟩
  · exact absurd (h 25 (by decide)) (by decide)
  · exact absurd (h 25 (by decide)) (by decide)

theorem one_font_laidOut : LaidOut fieldsOfBoth (populateQueryCanvas (plainToolkit 0) oneTable fieldsOfBoth {}) := by
  refine (laidOut_iff (List.cons_ne_nil _ _)).mpr ⟨rfl, fun highest hmax => ?_, fun highest hmax => ?_⟩
  · obtain rfl : 24 = highest := Option.some.inj hmax
    exact settles_of_gap (by decide)
  · obtain rfl : 24 = highest := Option.some.inj hmax
    exact settles_of_gap (by decide)

end Populated

end DbHandler.Diagram
