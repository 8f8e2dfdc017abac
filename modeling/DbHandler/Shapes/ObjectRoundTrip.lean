import DbHandler.Shapes.Loading
import DbHandler.Shapes.PropertyRoundTrip

namespace DbHandler.Shapes

open Foundation Foundation.Scanning PropertyIO

def Kind.cls : Kind → ShapeClass
  | .line _ _ => .line
  | .grid _ => .grid
  | .other => .other

/-- The numbers of the kind are values of their C types. -/
def Kind.Fits : Kind → Prop
  | .line source target => FitsLong source ∧ FitsLong target
  | .grid cells => ∀ id ∈ cells, FitsInt id
  | .other => True

instance (k : Kind) : Decidable k.Fits := by
  cases k <;> unfold Kind.Fits <;> infer_instance

namespace Serializable

/-- Nodes that are no properties are passed over. -/
theorem deserialize_append {f g : Forest Element} (hg : ∀ e ∈ g.roots, e.name ≠ Property.propertyName) (propName : Text)
    (properties : List Property) : deserialize (f.append g) propName properties = deserialize f propName properties := by
  induction f generalizing propName properties with
  | nil =>
    rw [Forest.append]
    induction g generalizing propName with
    | nil => rfl
    | node e below next _ ih =>
      simp only [Forest.roots_node, List.mem_cons, forall_eq_or_imp] at hg
      rw [deserialize, deserialize, if_neg hg.1]
      exact ih hg.2 propName
  | node e below next _ ih =>
    rw [Forest.append, deserialize, deserialize]
    split
    · exact ih _ _
    · exact ih _ _

end Serializable

namespace Shape

theorem idName_ne_sourceName : idName ≠ sourceName := by decide
theorem idName_ne_targetName : idName ≠ targetName := by decide
theorem idName_ne_cellsName : idName ≠ cellsName := by decide
theorem sourceName_ne_targetName : sourceName ≠ targetName := by decide

theorem properties_nodup (s : Shape) : (s.properties.map (·.fieldName)).Nodup := by
  rw [properties]
  cases s.kind with
  | line source target => exact (by decide : [idName, sourceName, targetName].Nodup)
  | grid cells => exact (by decide : [idName, cellsName].Nodup)
  | other => exact List.nodup_singleton _

theorem properties_fit {s : Shape} (hid : FitsLong s.id) (hkind : s.kind.Fits) : ∀ p ∈ s.properties, p.value.Fits := by
  rw [properties]
  cases hk : s.kind with
  | line source target =>
    rw [hk] at hkind
    simp only [List.forall_mem_cons, List.not_mem_nil, false_imp_iff, implies_true, and_true]
    exact ⟨hid, hkind⟩
  | grid cells =>
    rw [hk] at hkind
    simp only [List.forall_mem_cons, List.not_mem_nil, false_imp_iff, implies_true, and_true]
    exact ⟨hid, hkind⟩
  | other =>
    simp only [List.forall_mem_cons, List.not_mem_nil, false_imp_iff, implies_true, and_true]
    exact hid

theorem id_written (s : Shape) : ({ fieldName := idName, value := .long s.id } : Property).written = true := by
  simp [Property.written, Value.toString, ofInt_ne_nil]

theorem minus_one : ofInt (-1) = "-1".toList := by decide

/-- An end is left out of the document exactly when it is not set. -/
theorem end_written (name : Text) (id : ℤ) :
    ({ fieldName := name, value := .long id, defaultValueStr := "-1".toList } : Property).written = true ↔ id ≠ -1 := by
  simp only [Property.written, Value.toString, Bool.true_and, decide_eq_true_eq, ← minus_one]
  exact not_congr ofInt_injective.eq_iff

theorem cells_written (cells : List ℤ) :
    ({ fieldName := cellsName, value := .arrayint cells } : Property).written = true ↔ cells ≠ [] := by
  simp [Property.written, Value.toString]

/-- A new shape of the same class takes the properties of a saved one over. -/
theorem restored_properties {s t : Shape} (hkind : t.kind = s.kind.cls.blank) :
    t.properties.map (Serializable.restored s.properties) = s.properties := by
  have hone (p : Property) (hp : p ∈ s.properties) (value : Value) (hvalue : p.written = true ∨ value = p.value) :
      Serializable.restored s.properties { p with value := value } = p := by
    rw [Serializable.restored_created s.properties_nodup hp]
    split
    · rfl
    · rename_i hskipped
      rw [hvalue.resolve_left hskipped]
  have hid := hone { fieldName := idName, value := .long s.id } List.mem_cons_self (.long t.id) (.inl s.id_written)
  have hends (name : Text) (id : ℤ) : ({ fieldName := name, value := .long id, defaultValueStr := "-1".toList } :
      Property).written = true ∨ Value.long (-1) = Value.long id := by
    by_cases hset : id = -1
    · exact .inr (congrArg Value.long hset.symm)
    · exact .inl ((end_written name id).mpr hset)
  cases hk : s.kind with
  | line source target =>
    rw [hk] at hkind
    have hproperties : s.properties = [{ fieldName := idName, value := .long s.id },
        { fieldName := sourceName, value := .long source, defaultValueStr := "-1".toList },
        { fieldName := targetName, value := .long target, defaultValueStr := "-1".toList }] := by
      rw [properties, hk]
    have hsource := hone { fieldName := sourceName, value := .long source, defaultValueStr := "-1".toList }
      (by rw [hproperties]; simp) (.long (-1)) (hends sourceName source)
    have htarget := hone { fieldName := targetName, value := .long target, defaultValueStr := "-1".toList }
      (by rw [hproperties]; simp) (.long (-1)) (hends targetName target)
    have hblank : t.properties = [{ fieldName := idName, value := .long t.id },
        { fieldName := sourceName, value := .long (-1), defaultValueStr := "-1".toList },
        { fieldName := targetName, value := .long (-1), defaultValueStr := "-1".toList }] := by
      rw [properties, hkind]
      rfl
    rw [hblank]
    simp only [List.map_cons, List.map_nil, hid, hsource, htarget]
    exact hproperties.symm
  | grid cells =>
    rw [hk] at hkind
    have hproperties : s.properties = [{ fieldName := idName, value := .long s.id },
        { fieldName := cellsName, value := .arrayint cells }] := by
      rw [properties, hk]
    have hwritten : ({ fieldName := cellsName, value := .arrayint cells } : Property).written = true ∨
        Value.arrayint [] = Value.arrayint cells := by
      by_cases hempty : cells = []
      · exact .inr (congrArg Value.arrayint hempty.symm)
      · exact .inl ((cells_written cells).mpr hempty)
    have hcells := hone { fieldName := cellsName, value := .arrayint cells } (by rw [hproperties]; simp) (.arrayint [])
      hwritten
    have hblank : t.properties = [{ fieldName := idName, value := .long t.id },
        { fieldName := cellsName, value := .arrayint [] }] := by
      rw [properties, hkind]
      rfl
    rw [hblank]
    simp only [List.map_cons, List.map_nil, hid, hcells]
    exact hproperties.symm
  | other =>
    rw [hk] at hkind
    have hproperties : s.properties = [{ fieldName := idName, value := .long s.id }] := by
      rw [properties, hk]
    have hblank : t.properties = [{ fieldName := idName, value := .long t.id }] := by
      rw [properties, hkind]
      rfl
    rw [hblank]
    simp only [List.map_cons, List.map_nil, hid]
    exact hproperties.symm

theorem withProperties_properties {s t : Shape} (hkind : t.kind = s.kind.cls.blank) :
    t.withProperties s.properties = { t with id := s.id, kind := s.kind } := by
  cases hk : s.kind with
  | line source target =>
    rw [hk] at hkind
    simp [withProperties, properties, hkind, hk, Kind.cls, ShapeClass.blank, getLong, idName_ne_sourceName,
      idName_ne_targetName, sourceName_ne_targetName]
  | grid cells =>
    rw [hk] at hkind
    simp [withProperties, properties, hkind, hk, Kind.cls, ShapeClass.blank, getLong, getInts, idName_ne_cellsName]
  | other =>
    rw [hk] at hkind
    simp [withProperties, properties, hkind, hk, Kind.cls, ShapeClass.blank, getLong]

theorem dataType_of_name {s t : Shape} (hkind : t.kind = s.kind.cls.blank) : ∀ p ∈ s.properties, ∀ q ∈ t.properties,
    q.fieldName = p.fieldName → q.value.dataType = p.value.dataType := by
  intro p hp q hq hname
  cases hk : s.kind with
  | line source target =>
    rw [hk] at hkind
    simp only [properties, hk, List.mem_cons, List.not_mem_nil, or_false] at hp
    simp only [properties, hkind, Kind.cls, ShapeClass.blank, List.mem_cons, List.not_mem_nil, or_false] at hq
    rcases hp with rfl | rfl | rfl <;> rcases hq with rfl | rfl | rfl <;> rfl
  | grid cells =>
    rw [hk] at hkind
    simp only [properties, hk, List.mem_cons, List.not_mem_nil, or_false] at hp
    simp only [properties, hkind, Kind.cls, ShapeClass.blank, List.mem_cons, List.not_mem_nil, or_false] at hq
    rcases hp with rfl | rfl <;> rcases hq with rfl | rfl
    · rfl
    · exact absurd hname.symm idName_ne_cellsName
    · exact absurd hname idName_ne_cellsName
    · rfl
  | other =>
    rw [hk] at hkind
    simp only [properties, hk, List.mem_singleton] at hp
    simp only [properties, hkind, Kind.cls, ShapeClass.blank, List.mem_singleton] at hq
    obtain rfl := hp
    obtain rfl := hq
    rfl

/-- Reading the content that was written for a shape, the shapes under it behind. -/
theorem deserializeObject_serialize {s t : Shape} (hkind : t.kind = s.kind.cls.blank) (hid : FitsLong s.id)
    (hfits : s.kind.Fits) {below : Forest Element} (hbelow : ∀ e ∈ below.roots, e.name ≠ Property.propertyName) :
    t.deserializeObject ((Serializable.serialize s.properties).append below) = { t with id := s.id, kind := s.kind } := by
  rw [deserializeObject, Serializable.deserialize_append hbelow,
    Serializable.deserialize_serialize s.properties_nodup (properties_fit hid hfits) t.properties_nodup
      (dataType_of_name hkind), restored_properties hkind, withProperties_properties hkind]

end Shape

end DbHandler.Shapes
