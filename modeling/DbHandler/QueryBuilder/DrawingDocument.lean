import DbHandler.Foundation.Search
import DbHandler.Foundation.Vectors
import DbHandler.QueryBuilder.SelectList

namespace DbHandler.QueryBuilder

open Foundation Foundation.Search
open Foundation.Sql (quotation)

structure GroupFields where
  fieldName : Text
  position : ℤ
  internalPosition : ℤ
  deriving DecidableEq, Repr

structure FieldSorter where
  name : Text
  isAscending : Bool
  originalPosition : ℤ
  deriving DecidableEq, Repr

structure DrawingDocument where
  queryFields : List TableField
  groupByFields : List GroupFields
  groupByFieldsAll : List GroupFields
  sortedFields : List FieldSorter
  sortedFieldsAll : List FieldSorter
  deriving DecidableEq, Repr

def TableField.fullName (field : TableField) : Text := field.tableName ++ '.' :: field.fieldName

def startsWithTable (tableName name : Text) : Bool := (quotation :: tableName).isPrefixOf name

def groupNames (fields : List GroupFields) : List Text := fields.map GroupFields.fieldName

def sortNames (fields : List FieldSorter) : List Text := fields.map FieldSorter.name

def blankGroupFields : GroupFields := ⟨[], -1, -1⟩

/-- `FieldSorter( name, position, original_position )`: the position is converted to the direction. -/
def FieldSorter.ofPosition (name : Text) (position original : ℕ) : FieldSorter := ⟨name, position != 0, original⟩

namespace DrawingDocument

variable (d : DrawingDocument)

def addGroupByFieldToQuery (name : Text) (position original : ℕ) : Option (DrawingDocument × Text) :=
  (Vectors.insert GroupFields.fieldName ⟨name, position, original⟩ position d.groupByFields).map fun fields =>
    ({ d with
        groupByFieldsAll := Vectors.removeIf GroupFields.fieldName (· == name) d.groupByFieldsAll
        groupByFields := fields },
      groupBy ++ joined (groupNames fields))

/-- The second loop hands iterators of `m_groupByFields` to `m_groupByFieldsAll.erase`, which is
undefined; it has no turn when that list is empty. -/
def deleteGroupByTable (tableName : Text) : Option (DrawingDocument × Text) :=
  (Vectors.sweep GroupFields.fieldName (startsWithTable tableName) d.groupByFieldsAll).bind fun all =>
    if d.groupByFields = [] then
      some ({ d with groupByFieldsAll := all }, remaining groupBy (groupNames d.groupByFields))
    else none

def deleteGroupByField (name : Text) (original : ℕ) : Option (DrawingDocument × Text) :=
  let fields := Vectors.removeIf GroupFields.fieldName (· == name) d.groupByFields
  (Vectors.insert GroupFields.fieldName ⟨name, original, original⟩ original d.groupByFieldsAll).map fun all =>
    ({ d with groupByFields := fields, groupByFieldsAll := all }, remaining groupBy (groupNames fields))

/-- The replacement is not cleared before the names are appended, and a name that is not in the list is
entered as a blank one. -/
def shuffleGroupByFields (fieldName : Text) (newPosition : ℕ) (replace : Text) : Option (DrawingDocument × Text) :=
  let removed := d.groupByFields.filter (·.fieldName == fieldName)
  let fieldToRemove := removed.foldl (Vectors.assign GroupFields.fieldName) blankGroupFields
  let fields := Vectors.removeIf GroupFields.fieldName (· == fieldName) d.groupByFields
  (Vectors.insert GroupFields.fieldName { fieldToRemove with position := newPosition } newPosition fields).map
    fun fields => ({ d with groupByFields := fields }, replace ++ joined (groupNames fields))

def addSortedField (name : Text) (originalPosition position : ℕ) : Option (DrawingDocument × Text) :=
  (Vectors.insert FieldSorter.name (.ofPosition name position originalPosition) position d.sortedFields).map
    fun fields =>
      ({ d with
          sortedFieldsAll := Vectors.removeIf FieldSorter.name (· == name) d.sortedFieldsAll
          sortedFields := fields },
        orderBy ++ joined (sortNames fields))

/-- The text that replaces the clause begins with `GROUP BY`. -/
def deleteSortedTable (tableName : Text) : Option (DrawingDocument × Text) :=
  (Vectors.sweep FieldSorter.name (startsWithTable tableName) d.sortedFieldsAll).bind fun all =>
    (Vectors.sweep FieldSorter.name (startsWithTable tableName) d.sortedFields).map fun fields =>
      ({ d with sortedFieldsAll := all, sortedFields := fields }, remaining groupBy (sortNames fields))

/-- As in `deleteSortedTable`, `GROUP BY` is written. -/
def deleteSortedField (name : Text) (original : ℕ) : Option (DrawingDocument × Text) :=
  let fields := Vectors.removeIf FieldSorter.name (· == name) d.sortedFields
  (Vectors.insert FieldSorter.name (.ofPosition name original original) original d.sortedFieldsAll).map fun all =>
    ({ d with sortedFields := fields, sortedFieldsAll := all }, remaining groupBy (sortNames fields))

/-- The lambda takes each field by value: what it toggles is its own copy. -/
def changeSortOrder (_fieldName : Text) (_newPosition : ℕ) : DrawingDocument := d

/-- The replacement has no separators between the names. -/
def deleteQueryFieldForTable (tableName : Text) : Option (DrawingDocument × Text) :=
  (Vectors.eraseFirst (fun field => find tableName field.fullName == some 0) d.queryFields).map fun fields =>
    ({ d with queryFields := fields }, if fields = [] then [] else select ++ fields.flatMap TableField.fullName)

/-- The names, which are all that the rest of the query builder reads. -/
def names : Document where
  queryFields := d.queryFields
  groupByFieldsAll := groupNames d.groupByFieldsAll
  groupByFields := groupNames d.groupByFields
  sortedFieldsAll := sortNames d.sortedFieldsAll
  sortedFields := sortNames d.sortedFields

end DrawingDocument

theorem groupNames_removeIf (name : Text) (l : List GroupFields) :
    groupNames (Vectors.removeIf GroupFields.fieldName (· == name) l) = (groupNames l).filter (· ≠ name) := by
  rw [groupNames, Vectors.keys_removeIf]
  apply List.filter_congr
  simp [beq_eq_decide]

theorem sortNames_removeIf (name : Text) (l : List FieldSorter) :
    sortNames (Vectors.removeIf FieldSorter.name (· == name) l) = (sortNames l).filter (· ≠ name) := by
  rw [sortNames, Vectors.keys_removeIf]
  apply List.filter_congr
  simp [beq_eq_decide]

theorem groupNames_insert (field : GroupFields) (position : ℕ) (l : List GroupFields) :
    (Vectors.insert GroupFields.fieldName field position l).map groupNames =
      insertAt (groupNames l) position field.fieldName := by
  rw [insertAt, groupNames, List.length_map]
  exact Vectors.keys_insert field position l

theorem sortNames_insert (field : FieldSorter) (position : ℕ) (l : List FieldSorter) :
    (Vectors.insert FieldSorter.name field position l).map sortNames =
      insertAt (sortNames l) position field.name := by
  rw [insertAt, sortNames, List.length_map]
  exact Vectors.keys_insert field position l

theorem shuffled_fieldName (fieldName : Text) (l : List GroupFields) :
    ((l.filter (·.fieldName == fieldName)).foldl (Vectors.assign GroupFields.fieldName) blankGroupFields).fieldName =
      if fieldName ∈ groupNames l then fieldName else [] := by
  have hfold (m : List GroupFields) (hm : ∀ field ∈ m, field.fieldName = fieldName) (start : GroupFields) :
      (m.foldl (Vectors.assign GroupFields.fieldName) start).fieldName =
        if m = [] then start.fieldName else fieldName := by
    induction m generalizing start with
    | nil => rfl
    | cons field m ih =>
      obtain ⟨hfield, hm⟩ := List.forall_mem_cons.mp hm
      rw [List.foldl_cons, ih hm, Vectors.key_assign GroupFields.fieldName, hfield]
      simp
  rw [hfold _ (by simp)]
  by_cases hmem : fieldName ∈ groupNames l
  · obtain ⟨field, hfield, rfl⟩ := List.mem_map.mp hmem
    rw [if_pos hmem, if_neg]
    exact List.ne_nil_of_mem (List.mem_filter.mpr ⟨hfield, by simp⟩)
  · rw [if_neg hmem, if_pos]
    · rfl
    · apply List.filter_eq_nil_iff.mpr
      intro field hfield
      simp only [beq_iff_eq]
      rintro rfl
      exact hmem (List.mem_map_of_mem hfield)

namespace DrawingDocument

variable (d : DrawingDocument)

/-! The five operations of the query builder do to the names what they do to the records. -/

theorem names_addGroupByFieldToQuery (name : Text) (position original : ℕ) :
    (d.addGroupByFieldToQuery name position original).map (Prod.map names id) =
      QueryBuilder.addGroupByFieldToQuery name position d.names := by
  have hinsert := groupNames_insert ⟨name, position, original⟩ position d.groupByFields
  rw [QueryBuilder.addGroupByFieldToQuery, names, ← hinsert, addGroupByFieldToQuery, Option.map_map, Option.map_map]
  apply congrArg (Option.map · _)
  funext fields
  simp [names, groupNames_removeIf]

theorem names_deleteGroupByField (name : Text) (original : ℕ) :
    (d.deleteGroupByField name original).map (Prod.map names id) =
      QueryBuilder.deleteGroupByField name original d.names := by
  have hinsert := groupNames_insert ⟨name, original, original⟩ original d.groupByFieldsAll
  rw [QueryBuilder.deleteGroupByField, names, ← hinsert, deleteGroupByField, Option.map_map, Option.map_map]
  apply congrArg (Option.map · _)
  funext all
  simp [names, groupNames_removeIf]

theorem names_shuffleGroupByFields (fieldName : Text) (newPosition : ℕ) :
    (d.shuffleGroupByFields fieldName newPosition []).map (Prod.map names id) =
      QueryBuilder.shuffleGroupByFields fieldName newPosition d.names := by
  have hname := shuffled_fieldName fieldName d.groupByFields
  rw [QueryBuilder.shuffleGroupByFields, names, ← groupNames_removeIf, ← hname, shuffleGroupByFields]
  generalize (d.groupByFields.filter (·.fieldName == fieldName)).foldl (Vectors.assign GroupFields.fieldName)
    blankGroupFields = fieldToRemove
  have hinsert := groupNames_insert { fieldToRemove with position := newPosition } newPosition
    (Vectors.removeIf GroupFields.fieldName (· == fieldName) d.groupByFields)
  rw [← hinsert, Option.map_map, Option.map_map]
  apply congrArg (Option.map · _)
  funext fields
  simp [names]

theorem names_addSortedField (name : Text) (originalPosition position : ℕ) :
    (d.addSortedField name originalPosition position).map (Prod.map names id) =
      QueryBuilder.addSortedField name position d.names := by
  have hinsert : (Vectors.insert FieldSorter.name (.ofPosition name position originalPosition) position
      d.sortedFields).map sortNames = insertAt (sortNames d.sortedFields) position name := sortNames_insert _ _ _
  rw [QueryBuilder.addSortedField, names, ← hinsert, addSortedField, Option.map_map, Option.map_map]
  apply congrArg (Option.map · _)
  funext fields
  simp [names, sortNames_removeIf]

theorem names_deleteSortedField (name : Text) (original : ℕ) :
    (d.deleteSortedField name original).map (Prod.map names id) =
      QueryBuilder.deleteSortedField name original d.names := by
  have hinsert : (Vectors.insert FieldSorter.name (.ofPosition name original original) original
      d.sortedFieldsAll).map sortNames = insertAt (sortNames d.sortedFieldsAll) original name := sortNames_insert _ _ _
  rw [QueryBuilder.deleteSortedField, names, ← hinsert, deleteSortedField, Option.map_map, Option.map_map]
  apply congrArg (Option.map · _)
  funext all
  simp [names, sortNames_removeIf]

end DrawingDocument

end DbHandler.QueryBuilder
