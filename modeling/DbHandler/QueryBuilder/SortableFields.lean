import DbHandler.QueryBuilder.DrawingDocument

namespace DbHandler.QueryBuilder

open Foundation
open Foundation.Sql (quotation)

namespace DrawingDocument

variable (d : DrawingDocument)

/-- The position at which the sort entry is appended arrives where its direction is expected. -/
def addRemoveField (field : TableField) (isAdded : QueryFieldChange) : DrawingDocument :=
  match isAdded with
  | .add =>
    let position := d.sortedFieldsAll.length
    let originalPosition := d.queryFields.length
    { d with
      queryFields := d.queryFields ++ [field]
      sortedFieldsAll := d.sortedFieldsAll ++ [.ofPosition field.fieldName position originalPosition] }
  | .remove => { d with
      queryFields := d.queryFields.filter (· ≠ field)
      sortedFieldsAll := Vectors.removeIf FieldSorter.name (· == field.fieldName) d.sortedFieldsAll }

theorem names_addRemoveField (field : TableField) (isAdded : QueryFieldChange) :
    (d.addRemoveField field isAdded).names = QueryBuilder.addRemoveField field isAdded d.names := by
  cases isAdded with
  | add => simp [addRemoveField, QueryBuilder.addRemoveField, names, sortNames, FieldSorter.ofPosition]
  | remove => simp [addRemoveField, QueryBuilder.addRemoveField, names, sortNames_removeIf]

end DrawingDocument

abbrev FieldCall := TableField × QueryFieldChange

/-- The fields that stay, each with its index when it was added. -/
def staying : List (TableField × ℕ) → FieldCall → List (TableField × ℕ)
  | entries, (field, .add) => entries ++ [(field, entries.length)]
  | entries, (field, .remove) => entries.filter (·.1 ≠ field)

/-- How the sort page knows a field. -/
def sortEntry (entry : TableField × ℕ) : FieldSorter := ⟨entry.1.quoted, true, entry.2⟩

namespace DrawingDocument

/-- Without any field in the query. -/
def withoutFields (d : DrawingDocument) : DrawingDocument := { d with queryFields := [], sortedFieldsAll := [] }

def afterCalls (d : DrawingDocument) (calls : List FieldCall) : DrawingDocument :=
  calls.foldl (fun d call => d.addRemoveField call.1 call.2) d

/-- Both lists hold the fields that stay, in the order in which they were added. -/
structure InBijection (d : DrawingDocument) (entries : List (TableField × ℕ)) : Prop where
  queryFields : d.queryFields = entries.map Prod.fst
  sortedFieldsAll : d.sortedFieldsAll = entries.map sortEntry

/-- What the two lists share whatever is called: a removal may take more sort entries than fields. -/
structure Related (d : DrawingDocument) (entries : List (TableField × ℕ)) : Prop where
  queryFields : d.queryFields = entries.map Prod.fst
  sortNames : (sortNames d.sortedFieldsAll).Sublist (d.queryFields.map TableField.fieldName)

variable {d : DrawingDocument} {entries : List (TableField × ℕ)}

theorem Related.step (h : Related d entries) (call : FieldCall) :
    Related (d.addRemoveField call.1 call.2) (staying entries call) := by
  obtain ⟨field, isAdded⟩ := call
  cases isAdded with
  | add =>
    constructor
    · simp [addRemoveField, staying, h.queryFields]
    · change (QueryBuilder.sortNames (d.sortedFieldsAll ++ [_])).Sublist ((d.queryFields ++ [field]).map _)
      rw [QueryBuilder.sortNames, List.map_append, List.map_append]
      exact h.sortNames.append (List.Sublist.refl _)
  | remove =>
    constructor
    · change d.queryFields.filter (· ≠ field) = (entries.filter (·.1 ≠ field)).map Prod.fst
      rw [h.queryFields, List.filter_map]
      rfl
    · change (QueryBuilder.sortNames (Vectors.removeIf FieldSorter.name (· == field.fieldName) d.sortedFieldsAll)).Sublist
        ((d.queryFields.filter (· ≠ field)).map TableField.fieldName)
      rw [sortNames_removeIf]
      refine (h.sortNames.filter _).trans ?_
      rw [List.filter_map]
      refine (List.monotone_filter_right _ fun other hother => ?_).map _
      simp only [Function.comp_apply, decide_eq_true_eq] at hother ⊢
      rintro rfl
      exact hother rfl

theorem related_afterCalls (h : Related d entries) (calls : List FieldCall) :
    Related (d.afterCalls calls) (calls.foldl staying entries) := by
  induction calls generalizing d entries with
  | nil => exact h
  | cons call calls ih => exact ih (h.step call)

theorem Related.inBijection_iff (h : Related d entries) : InBijection d entries ↔ entries = [] := by
  constructor
  · rintro ⟨-, hsorted⟩
    have hnames : QueryBuilder.sortNames d.sortedFieldsAll = entries.map (·.1.quoted) := by
      rw [QueryBuilder.sortNames, hsorted, List.map_map]
      rfl
    have hsublist := h.sortNames
    rw [hnames, h.queryFields, List.map_map] at hsublist
    have hsame := hsublist.eq_of_length (by simp)
    cases entries with
    | nil => rfl
    | cons entry entries =>
      have hname : entry.1.quoted = entry.1.fieldName := (List.cons.inj hsame).1
      have hlength := congrArg List.length hname
      simp only [TableField.quoted, List.cons_append, List.length_cons, List.length_append] at hlength
      omega
  · rintro rfl
    have hnone := h.sortNames
    rw [h.queryFields] at hnone
    exact ⟨h.queryFields, List.map_eq_nil_iff.mp (List.sublist_nil.mp hnone)⟩

/-- After a sequence of calls the sortable fields are those of the query exactly if none is left. -/
theorem inBijection_afterCalls_iff (d : DrawingDocument) (calls : List FieldCall) :
    InBijection (d.withoutFields.afterCalls calls) (calls.foldl staying []) ↔ calls.foldl staying [] = [] :=
  (related_afterCalls ⟨rfl, List.Sublist.refl _⟩ calls).inBijection_iff

theorem one_field_not_inBijection :
    ¬ InBijection ((⟨[], [], [], [], []⟩ : DrawingDocument).withoutFields.afterCalls
      [(⟨"orders".toList, "id".toList⟩, .add)]) ([(⟨"orders".toList, "id".toList⟩, .add)].foldl staying []) := by
  intro h
  exact absurd h.sortedFieldsAll (by decide)

end DrawingDocument

end DbHandler.QueryBuilder
