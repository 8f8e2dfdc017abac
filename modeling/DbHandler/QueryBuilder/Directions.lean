import DbHandler.Foundation.Runs
import DbHandler.QueryBuilder.DrawingDocument

namespace DbHandler.QueryBuilder

open Foundation Foundation.Runs

inductive SortCall
  | addSortedField (name : Text) (originalPosition position : ℕ)
  | deleteSortedField (name : Text) (original : ℕ)
  | changeSortOrder (fieldName : Text) (newPosition : ℕ)
  deriving DecidableEq, Repr

/-- A name enters a list only when it is not there; `none` also where the position is beyond the end. -/
def sortStep (d : DrawingDocument) : SortCall → Option DrawingDocument
  | .addSortedField name originalPosition position =>
    if name ∈ sortNames d.sortedFields then none
    else (d.addSortedField name originalPosition position).map Prod.fst
  | .deleteSortedField name original =>
    if name ∈ sortNames d.sortedFieldsAll then none else (d.deleteSortedField name original).map Prod.fst
  | .changeSortOrder fieldName newPosition => some (d.changeSortOrder fieldName newPosition)

structure DrawingDocument.Distinct (d : DrawingDocument) : Prop where
  all : (sortNames d.sortedFieldsAll).Nodup
  sorted : (sortNames d.sortedFields).Nodup

def FieldSorter.toggled (name : Text) (field : FieldSorter) : FieldSorter :=
  if field.name = name then { field with isAscending := !field.isAscending } else field

def SortCall.Intended (d d' : DrawingDocument) : SortCall → Prop
  | addSortedField name originalPosition position =>
    d'.sortedFields = d.sortedFields.insertIdx position ⟨name, true, originalPosition⟩ ∧
      d'.sortedFieldsAll = d.sortedFieldsAll.filter (·.name ≠ name)
  | deleteSortedField name original =>
    d'.sortedFields = d.sortedFields.filter (·.name ≠ name) ∧
      ∃ field, field.name = name ∧ d'.sortedFieldsAll = d.sortedFieldsAll.insertIdx original field
  | changeSortOrder fieldName _ =>
    d'.sortedFields = d.sortedFields.map (FieldSorter.toggled fieldName) ∧ d'.sortedFieldsAll = d.sortedFieldsAll

def SortCall.Sound (d : DrawingDocument) : SortCall → Prop
  | addSortedField _ _ position => position ≠ 0
  | deleteSortedField .. => True
  | changeSortOrder fieldName _ => fieldName ∉ sortNames d.sortedFields

theorem toggled_toggled (name : Text) (field : FieldSorter) : (field.toggled name).toggled name = field := by
  unfold FieldSorter.toggled
  split_ifs with h
  · simp
  · rfl

theorem toggled_eq_self_iff {name : Text} {field : FieldSorter} : field.toggled name = field ↔ field.name ≠ name := by
  unfold FieldSorter.toggled
  split_ifs with h
  · refine iff_of_false ?_ (fun hne => hne h)
    intro heq
    have hdirection := congrArg FieldSorter.isAscending heq
    simp at hdirection
  · exact iff_of_true rfl h

theorem nodup_insertIdx {l : List Text} {name : Text} {position : ℕ} (hname : name ∉ l) (h : l.Nodup)
    (hposition : position ≤ l.length) : (l.insertIdx position name).Nodup :=
  (List.perm_insertIdx name l hposition).nodup_iff.mpr (List.nodup_cons.mpr ⟨hname, h⟩)

section Steps

variable {d d' : DrawingDocument}

theorem DrawingDocument.Distinct.removeAll (h : d.Distinct) (name : Text) :
    Vectors.removeIf FieldSorter.name (· == name) d.sortedFieldsAll = d.sortedFieldsAll.filter (·.name ≠ name) := by
  rw [Vectors.removeIf_eq_filter h.all]
  apply List.filter_congr
  simp [beq_eq_decide]

theorem DrawingDocument.Distinct.removeSorted (h : d.Distinct) (name : Text) :
    Vectors.removeIf FieldSorter.name (· == name) d.sortedFields = d.sortedFields.filter (·.name ≠ name) := by
  rw [Vectors.removeIf_eq_filter h.sorted]
  apply List.filter_congr
  simp [beq_eq_decide]

theorem sortStep_add (h : d.Distinct) {name : Text} {originalPosition position : ℕ}
    (hstep : sortStep d (.addSortedField name originalPosition position) = some d') :
    name ∉ sortNames d.sortedFields ∧ position ≤ d.sortedFields.length ∧
      d' = { d with
        sortedFieldsAll := d.sortedFieldsAll.filter (·.name ≠ name)
        sortedFields := d.sortedFields.insertIdx position (.ofPosition name position originalPosition) } := by
  rw [sortStep] at hstep
  split_ifs at hstep with hname
  rw [DrawingDocument.addSortedField, Vectors.insert_eq_insertIdx position hname h.sorted, h.removeAll] at hstep
  split_ifs at hstep with hposition
  · exact ⟨hname, hposition, (Option.some.inj hstep).symm⟩
  · cases hstep

theorem sortStep_delete (h : d.Distinct) {name : Text} {original : ℕ}
    (hstep : sortStep d (.deleteSortedField name original) = some d') :
    name ∉ sortNames d.sortedFieldsAll ∧ original ≤ d.sortedFieldsAll.length ∧
      d' = { d with
        sortedFields := d.sortedFields.filter (·.name ≠ name)
        sortedFieldsAll := d.sortedFieldsAll.insertIdx original (.ofPosition name original original) } := by
  rw [sortStep] at hstep
  split_ifs at hstep with hname
  have hinsert : Vectors.insert FieldSorter.name (.ofPosition name original original) original d.sortedFieldsAll = _ :=
    Vectors.insert_eq_insertIdx original hname h.all
  simp only [DrawingDocument.deleteSortedField, hinsert, h.removeSorted] at hstep
  split_ifs at hstep with hposition
  · exact ⟨hname, hposition, (Option.some.inj hstep).symm⟩
  · cases hstep

theorem sortStep_distinct (h : d.Distinct) {call : SortCall} (hstep : sortStep d call = some d') : d'.Distinct := by
  cases call with
  | addSortedField name originalPosition position =>
    obtain ⟨hname, hposition, rfl⟩ := sortStep_add h hstep
    constructor
    · exact h.all.sublist (List.filter_sublist.map _)
    · change (List.map FieldSorter.name _).Nodup
      rw [List.map_insertIdx]
      exact nodup_insertIdx hname h.sorted (by simpa using hposition)
  | deleteSortedField name original =>
    obtain ⟨hname, hposition, rfl⟩ := sortStep_delete h hstep
    constructor
    · change (List.map FieldSorter.name _).Nodup
      rw [List.map_insertIdx]
      exact nodup_insertIdx hname h.all (by simpa using hposition)
    · exact h.sorted.sublist (List.filter_sublist.map _)
  | changeSortOrder fieldName newPosition =>
    obtain rfl := Option.some.inj hstep
    exact h

theorem intended_iff (h : d.Distinct) {call : SortCall} (hstep : sortStep d call = some d') :
    call.Intended d d' ↔ call.Sound d := by
  cases call with
  | addSortedField name originalPosition position =>
    obtain ⟨-, hposition, rfl⟩ := sortStep_add h hstep
    constructor
    · rintro ⟨hsorted, -⟩
      have hplace := congrArg (fun l : List FieldSorter => l[position]?) hsorted
      simp only [List.getElem?_insertIdx_self, hposition, if_true] at hplace
      have hdirection := congrArg FieldSorter.isAscending (Option.some.inj hplace)
      simpa [FieldSorter.ofPosition, SortCall.Sound] using hdirection
    · intro hsound
      have hdirection : (position != 0) = true := by simpa [SortCall.Sound] using hsound
      refine ⟨?_, rfl⟩
      rw [FieldSorter.ofPosition, hdirection]
  | deleteSortedField name original =>
    obtain ⟨-, -, rfl⟩ := sortStep_delete h hstep
    exact iff_of_true ⟨rfl, _, rfl, rfl⟩ trivial
  | changeSortOrder fieldName newPosition =>
    obtain rfl := Option.some.inj hstep
    have hsame : d.sortedFields = d.sortedFields.map (FieldSorter.toggled fieldName) ↔
        ∀ field ∈ d.sortedFields, field.toggled fieldName = field := by
      rw [eq_comm]
      conv_lhs => rhs; rw [← List.map_id d.sortedFields]
      exact List.map_inj_left
    refine (and_iff_left rfl).trans (hsame.trans ?_)
    simp only [toggled_eq_self_iff, SortCall.Sound, sortNames, List.mem_map, not_exists, not_and]

end Steps

theorem directions_intended_iff (d : DrawingDocument) (calls : List SortCall) (h : d.Distinct) :
    EachStep sortStep (fun d call d' => call.Intended d d') d calls ↔
      EachStep sortStep (fun d call _ => call.Sound d) d calls := by
  apply eachStep_iff (P := DrawingDocument.Distinct)
  · intro d call d' h hstep _
    exact sortStep_distinct h hstep
  · intro d call d' h hstep
    exact intended_iff h hstep
  · exact h

def sortable : DrawingDocument where
  queryFields := []
  groupByFields := []
  groupByFieldsAll := []
  sortedFields := [⟨"id".toList, true, 0⟩]
  sortedFieldsAll := [⟨"name".toList, true, 1⟩, ⟨"city".toList, true, 2⟩]

theorem appended_fields_are_ascending : sortable.Distinct ∧
    EachStep sortStep (fun d call d' => call.Intended d d') sortable
      [.addSortedField "name".toList 1 1, .deleteSortedField "id".toList 0] := by
  refine ⟨⟨by decide, by decide⟩, (directions_intended_iff sortable _ ⟨by decide, by decide⟩).mpr ?_⟩
  rw [eachStep_cons]
  intro d hd
  refine ⟨Nat.one_ne_zero, ?_⟩
  rw [eachStep_cons]
  intro d' hd'
  exact ⟨trivial, eachStep_nil _ _⟩

theorem first_field_is_descending : sortable.Distinct ∧
    ¬ EachStep sortStep (fun d call d' => call.Intended d d') sortable
      [.addSortedField "name".toList 1 0, .changeSortOrder "name".toList 0] := by
  refine ⟨⟨by decide, by decide⟩, ?_⟩
  rw [eachStep_cons]
  intro h
  obtain ⟨⟨hsorted, -⟩, -⟩ := h _ rfl
  exact absurd hsorted (by decide)

end DbHandler.QueryBuilder
