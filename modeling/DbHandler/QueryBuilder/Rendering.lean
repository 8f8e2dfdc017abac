import DbHandler.QueryBuilder.DrawingDocument

namespace DbHandler.QueryBuilder

open Foundation

inductive Mutator
  | addGroupByFieldToQuery (name : Text) (position original : ℕ)
  | deleteGroupByField (name : Text) (original : ℕ)
  | deleteGroupByTable (tableName : Text)
  | shuffleGroupByFields (fieldName : Text) (newPosition : ℕ)
  | addSortedField (name : Text) (originalPosition position : ℕ)
  | deleteSortedField (name : Text) (original : ℕ)
  | deleteSortedTable (tableName : Text)
  deriving DecidableEq, Repr

def Mutator.run (replace : Text) (d : DrawingDocument) : Mutator → Option (DrawingDocument × Text)
  | addGroupByFieldToQuery name position original => d.addGroupByFieldToQuery name position original
  | deleteGroupByField name original => d.deleteGroupByField name original
  | deleteGroupByTable tableName => d.deleteGroupByTable tableName
  | shuffleGroupByFields fieldName newPosition => d.shuffleGroupByFields fieldName newPosition replace
  | addSortedField name originalPosition position => d.addSortedField name originalPosition position
  | deleteSortedField name original => d.deleteSortedField name original
  | deleteSortedTable tableName => d.deleteSortedTable tableName

def rendering (keyword : Text) (entries : List Text) : Text :=
  if entries = [] then [] else keyword ++ List.intercalate fieldSeparator entries

def FieldSorter.entry (field : FieldSorter) : Text :=
  if field.isAscending then field.name else field.name ++ " DESC".toList

def Mutator.clause (d : DrawingDocument) : Mutator → Text
  | addGroupByFieldToQuery .. | deleteGroupByField .. | deleteGroupByTable _ | shuffleGroupByFields .. =>
    rendering groupBy (groupNames d.groupByFields)
  | addSortedField .. | deleteSortedField .. | deleteSortedTable _ =>
    rendering orderBy (d.sortedFields.map FieldSorter.entry)

def Renders (m : Mutator) (replace : Text) (d : DrawingDocument) : Prop :=
  ∃ d' text, m.run replace d = some (d', text) ∧ text = m.clause d'

/-- No field is descending, from the new one on: a field that is followed by one of its name is left out
when the vector is shifted. -/
def Ascends : FieldSorter → List FieldSorter → Prop
  | field, [] => field.isAscending = true
  | field, next :: rest =>
    (if next.name = field.name then next.isAscending = true else field.isAscending = true) ∧ Ascends next rest

def Mutator.Sound (replace : Text) (d : DrawingDocument) : Mutator → Prop
  | addGroupByFieldToQuery _ position _ => position ≤ d.groupByFields.length
  | deleteGroupByField _ original => original ≤ d.groupByFieldsAll.length
  | deleteGroupByTable tableName => d.groupByFields = [] ∧
      (d.groupByFieldsAll = [] ∨ ∃ field ∈ d.groupByFieldsAll, startsWithTable tableName field.fieldName = false)
  | shuffleGroupByFields fieldName newPosition =>
      newPosition ≤ ((groupNames d.groupByFields).filter (· ≠ fieldName)).length ∧ replace = groupBy
  | addSortedField name originalPosition position => position ≤ d.sortedFields.length ∧
      (∀ field ∈ d.sortedFields.take position, field.isAscending = true) ∧
        Ascends (.ofPosition name position originalPosition) (d.sortedFields.drop position)
  | deleteSortedField name original => original ≤ d.sortedFieldsAll.length ∧ ∀ field ∈ d.sortedFields, field.name = name
  | deleteSortedTable tableName => d.sortedFields = [] ∧
      (d.sortedFieldsAll = [] ∨ ∃ field ∈ d.sortedFieldsAll, startsWithTable tableName field.name = false)

section Texts

variable {names : List Text} {fields : List FieldSorter}

theorem rendering_eq (keyword : Text) (names : List Text) : rendering keyword names = remaining keyword names := by
  rw [rendering, remaining, joined_eq]

theorem remaining_nil (keyword : Text) : remaining keyword [] = [] :=
  if_pos rfl

theorem remaining_of_ne_nil (keyword : Text) (h : names ≠ []) : remaining keyword names = keyword ++ joined names :=
  if_neg h

theorem entry_length (field : FieldSorter) :
    field.entry.length = field.name.length + if field.isAscending then 0 else 5 := by
  unfold FieldSorter.entry
  split_ifs
  · rfl
  · rw [List.length_append]
    rfl

theorem joined_entries_length (fields : List FieldSorter) : (joined (fields.map FieldSorter.entry)).length =
    (joined (sortNames fields)).length + 5 * fields.countP (!·.isAscending) := by
  have hrest (l : List FieldSorter) : ((l.map FieldSorter.entry).flatMap (fieldSeparator ++ ·)).length =
      ((sortNames l).flatMap (fieldSeparator ++ ·)).length + 5 * l.countP (!·.isAscending) := by
    induction l with
    | nil => rfl
    | cons field l ih =>
      simp only [sortNames, List.map_cons, List.flatMap_cons, List.length_append, List.countP_cons, entry_length] at ih ⊢
      cases field.isAscending
      · simp only [Bool.false_eq_true, if_false, Bool.not_false, if_true]
        omega
      · simp only [Bool.not_true, Bool.false_eq_true, if_false, if_true]
        omega
  cases fields with
  | nil => rfl
  | cons field fields =>
    have htail := hrest fields
    simp only [sortNames, List.map_cons, joined, List.length_append, List.countP_cons, entry_length] at htail ⊢
    cases field.isAscending
    · simp only [Bool.false_eq_true, if_false, Bool.not_false, if_true]
      omega
    · simp only [Bool.not_true, Bool.false_eq_true, if_false, if_true]
      omega

theorem joined_entries_iff : joined (sortNames fields) = joined (fields.map FieldSorter.entry) ↔
    ∀ field ∈ fields, field.isAscending = true := by
  constructor
  · intro h
    have hlength := joined_entries_length fields
    rw [← h] at hlength
    have hnone : fields.countP (!·.isAscending) = 0 := by omega
    intro field hfield
    simpa using List.countP_eq_zero.mp hnone field hfield
  · intro h
    apply congrArg joined
    apply List.map_congr_left
    intro field hfield
    rw [FieldSorter.entry, if_pos (h field hfield)]

theorem remaining_groupBy_iff : remaining groupBy (sortNames fields) =
    rendering orderBy (fields.map FieldSorter.entry) ↔ fields = [] := by
  rw [rendering_eq]
  constructor
  · intro h
    by_contra hfields
    have hhead := congrArg List.head? h
    rw [remaining_of_ne_nil _ (by simpa [sortNames] using hfields),
      remaining_of_ne_nil _ (by simpa using hfields)] at hhead
    have hgroup : groupBy.head? = some 'G' := by decide
    have horder : orderBy.head? = some 'O' := by decide
    rw [List.head?_append, List.head?_append, hgroup, horder] at hhead
    exact absurd (Option.some.inj hhead) (by decide)
  · rintro rfl
    rw [sortNames, List.map_nil, List.map_nil, remaining_nil, remaining_nil]

end Texts

section Ascending

theorem ascends_iff (field : FieldSorter) (rest : List FieldSorter) :
    (∀ f ∈ Vectors.shiftInto FieldSorter.name field rest, f.isAscending = true) ↔ Ascends field rest := by
  induction rest generalizing field with
  | nil => simp [Vectors.shiftInto, Ascends]
  | cons next rest ih =>
    rw [Vectors.shiftInto, List.forall_mem_cons, ih, Ascends, Vectors.assign]
    split_ifs <;> rfl

theorem ascends_of_distinct {field : FieldSorter} {rest : List FieldSorter} (h : (sortNames (field :: rest)).Nodup) :
    Ascends field rest ↔ field.isAscending = true ∧ ∀ f ∈ rest, f.isAscending = true := by
  rw [← ascends_iff, Vectors.shiftInto_eq_cons h, List.forall_mem_cons]

end Ascending

section Operations

theorem exists_map_iff {α : Type*} {o : Option α} {f : α → DrawingDocument × Text} {c : DrawingDocument → Text} :
    (∃ d' text, o.map f = some (d', text) ∧ text = c d') ↔ ∃ a, o = some a ∧ (f a).2 = c (f a).1 := by
  constructor
  · rintro ⟨d', text, hmap, htext⟩
    obtain ⟨a, ha, hf⟩ := Option.map_eq_some_iff.mp hmap
    exact ⟨a, ha, by rw [hf, htext]⟩
  · rintro ⟨a, rfl, hf⟩
    exact ⟨(f a).1, (f a).2, rfl, hf⟩

theorem inserted_group_iff {field : GroupFields} {position : ℕ} {l : List GroupFields} {keyword : Text} :
    (∃ fields, Vectors.insert GroupFields.fieldName field position l = some fields ∧
        keyword ++ joined (groupNames fields) = rendering groupBy (groupNames fields)) ↔
      position ≤ l.length ∧ keyword = groupBy := by
  have hnames (fields : List GroupFields)
      (h : Vectors.insert GroupFields.fieldName field position l = some fields) : groupNames fields ≠ [] := by
    obtain ⟨-, rfl⟩ := Vectors.insert_eq_some.mp h
    simp [groupNames]
  constructor
  · rintro ⟨fields, hinsert, htext⟩
    refine ⟨(Vectors.insert_eq_some.mp hinsert).1, ?_⟩
    rw [rendering_eq, remaining_of_ne_nil _ (hnames fields hinsert)] at htext
    exact List.append_cancel_right htext
  · rintro ⟨hposition, rfl⟩
    have hinsert : Vectors.insert GroupFields.fieldName field position l = some _ :=
      Vectors.insert_eq_some.mpr ⟨hposition, rfl⟩
    refine ⟨_, hinsert, ?_⟩
    rw [rendering_eq, remaining_of_ne_nil _ (hnames _ hinsert)]

theorem inserted_sort_iff {field : FieldSorter} {position : ℕ} {l : List FieldSorter} :
    (∃ fields, Vectors.insert FieldSorter.name field position l = some fields ∧
        orderBy ++ joined (sortNames fields) = rendering orderBy (fields.map FieldSorter.entry)) ↔
      position ≤ l.length ∧ (∀ f ∈ l.take position, f.isAscending = true) ∧ Ascends field (l.drop position) := by
  -- the text is right when no field of the list that the vector becomes is descending
  have hright (fields : List FieldSorter) (h : fields ≠ []) :
      orderBy ++ joined (sortNames fields) = rendering orderBy (fields.map FieldSorter.entry) ↔
        ∀ f ∈ fields, f.isAscending = true := by
    rw [rendering_eq, remaining_of_ne_nil _ (by simpa using h), List.append_cancel_left_eq]
    exact joined_entries_iff
  have hshift : (∀ f ∈ l.take position ++ Vectors.shiftInto FieldSorter.name field (l.drop position),
      f.isAscending = true) ↔
        (∀ f ∈ l.take position, f.isAscending = true) ∧ Ascends field (l.drop position) := by
    rw [List.forall_mem_append, ascends_iff]
  have hnonempty : l.take position ++ Vectors.shiftInto FieldSorter.name field (l.drop position) ≠ [] := by
    intro hnil
    have hnames := congrArg (List.map FieldSorter.name) (List.append_eq_nil_iff.mp hnil).2
    rw [Vectors.keys_shiftInto] at hnames
    exact List.cons_ne_nil _ _ hnames
  constructor
  · rintro ⟨fields, hinsert, htext⟩
    obtain ⟨hposition, rfl⟩ := Vectors.insert_eq_some.mp hinsert
    exact ⟨hposition, hshift.mp ((hright _ hnonempty).mp htext)⟩
  · rintro ⟨hposition, hascending⟩
    refine ⟨_, Vectors.insert_eq_some.mpr ⟨hposition, rfl⟩, ?_⟩
    exact (hright _ hnonempty).mpr (hshift.mpr hascending)

theorem inserted_iff {α : Type*} {key : α → Text} {x : α} {position : ℕ} {l : List α} {P : Prop} :
    (∃ m, Vectors.insert key x position l = some m ∧ P) ↔ position ≤ l.length ∧ P := by
  constructor
  · rintro ⟨m, hinsert, h⟩
    exact ⟨(Vectors.insert_eq_some.mp hinsert).1, h⟩
  · rintro ⟨hposition, h⟩
    exact ⟨_, Vectors.insert_eq_some.mpr ⟨hposition, rfl⟩, h⟩

theorem swept_iff {α : Type*} {key : α → Text} {p : Text → Bool} {l : List α} :
    (∃ m, Vectors.sweep key p l = some m) ↔ l = [] ∨ ∃ x ∈ l, p (key x) = false := by
  rw [Vectors.sweep_eq]
  split_ifs with h
  · exact iff_of_true ⟨_, rfl⟩ h
  · exact iff_of_false (by simp) h

end Operations

def sortedByTwo : DrawingDocument where
  queryFields := []
  groupByFields := []
  groupByFieldsAll := []
  sortedFields := [⟨"id".toList, true, 0⟩, ⟨"name".toList, true, 1⟩]
  sortedFieldsAll := []

end DbHandler.QueryBuilder
