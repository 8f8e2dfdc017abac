import Mathlib.Data.List.GetD
import DbHandler.Foundation.Places
import DbHandler.QueryBuilder.DrawingDocument

namespace DbHandler.QueryBuilder

open Foundation Foundation.Runs Foundation.Places

/-- A field leaves the available ones for a position of the other list, or returns with its original position. -/
inductive FieldMove
  | take (original position : ℕ)
  | giveBack (original : ℕ)
  deriving DecidableEq, Repr

namespace DrawingDocument

section GroupList

def groupEntry (names : List Text) (i : ℕ) : GroupFields := ⟨names.getD i [], i, i⟩

/-- The available fields as `AddGroupByAvailableField` enters them. -/
def withGroupFields (names : List Text) (d : DrawingDocument) : DrawingDocument :=
  { d with groupByFieldsAll := (List.range names.length).map (groupEntry names) }

def groupMove (names : List Text) (d : DrawingDocument) : FieldMove → Option DrawingDocument
  | .take original position => (d.addGroupByFieldToQuery (names.getD original []) position original).map Prod.fst
  | .giveBack original => (d.deleteGroupByField (names.getD original []) original).map Prod.fst

def groupSorted (d : DrawingDocument) : Prop := Sorted GroupFields.internalPosition d.groupByFieldsAll

end GroupList

section SortList

def sortableEntry (names : List Text) (isAscending : ℕ → Bool) (i : ℕ) : FieldSorter :=
  ⟨names.getD i [], isAscending i, i⟩

def withSortFields (names : List Text) (isAscending : ℕ → Bool) (d : DrawingDocument) : DrawingDocument :=
  { d with sortedFieldsAll := (List.range names.length).map (sortableEntry names isAscending) }

def sortMove (names : List Text) (d : DrawingDocument) : FieldMove → Option DrawingDocument
  | .take original position => (d.addSortedField (names.getD original []) original position).map Prod.fst
  | .giveBack original => (d.deleteSortedField (names.getD original []) original).map Prod.fst

def sortSorted (d : DrawingDocument) : Prop := Sorted FieldSorter.originalPosition d.sortedFieldsAll

end SortList

/-- After all moves the available fields are those of the start, and they are in order at every moment. -/
def Restored {σ α : Type*} (step : σ → FieldMove → Option σ) (available : σ → List α) (sorted : σ → Prop) (d : σ)
    (taken : List (ℕ × ℕ)) (back : List ℕ) : Prop :=
  let moves := taken.map (fun move => .take move.1 move.2) ++ back.map .giveBack
  (run step d moves).map available = some (available d) ∧ Throughout step sorted d moves

/-! The moves seen from the available fields alone. -/

section Available

variable {σ α κ : Type*} [DecidableEq κ] {key : α → κ} {place : α → ℤ} {step : σ → FieldMove → Option σ}
  {available : σ → List α} {now back : ℕ → α} {n : ℕ}

theorem run_takes (hstep : ∀ s original position t, step s (.take original position) = some t →
      leave key now (available s) original = some (available t))
    {s t : σ} {taken : List (ℕ × ℕ)} (h : run step s (taken.map fun move => .take move.1 move.2) = some t) :
    run (leave key now) (available s) (taken.map Prod.fst) = some (available t) ∧
      ∀ P : List α → Prop, Throughout (leave key now) P (available s) (taken.map Prod.fst) →
        Throughout step (fun u => P (available u)) s (taken.map fun move => .take move.1 move.2) := by
  induction taken generalizing s with
  | nil =>
    obtain rfl := Option.some.inj h
    refine ⟨rfl, fun P hP => (throughout_iff _ _ _).mpr ⟨((throughout_iff _ _ _).mp hP).1, eachStep_nil _ _⟩⟩
  | cons move taken ih =>
    obtain ⟨u, hu, hrest⟩ := Option.bind_eq_some_iff.mp h
    obtain ⟨hrun, hthroughout⟩ := ih hrest
    have hleave := hstep s move.1 move.2 u hu
    constructor
    · rw [List.map_cons, run_cons, hleave]
      exact hrun
    · intro P hP
      rw [List.map_cons, throughout_cons] at hP ⊢
      refine ⟨hP.1, fun v hv => ?_⟩
      rw [← Option.some.inj (hu.symm.trans hv)]
      exact hthroughout P (hP.2 _ hleave)

theorem standing_congr {missing missing' : List ℕ} (h : ∀ i, i ∈ missing ↔ i ∈ missing') :
    standing n missing = standing n missing' := by
  apply List.filter_congr
  simp [h]

theorem restored_iff (htake : ∀ s original position t, step s (.take original position) = some t →
      leave key now (available s) original = some (available t))
    (hback : ∀ s original, (step s (.giveBack original)).map available = comeBack key back (available s) original)
    (hoccupied : Occupied key place n now) (hkey : ∀ i, key (back i) = key (now i)) (hplace : ∀ i, place (back i) = i)
    {d : σ} (hd : available d = (List.range n).map now) {taken : List (ℕ × ℕ)} {returning : List ℕ}
    (htaken : ∀ move ∈ taken, move.1 < n) (hnodup : (taken.map Prod.fst).Nodup)
    (hperm : returning.Perm (taken.map Prod.fst))
    (hmoved : (run step d (taken.map fun move => .take move.1 move.2)).isSome) :
    Restored step available (fun s => Sorted place (available s)) d taken returning ↔
      returning.Pairwise (· < ·) ∧ ∀ i ∈ returning, back i = now i := by
  obtain ⟨t, ht⟩ := Option.isSome_iff_exists.mp hmoved
  have hleaver : ∀ i ∈ taken.map Prod.fst, i < n := by simpa using fun i j h => htaken (i, j) h
  have hall : standing n [] = List.range n := List.filter_eq_self.mpr (by simp)
  obtain ⟨hrun, hthroughout⟩ := run_takes htake ht
  have hleaving := leaving hoccupied hleaver []
  rw [hall, ← hd] at hleaving
  have hmissing : available t = (standing n returning).map now := by
    rw [← Option.some.inj (hleaving.1.symm.trans hrun)]
    apply congrArg
    apply standing_congr
    intro i
    rw [List.append_nil, List.mem_reverse, hperm.mem_iff]
  have hcoming := comingBack_iff now (hperm.nodup_iff.mpr hnodup) (fun i hi => hleaver i (hperm.mem_iff.mp hi)) hkey hplace
    hoccupied
  have hsame : (∀ i < n, (if i ∈ returning then back i else now i) = now i) ↔ ∀ i ∈ returning, back i = now i := by
    constructor
    · intro h i hi
      simpa [hi] using h i (hleaver i (hperm.mem_iff.mp hi))
    · intro h i _
      split_ifs with hi
      · exact h i hi
      · rfl
  rw [← hsame, ← hcoming, ← hmissing, ← run_map hback t returning, ← throughout_map hback _ t returning,
    ← run_relabel, ← throughout_relabel, Restored, run_append, ht, Option.bind_some, throughout_append, ← hd]
  constructor
  · rintro ⟨hend, -, hsorted⟩
    exact ⟨hend, hsorted t ht⟩
  · rintro ⟨hend, hsorted⟩
    refine ⟨hend, hthroughout _ hleaving.2, fun u hu => ?_⟩
    rw [← Option.some.inj (ht.symm.trans hu)]
    exact hsorted

end Available

theorem getD_inj {names : List Text} (h : names.Nodup) {i j : ℕ} (hi : i < names.length) (hj : j < names.length)
    (heq : names.getD i [] = names.getD j []) : i = j := by
  rw [List.getD_eq_getElem _ _ hi, List.getD_eq_getElem _ _ hj] at heq
  exact (h.getElem_inj_iff).mp heq

theorem groupMove_take (names : List Text) (s : DrawingDocument) (original position : ℕ) (t : DrawingDocument)
    (h : groupMove names s (.take original position) = some t) :
    leave GroupFields.fieldName (groupEntry names) s.groupByFieldsAll original = some t.groupByFieldsAll := by
  obtain ⟨result, hresult, rfl⟩ := Option.map_eq_some_iff.mp h
  obtain ⟨fields, -, rfl⟩ := Option.map_eq_some_iff.mp hresult
  rw [leave]
  simp only [← beq_eq_decide]
  rfl

theorem groupMove_giveBack (names : List Text) (s : DrawingDocument) (original : ℕ) :
    (groupMove names s (.giveBack original)).map groupByFieldsAll =
      comeBack GroupFields.fieldName (groupEntry names) s.groupByFieldsAll original := by
  rw [groupMove, deleteGroupByField, Option.map_map, Option.map_map]
  exact Option.map_id'

theorem sortMove_take (names : List Text) (isAscending : ℕ → Bool) (s : DrawingDocument) (original position : ℕ)
    (t : DrawingDocument) (h : sortMove names s (.take original position) = some t) :
    leave FieldSorter.name (sortableEntry names isAscending) s.sortedFieldsAll original = some t.sortedFieldsAll := by
  obtain ⟨result, hresult, rfl⟩ := Option.map_eq_some_iff.mp h
  obtain ⟨fields, -, rfl⟩ := Option.map_eq_some_iff.mp hresult
  rw [leave]
  simp only [← beq_eq_decide]
  rfl

theorem sortMove_giveBack (names : List Text) (s : DrawingDocument) (original : ℕ) :
    (sortMove names s (.giveBack original)).map sortedFieldsAll =
      comeBack FieldSorter.name (sortableEntry names (· != 0)) s.sortedFieldsAll original := by
  rw [sortMove, deleteSortedField, Option.map_map, Option.map_map]
  exact Option.map_id'

theorem occupied_groupEntry {names : List Text} (h : names.Nodup) :
    Occupied GroupFields.fieldName GroupFields.internalPosition names.length (groupEntry names) :=
  ⟨fun _ => rfl, fun _ hi _ hj heq => getD_inj h hi hj heq⟩

theorem occupied_sortableEntry {names : List Text} (h : names.Nodup) (isAscending : ℕ → Bool) :
    Occupied FieldSorter.name FieldSorter.originalPosition names.length (sortableEntry names isAscending) :=
  ⟨fun _ => rfl, fun _ hi _ hj heq => getD_inj h hi hj heq⟩

/-- The available fields return to their original places exactly if they come back in that order, the sortable ones
moreover only with the direction that their position stands for. -/
theorem fields_restored_iff (d : DrawingDocument) {names : List Text} (hnames : names.Nodup) (isAscending : ℕ → Bool)
    {taken : List (ℕ × ℕ)} {back : List ℕ} (htaken : ∀ move ∈ taken, move.1 < names.length)
    (hdistinct : (taken.map Prod.fst).Nodup) (hback : back.Perm (taken.map Prod.fst)) :
    ((run (groupMove names) (d.withGroupFields names) (taken.map fun move => .take move.1 move.2)).isSome →
      (Restored (groupMove names) groupByFieldsAll groupSorted (d.withGroupFields names) taken back ↔
        back.Pairwise (· < ·))) ∧
      ((run (sortMove names) (d.withSortFields names isAscending) (taken.map fun move => .take move.1 move.2)).isSome →
        (Restored (sortMove names) sortedFieldsAll sortSorted (d.withSortFields names isAscending) taken back ↔
          back.Pairwise (· < ·) ∧ ∀ i ∈ back, isAscending i = (i != 0))) := by
  constructor
  · intro hmoved
    have hiff := restored_iff (groupMove_take names) (groupMove_giveBack names) (occupied_groupEntry hnames)
      (fun _ => rfl) (fun _ => rfl) rfl htaken hdistinct hback hmoved
    exact hiff.trans (and_iff_left fun _ _ => rfl)
  · intro hmoved
    have hiff := restored_iff (sortMove_take names isAscending) (sortMove_giveBack names)
      (occupied_sortableEntry hnames isAscending) (fun _ => rfl) (fun _ => rfl) rfl htaken hdistinct hback hmoved
    refine hiff.trans (and_congr_right fun _ => forall_congr' fun i => imp_congr_right fun _ => ?_)
    simp only [sortableEntry, FieldSorter.mk.injEq, true_and, and_true]
    exact eq_comm

theorem fields_restored_iff_two :
    let names : List Text := ["a".toList, "b".toList, "c".toList]
    let d : DrawingDocument := ⟨[], [], [], [], []⟩
    ((run (groupMove names) (d.withGroupFields names) (([(1, 0), (0, 1)] : List (ℕ × ℕ)).map fun move =>
        .take move.1 move.2)).isSome →
      (Restored (groupMove names) groupByFieldsAll groupSorted (d.withGroupFields names) [(1, 0), (0, 1)] [0, 1] ↔
        ([0, 1] : List ℕ).Pairwise (· < ·))) ∧
      ((run (sortMove names) (d.withSortFields names fun _ => true) (([(1, 0), (0, 1)] : List (ℕ × ℕ)).map fun move =>
          .take move.1 move.2)).isSome →
        (Restored (sortMove names) sortedFieldsAll sortSorted (d.withSortFields names fun _ => true) [(1, 0), (0, 1)]
            [0, 1] ↔
          ([0, 1] : List ℕ).Pairwise (· < ·) ∧ ∀ i ∈ ([0, 1] : List ℕ), true = (i != 0))) :=
  fields_restored_iff _ (by decide) _ (by decide) (by decide) (by decide)

/-- The later of two neighbours returns first. -/
theorem neighbours_not_restored :
    let names : List Text := ["a".toList, "b".toList, "c".toList]
    ¬ Restored (groupMove names) groupByFieldsAll groupSorted
      ((⟨[], [], [], [], []⟩ : DrawingDocument).withGroupFields names) [(0, 0), (1, 1)] [1, 0] := by
  rintro names ⟨hend, -⟩
  exact absurd hend (by decide)

end DrawingDocument

end DbHandler.QueryBuilder
