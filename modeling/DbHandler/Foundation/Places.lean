import Mathlib.Data.List.Range
import Mathlib.Logic.Function.Basic
import DbHandler.Foundation.Runs
import DbHandler.Foundation.Vectors

namespace Foundation.Places

open Foundation.Runs

/-- The places below `n` whose element is not missing. -/
def standing (n : ℕ) (missing : List ℕ) : List ℕ := (List.range n).filter (· ∉ missing)

theorem mem_standing {n i : ℕ} {missing : List ℕ} : i ∈ standing n missing ↔ i < n ∧ i ∉ missing := by
  simp [standing]

theorem standing_pairwise (n : ℕ) (missing : List ℕ) : (standing n missing).Pairwise (· < ·) :=
  List.pairwise_lt_range.filter _

theorem standing_cons (n i : ℕ) (missing : List ℕ) :
    standing n (i :: missing) = (standing n missing).filter (· ≠ i) := by
  rw [standing, standing, List.filter_filter]
  apply List.filter_congr
  simp

theorem range_split {n i : ℕ} (hi : i < n) : List.range n = List.range i ++ i :: List.range' (i + 1) (n - i - 1) := by
  have happend : List.range' 0 i ++ List.range' (0 + i) (n - i) = List.range' 0 (i + (n - i)) := List.range'_append_1
  have hn : i + (n - i) = n := by omega
  have habove : n - i = n - i - 1 + 1 := by omega
  rw [List.range_eq_range', List.range_eq_range', ← hn, ← happend, Nat.zero_add, hn, habove, List.range'_succ]
  rfl

/-- What stands below the place `i`, the place itself, and what stands above it. -/
theorem standing_split {n i : ℕ} (hi : i < n) {missing : List ℕ} (hmissing : i ∉ missing) :
    standing n missing = (List.range i).filter (· ∉ missing) ++
      i :: (List.range' (i + 1) (n - i - 1)).filter (· ∉ missing) := by
  rw [standing, range_split hi, List.filter_append, List.filter_cons_of_pos (by simpa using hmissing)]

theorem standing_split_missing {n i : ℕ} (hi : i < n) {missing : List ℕ} (hmissing : i ∈ missing) :
    standing n missing = (List.range i).filter (· ∉ missing) ++
      (List.range' (i + 1) (n - i - 1)).filter (· ∉ missing) := by
  rw [standing, range_split hi, List.filter_append, List.filter_cons_of_neg (by simpa using hmissing)]

variable {n i : ℕ} {missing : List ℕ}

theorem length_below (i : ℕ) (missing : List ℕ) :
    ((List.range i).filter (· ∉ missing)).length = i ↔ ∀ j ∈ missing, i ≤ j := by
  constructor
  · intro h j hj
    by_contra hlt
    have hall := List.length_filter_eq_length_iff.mp (h.trans List.length_range.symm) j (by simpa using hlt)
    exact of_decide_eq_true hall hj
  · intro h
    rw [List.filter_eq_self.mpr, List.length_range]
    intro j hj
    simp only [List.mem_range] at hj
    simpa using fun hmem => absurd (h j hmem) (by omega)

/-- Returned to its own place with nothing missing below it, an element stands where it stood. -/
theorem insert_standing (hi : i < n) (hmissing : i ∉ missing) (hbelow : ∀ j ∈ missing, i ≤ j) :
    i ≤ (standing n (i :: missing)).length ∧ (standing n (i :: missing)).insertIdx i i = standing n missing := by
  have hcons : ∀ j ∈ i :: missing, i ≤ j := List.forall_mem_cons.mpr ⟨Nat.le_refl i, hbelow⟩
  have hlength := (length_below i (i :: missing)).mpr hcons
  have hupper : (List.range' (i + 1) (n - i - 1)).filter (· ∉ i :: missing) =
      (List.range' (i + 1) (n - i - 1)).filter (· ∉ missing) := by
    apply List.filter_congr
    intro j hj
    have hlt := (List.mem_range'_1.mp hj).1
    have hne : j ≠ i := by omega
    simp [hne]
  have hlower : (List.range i).filter (· ∉ i :: missing) = (List.range i).filter (· ∉ missing) := by
    apply List.filter_congr
    intro j hj
    have hne : j ≠ i := by
      simp only [List.mem_range] at hj
      omega
    simp [hne]
  have hsplit := standing_split_missing hi (List.mem_cons_self (a := i) (l := missing))
  have hle : i ≤ (standing n (i :: missing)).length := by
    rw [hsplit, List.length_append, hlength]
    omega
  refine ⟨hle, ?_⟩
  rw [Vectors.insertIdx_eq hle, hsplit, List.take_left' hlength, List.drop_left' hlength, hupper, hlower,
    standing_split hi hmissing]

/-- Returned while something below it is missing, it comes to stand behind an element from above. -/
theorem insert_standing_unsorted (hi : i < n) {j : ℕ} (hj : j ∈ missing) (hbelow : j < i) :
    ¬ ((standing n (i :: missing)).take i ++ i :: (standing n (i :: missing)).drop i).Pairwise (· < ·) ∨
      (standing n (i :: missing)).length < i := by
  by_cases hle : i ≤ (standing n (i :: missing)).length
  · left
    intro hsorted
    have hsplit := standing_split_missing hi (List.mem_cons_self (a := i) (l := missing))
    have hshort : ((List.range i).filter (· ∉ i :: missing)).length < i := by
      apply Nat.lt_of_le_of_ne
      · exact (List.length_filter_le _ _).trans (by simp)
      · rw [length_below]
        intro hall
        exact absurd (hall j (List.mem_cons_of_mem _ hj)) (by omega)
    have hlt : ((List.range i).filter (· ∉ i :: missing)).length < (standing n (i :: missing)).length := by omega
    have habove : i < (standing n (i :: missing))[((List.range i).filter (· ∉ i :: missing)).length] := by
      have hmem : (standing n (i :: missing))[((List.range i).filter (· ∉ i :: missing)).length] ∈
          (List.range' (i + 1) (n - i - 1)).filter (· ∉ i :: missing) := by
        simp only [hsplit]
        rw [List.getElem_append_right (Nat.le_refl _)]
        exact List.getElem_mem _
      have := (List.mem_range'_1.mp (List.mem_of_mem_filter hmem)).1
      omega
    have hbefore : (standing n (i :: missing))[((List.range i).filter (· ∉ i :: missing)).length] ∈
        (standing n (i :: missing)).take i := by
      rw [List.mem_take_iff_getElem]
      exact ⟨_, by omega, rfl⟩
    have := (List.pairwise_append.mp hsorted).2.2 _ hbefore i (List.mem_cons_self ..)
    omega
  · right
    omega

section Moves

variable {α κ : Type*} [DecidableEq κ] (key : α → κ) (place : α → ℤ)

/-- The elements stand in the order of their original places. -/
def Sorted (l : List α) : Prop := (l.map place).Pairwise (· < ·)

/-- The element of each place below `n`, told apart by its key. -/
structure Occupied (n : ℕ) (now : ℕ → α) : Prop where
  place_eq : ∀ i, place (now i) = i
  key_inj : ∀ i < n, ∀ j < n, key (now i) = key (now j) → i = j

/-- An element leaves the list by its key. -/
def leave (now : ℕ → α) (l : List α) (i : ℕ) : Option (List α) :=
  some (Vectors.removeIf key (fun k => decide (k = key (now i))) l)

/-- An element is inserted at its original place. -/
def comeBack (back : ℕ → α) (l : List α) (i : ℕ) : Option (List α) := Vectors.insert key (back i) i l

variable {key place} {now back : ℕ → α}

omit [DecidableEq κ] in
theorem sorted_standing (h : Occupied key place n now) (missing : List ℕ) :
    Sorted place ((standing n missing).map now) := by
  rw [Sorted, List.map_map]
  refine (standing_pairwise n missing).map _ fun i j hij => ?_
  simp only [Function.comp_apply, h.place_eq]
  omega

omit [DecidableEq κ] in
theorem keys_standing (h : Occupied key place n now) (missing : List ℕ) :
    (((standing n missing).map now).map key).Nodup := by
  rw [List.map_map]
  refine List.Nodup.map_on (fun i hi j hj hij => ?_) ((standing_pairwise n missing).imp Nat.ne_of_lt)
  exact h.key_inj i (mem_standing.mp hi).1 j (mem_standing.mp hj).1 hij

theorem leave_standing (h : Occupied key place n now) (hi : i < n) (missing : List ℕ) :
    leave key now ((standing n missing).map now) i = some ((standing n (i :: missing)).map now) := by
  rw [leave, Vectors.removeIf_eq_filter (keys_standing h missing), List.filter_map, standing_cons]
  apply congrArg
  apply congrArg
  apply List.filter_congr
  intro j hj
  have hiff : key (now j) = key (now i) ↔ j = i :=
    ⟨h.key_inj j (mem_standing.mp hj).1 i hi, fun heq => by rw [heq]⟩
  simp [hiff]

theorem leaving (h : Occupied key place n now) {leaver : List ℕ} (hleaver : ∀ i ∈ leaver, i < n) (missing : List ℕ) :
    run (leave key now) ((standing n missing).map now) leaver = some ((standing n (leaver.reverse ++ missing)).map now) ∧
      Throughout (leave key now) (Sorted place) ((standing n missing).map now) leaver := by
  induction leaver generalizing missing with
  | nil =>
    refine ⟨rfl, (throughout_iff _ _ _).mpr ⟨sorted_standing h missing, eachStep_nil _ _⟩⟩
  | cons i leaver ih =>
    obtain ⟨hi, hrest⟩ := List.forall_mem_cons.mp hleaver
    obtain ⟨hrun, hsorted⟩ := ih hrest (i :: missing)
    have hstep := leave_standing h hi missing
    constructor
    · rw [run_cons, hstep, Option.bind_some, hrun, List.reverse_cons, List.append_assoc]
      rfl
    · rw [throughout_cons]
      refine ⟨sorted_standing h missing, fun t ht => ?_⟩
      rw [← Option.some.inj (hstep.symm.trans ht)]
      exact hsorted

omit [DecidableEq κ] in
theorem occupied_update (h : Occupied key place n now) (hkey : key (back i) = key (now i)) (hplace : place (back i) = i) :
    Occupied key place n (Function.update now i (back i)) := by
  have hkeys (j : ℕ) : key (Function.update now i (back i) j) = key (now j) := by
    by_cases hj : j = i
    · rw [hj, Function.update_self, hkey]
    · rw [Function.update_of_ne hj]
  constructor
  · intro j
    by_cases hj : j = i
    · rw [hj, Function.update_self, hplace]
    · rw [Function.update_of_ne hj, h.place_eq]
  · intro j hj k hk heq
    rw [hkeys, hkeys] at heq
    exact h.key_inj j hj k hk heq

theorem map_standing_update (missing : List ℕ) :
    (standing n (i :: missing)).map (Function.update now i (back i)) = (standing n (i :: missing)).map now := by
  apply List.map_congr_left
  intro j hj
  have hne : j ≠ i := fun heq => (mem_standing.mp hj).2 (heq ▸ List.mem_cons_self ..)
  rw [Function.update_of_ne hne]

theorem comeBack_standing (h : Occupied key place n now) (hkey : key (back i) = key (now i)) (hi : i < n)
    (missing : List ℕ) :
    comeBack key back ((standing n (i :: missing)).map now) i =
      if i ≤ (standing n (i :: missing)).length then
        some (((standing n (i :: missing)).insertIdx i i).map (Function.update now i (back i))) else none := by
  have hnew : key (back i) ∉ ((standing n (i :: missing)).map now).map key := by
    rw [List.map_map]
    intro hmem
    obtain ⟨j, hj, heq⟩ := List.mem_map.mp hmem
    rw [hkey] at heq
    have hj' := mem_standing.mp hj
    obtain rfl : j = i := h.key_inj j hj'.1 i hi heq
    exact hj'.2 (List.mem_cons_self ..)
  rw [comeBack, Vectors.insert_eq_insertIdx i hnew (keys_standing h _), List.length_map]
  split_ifs with hle
  · apply congrArg
    rw [Vectors.insertIdx_eq (by simpa using hle), Vectors.insertIdx_eq hle, List.map_append, List.map_cons,
      Function.update_self, List.map_take, List.map_drop, map_standing_update]
  · rfl

omit [DecidableEq κ] in
theorem key_update (hkey : ∀ j, key (back j) = key (now j)) (i j : ℕ) :
    key (back j) = key (Function.update now i (back i) j) := by
  by_cases hj : j = i
  · rw [hj, Function.update_self]
  · rw [Function.update_of_ne hj, hkey]

theorem returned_update (original : ℕ → α) {returning : List ℕ} (hmissing : i ∉ returning) :
    (∀ j < n, (if j ∈ returning then back j else Function.update now i (back i) j) = original j) ↔
      ∀ j < n, (if j ∈ i :: returning then back j else now j) = original j := by
  refine forall_congr' fun j => imp_congr_right fun _ => ?_
  by_cases hj : j = i
  · rw [hj, if_neg hmissing, Function.update_self, if_pos (List.mem_cons_self ..)]
  · rw [Function.update_of_ne hj]
    simp [hj]

/-- An element that comes back before one of a lower place leaves the list unsorted, or does not fit in. -/
theorem comeBack_too_early (h : Occupied key place n now) (hkey : key (back i) = key (now i)) (hplace : place (back i) = i)
    (hi : i < n) {returning : List ℕ} {j : ℕ} (hj : j ∈ returning) (hji : j < i) (outcome : List α) :
    ¬ (run (comeBack key back) ((standing n (i :: returning)).map now) (i :: returning) = some outcome ∧
      Throughout (comeBack key back) (Sorted place) ((standing n (i :: returning)).map now) (i :: returning)) := by
  rw [run_cons, throughout_cons, comeBack_standing h hkey hi]
  rintro ⟨hrun, -, hsorted⟩
  rcases insert_standing_unsorted hi hj hji with hunsorted | hshort
  · split_ifs at hrun hsorted with hle
    · rw [Vectors.insertIdx_eq hle] at hsorted
      have hnow := ((throughout_iff _ _ _).mp (hsorted _ rfl)).1
      apply hunsorted
      rw [Sorted, List.map_map, List.pairwise_map] at hnow
      refine hnow.imp fun {a b} hab => ?_
      simp only [Function.comp_apply, (occupied_update h hkey hplace).place_eq] at hab
      omega
    · simp at hrun
  · rw [if_neg (by omega)] at hrun
    simp at hrun

/-- Returned in some order, the elements stand where they stood exactly if that order is the one of their
places and each comes back as it was. -/
theorem comingBack_iff (original : ℕ → α) {returning : List ℕ} (hnodup : returning.Nodup)
    (hbelow : ∀ i ∈ returning, i < n) (hkey : ∀ i, key (back i) = key (now i)) (hplace : ∀ i, place (back i) = i)
    (h : Occupied key place n now) :
    (run (comeBack key back) ((standing n returning).map now) returning = some ((List.range n).map original) ∧
      Throughout (comeBack key back) (Sorted place) ((standing n returning).map now) returning) ↔
      returning.Pairwise (· < ·) ∧ ∀ i < n, (if i ∈ returning then back i else now i) = original i := by
  induction returning generalizing now with
  | nil =>
    have hall : standing n [] = List.range n := List.filter_eq_self.mpr (by simp)
    have hsorted : Throughout (comeBack key back) (Sorted place) ((standing n []).map now) [] :=
      (throughout_iff _ _ []).mpr ⟨sorted_standing h [], eachStep_nil _ _⟩
    rw [hall] at hsorted ⊢
    simp only [run_nil, Option.some.injEq, hsorted, and_true, List.Pairwise.nil, List.not_mem_nil, if_false, true_and]
    constructor
    · intro heq i hi
      exact List.map_inj_left.mp heq i (List.mem_range.mpr hi)
    · intro heq
      exact List.map_congr_left fun i hi => heq i (List.mem_range.mp hi)
  | cons i returning ih =>
    obtain ⟨hi, hrest⟩ := List.forall_mem_cons.mp hbelow
    obtain ⟨hmissing, hreturning⟩ := List.nodup_cons.mp hnodup
    rw [List.pairwise_cons]
    by_cases hfirst : ∀ j ∈ returning, i < j
    · obtain ⟨hle, hstands⟩ := insert_standing hi hmissing fun j hj => Nat.le_of_lt (hfirst j hj)
      have hnext := ih hreturning hrest (key_update hkey i) (occupied_update h (hkey i) (hplace i))
      rw [run_cons, throughout_cons, comeBack_standing h (hkey i) hi, if_pos hle, hstands, Option.bind_some,
        ← returned_update original hmissing, and_iff_right hfirst, ← hnext]
      constructor
      · rintro ⟨hrun, -, hsorted⟩
        exact ⟨hrun, hsorted _ rfl⟩
      · rintro ⟨hrun, hsorted⟩
        refine ⟨hrun, sorted_standing h _, fun t ht => ?_⟩
        rw [← Option.some.inj ht]
        exact hsorted
    · obtain ⟨j, hj, hji⟩ : ∃ j ∈ returning, j < i := by
        push Not at hfirst
        obtain ⟨j, hj, hle⟩ := hfirst
        exact ⟨j, hj, Nat.lt_of_le_of_ne hle fun heq => hmissing (heq ▸ hj)⟩
      exact iff_of_false (comeBack_too_early h (hkey i) (hplace i) hi hj hji _) fun hall => hfirst hall.1.1

end Moves

end Foundation.Places
