import Mathlib.Data.List.Nodup
import Mathlib.Tactic.Common

namespace Foundation.Vectors

variable {α κ : Type*} [DecidableEq κ] (key : α → κ)

/-- An assignment that leaves the target alone where both sides have one key. -/
def assign (target source : α) : α := if key target = key source then target else source

def removeInto (p : κ → Bool) : List α → List α → List α
  | place :: places, x :: xs =>
    if p (key x) then removeInto p (place :: places) xs else assign key place x :: removeInto p places xs
  | _, _ => []

/-- `erase( remove_if( begin(), end(), p ), end() )`. -/
def removeIf (p : κ → Bool) (l : List α) : List α := removeInto key p l l

/-- From its place on, the new element is assigned to the one that stands there, and each to the next. -/
def shiftInto (x : α) : List α → List α
  | [] => [x]
  | place :: places => assign key place x :: shiftInto place places

/-- `insert( begin() + position, x )`; beyond the end that is undefined. -/
def insert (x : α) (position : ℕ) (l : List α) : Option (List α) :=
  if position ≤ l.length then some (l.take position ++ shiftInto key x (l.drop position)) else none

/-- A loop over the vector whose body is `removeIf`. The iterator is incremented after the removal,
which is undefined where nothing is left at its place. -/
def sweepFrom (p : κ → Bool) : ℕ → ℕ → List α → Option (List α)
  | 0, _, l => some l
  | fuel + 1, i, l =>
    if i < l.length then
      if i < (removeIf key p l).length then sweepFrom p fuel (i + 1) (removeIf key p l) else none
    else some l

def sweep (p : κ → Bool) (l : List α) : Option (List α) := sweepFrom key p l.length 0 l

/-- `erase( remove_if( begin(), end(), p ) )` of plain values: one element goes, and behind the kept ones
the vector is as it was. At the end there is nothing to erase. -/
def eraseFirst (p : α → Bool) (l : List α) : Option (List α) :=
  let kept := l.filter (!p ·)
  if kept.length < l.length then some (kept ++ l.drop (kept.length + 1)) else none

variable {key} {p : κ → Bool} {x : α} {l : List α}

theorem key_assign (key : α → κ) (target source : α) : key (assign key target source) = key source := by
  unfold assign
  split_ifs with h
  · exact h
  · rfl

@[simp] theorem assign_self (x : α) : assign key x x = x := by simp [assign]

theorem assign_of_ne {target source : α} (h : key target ≠ key source) : assign key target source = source := if_neg h

section Keys

theorem keys_removeInto {places : List α} (h : l.length ≤ places.length) :
    (removeInto key p places l).map key = (l.map key).filter (!p ·) := by
  induction l generalizing places with
  | nil => cases places <;> rfl
  | cons x l ih =>
    cases places with
    | nil => simp at h
    | cons place places =>
      rw [removeInto, List.map_cons]
      by_cases hp : p (key x) = true
      · rw [if_pos hp, List.filter_cons_of_neg (by simp [hp])]
        apply ih
        simp only [List.length_cons] at h ⊢
        omega
      · rw [if_neg hp, List.filter_cons_of_pos (by simp [hp]), List.map_cons, key_assign key]
        apply congrArg (key x :: ·)
        apply ih
        simpa using h

@[simp] theorem keys_removeIf (p : κ → Bool) (l : List α) :
    (removeIf key p l).map key = (l.map key).filter (!p ·) := keys_removeInto (Nat.le_refl _)

@[simp] theorem keys_shiftInto (x : α) (l : List α) : (shiftInto key x l).map key = key x :: l.map key := by
  induction l generalizing x with
  | nil => rfl
  | cons place places ih => rw [shiftInto, List.map_cons, key_assign key, ih, List.map_cons]

omit [DecidableEq κ] in
theorem insertIdx_eq {position : ℕ} (h : position ≤ l.length) (x : α) :
    l.insertIdx position x = l.take position ++ x :: l.drop position := by
  induction l generalizing position with
  | nil =>
    obtain rfl : position = 0 := by simpa using h
    rfl
  | cons y l ih =>
    cases position with
    | zero => rfl
    | succ position => exact congrArg (y :: ·) (ih (Nat.le_of_succ_le_succ h))

theorem keys_insert (x : α) (position : ℕ) (l : List α) : (insert key x position l).map (·.map key) =
    if position ≤ l.length then some ((l.map key).insertIdx position (key x)) else none := by
  unfold insert
  split_ifs with h
  · rw [Option.map_some, List.map_append, keys_shiftInto, List.map_take, List.map_drop,
      insertIdx_eq (by simpa using h)]
  · rfl

theorem insert_eq_some {position : ℕ} {m : List α} : insert key x position l = some m ↔
    position ≤ l.length ∧ l.take position ++ shiftInto key x (l.drop position) = m := by
  simp [insert]

theorem removeIf_eq_nil : removeIf key p l = [] ↔ ∀ x ∈ l, p (key x) = true := by
  rw [← List.map_eq_nil_iff (f := key), keys_removeIf, List.filter_eq_nil_iff]
  simp

end Keys

theorem removeIf_eq_self (h : ∀ x ∈ l, p (key x) = false) : removeIf key p l = l := by
  unfold removeIf
  induction l with
  | nil => rfl
  | cons x l ih =>
    obtain ⟨hx, hl⟩ := List.forall_mem_cons.mp h
    rw [removeInto, hx, assign_self, ih hl]
    rfl

section Distinct

theorem removeInto_eq_filter (pre : List α) (h : ((pre ++ l).map key).Nodup) :
    removeInto key p (pre ++ l) l = l.filter (fun x => !p (key x)) := by
  induction l generalizing pre with
  | nil => cases pre <;> rfl
  | cons x l ih =>
    have hstep : ((pre ++ [x] ++ l).map key).Nodup := by simpa using h
    cases pre with
    | nil =>
      rw [List.nil_append, removeInto]
      by_cases hp : p (key x) = true
      · rw [if_pos hp, List.filter_cons_of_neg (by simp [hp])]
        exact ih [x] hstep
      · rw [if_neg hp, List.filter_cons_of_pos (by simp [hp]), assign_self]
        apply congrArg (x :: ·)
        exact ih [] (List.nodup_cons.mp h).2
    | cons place pre =>
      obtain ⟨hplace, hrest⟩ := List.nodup_cons.mp h
      rw [List.cons_append, removeInto]
      by_cases hp : p (key x) = true
      · rw [if_pos hp, List.filter_cons_of_neg (by simp [hp])]
        simpa using ih (place :: pre ++ [x]) hstep
      · have hne : key place ≠ key x := by
          intro heq
          apply hplace
          rw [heq]
          exact List.mem_map_of_mem (by simp)
        rw [if_neg hp, List.filter_cons_of_pos (by simp [hp]), assign_of_ne hne]
        apply congrArg (x :: ·)
        simpa using ih (pre ++ [x]) (by simpa using hrest)

theorem removeIf_eq_filter (h : (l.map key).Nodup) : removeIf key p l = l.filter (fun x => !p (key x)) :=
  removeInto_eq_filter [] h

theorem shiftInto_eq_cons (h : ((x :: l).map key).Nodup) : shiftInto key x l = x :: l := by
  induction l generalizing x with
  | nil => rfl
  | cons place places ih =>
    obtain ⟨hx, hrest⟩ := List.nodup_cons.mp h
    have hne : key place ≠ key x := fun heq => hx (heq ▸ List.mem_map_of_mem (List.mem_cons_self ..))
    rw [shiftInto, assign_of_ne hne, ih hrest]

theorem insert_eq_insertIdx (position : ℕ) (hx : key x ∉ l.map key) (h : (l.map key).Nodup) :
    insert key x position l = if position ≤ l.length then some (l.insertIdx position x) else none := by
  unfold insert
  split_ifs with hposition
  · have hrest : ((x :: l.drop position).map key).Nodup := by
      rw [List.map_cons, List.map_drop]
      exact List.nodup_cons.mpr ⟨fun hmem => hx (List.mem_of_mem_drop hmem), h.sublist (List.drop_sublist _ _)⟩
    rw [shiftInto_eq_cons hrest, insertIdx_eq hposition]
  · rfl

end Distinct

section Sweep

theorem sweepFrom_of_none (h : ∀ x ∈ l, p (key x) = false) (fuel i : ℕ) : sweepFrom key p fuel i l = some l := by
  induction fuel generalizing i with
  | zero => rfl
  | succ fuel ih =>
    rw [sweepFrom, removeIf_eq_self h]
    split_ifs
    · exact ih (i + 1)
    · rfl

theorem sweep_eq (p : κ → Bool) (l : List α) :
    sweep key p l = if l = [] ∨ ∃ x ∈ l, p (key x) = false then some (removeIf key p l) else none := by
  cases l with
  | nil => rfl
  | cons x l =>
    have hrest : ∀ y ∈ removeIf key p (x :: l), p (key y) = false := by
      intro y hy
      have hmem : key y ∈ ((x :: l).map key).filter (!p ·) := by
        rw [← keys_removeIf]
        exact List.mem_map_of_mem hy
      simpa using (List.mem_filter.mp hmem).2
    have hsome : removeIf key p (x :: l) ≠ [] ↔ x :: l = [] ∨ ∃ y ∈ x :: l, p (key y) = false := by
      rw [ne_eq, removeIf_eq_nil]
      push Not
      simp
    rw [sweep, List.length_cons, sweepFrom, if_pos (by simp)]
    by_cases hnil : removeIf key p (x :: l) = []
    · rw [if_neg (by simp [hnil]), if_neg (fun h => hsome.mpr h hnil)]
    · rw [if_pos (List.length_pos_of_ne_nil hnil), if_pos (hsome.mp hnil)]
      exact sweepFrom_of_none hrest _ _

end Sweep

section EraseFirst

variable {p q : α → Bool} {l : List α}

theorem eraseFirst_eq_filter_iff (h : ∀ x, q x = true → p x = true) : eraseFirst p l = some (l.filter (!q ·)) ↔
    l.countP q = 1 ∧ ∃ a b, l = a ++ b ∧ (∀ x ∈ a, p x = q x) ∧ ∀ x ∈ b, p x = true ∧ q x = false := by
  have hlength : l.length = l.countP q + (l.filter (!q ·)).length := by
    rw [← List.countP_eq_length_filter, List.length_eq_countP_add_countP q]
    simp
  constructor
  · intro herase
    simp only [eraseFirst] at herase
    split_ifs at herase with hroom
    obtain hkept := Option.some.inj herase
    have hcount : l.countP q = 1 := by
      have hlengths := congrArg List.length hkept
      simp only [List.length_append, List.length_drop] at hlengths
      omega
    -- the chosen elements that stay stand behind the kept ones
    have hsame : (l.filter (!q ·)).filter (!p ·) = l.filter (!p ·) := by
      rw [List.filter_filter]
      apply List.filter_congr
      intro x _
      cases hq : q x
      · simp
      · simp [h x hq]
    have hlast : (l.drop ((l.filter (!p ·)).length + 1)).filter (!p ·) = [] := by
      rw [← hkept, List.filter_append, List.filter_filter] at hsame
      simpa using hsame
    have htail : ∀ x ∈ l.drop ((l.filter (!p ·)).length + 1), p x = true ∧ q x = false := by
      intro x hx
      refine ⟨by simpa using List.filter_eq_nil_iff.mp hlast x hx, ?_⟩
      have hmem : x ∈ l.filter (!q ·) := hkept ▸ List.mem_append_right _ hx
      simpa using (List.mem_filter.mp hmem).2
    refine ⟨hcount, _, _, (List.take_append_drop _ l).symm, ?_, htail⟩
    have hhead : (l.take ((l.filter (!p ·)).length + 1)).filter (!q ·) = l.filter (!p ·) := by
      have hall : (l.drop ((l.filter (!p ·)).length + 1)).filter (!q ·) = l.drop ((l.filter (!p ·)).length + 1) :=
        List.filter_eq_self.mpr fun x hx => by simp [(htail x hx).2]
      apply List.append_cancel_right
      rw [hkept, ← hall, ← List.filter_append, List.take_append_drop]
    intro x hx
    cases hq : q x with
    | true => exact h x hq
    | false =>
      have hmem : x ∈ l.filter (!p ·) := hhead ▸ List.mem_filter.mpr ⟨hx, by simp [hq]⟩
      simpa using (List.mem_filter.mp hmem).2
  · rintro ⟨hcount, a, b, rfl, ha, hb⟩
    have hnone : b.countP q = 0 := List.countP_eq_zero.mpr fun x hx => by simp [(hb x hx).2]
    have hkept : (a ++ b).filter (!p ·) = a.filter (!q ·) := by
      have hbp : b.filter (!p ·) = [] := List.filter_eq_nil_iff.mpr fun x hx => by simp [(hb x hx).1]
      rw [List.filter_append, hbp, List.append_nil]
      exact List.filter_congr fun x hx => by rw [ha x hx]
    have hrest : (a ++ b).filter (!q ·) = a.filter (!q ·) ++ b := by
      rw [List.filter_append]
      exact congrArg (_ ++ ·) (List.filter_eq_self.mpr fun x hx => by simp [(hb x hx).2])
    have hplace : (a.filter (!q ·)).length + 1 = a.length := by
      rw [hrest] at hlength
      simp only [List.length_append, List.countP_append] at hlength hcount
      omega
    simp only [eraseFirst]
    rw [hkept, hplace, if_pos (by simp only [List.length_append]; omega), List.drop_left, hrest]

end EraseFirst

theorem filter_map_eq_iff {β : Type*} [DecidableEq β] {f : α → β} {p : β → Bool} {q : α → Bool} {l : List α} :
    (l.map f).filter (!p ·) = (l.filter (!q ·)).map f ↔ ∀ x ∈ l, p (f x) = q x := by
  constructor
  · induction l with
    | nil => simp
    | cons y l ih =>
      intro h
      have hsame : p (f y) = q y := by
        cases hp : p (f y) with
        | true =>
          have hnone : f y ∉ (l.map f).filter (!p ·) := fun hmem => by simpa [hp] using (List.mem_filter.mp hmem).2
          by_contra hq
          apply hnone
          rw [List.map_cons, List.filter_cons_of_neg (by simp [hp])] at h
          rw [h]
          exact List.mem_map_of_mem (List.mem_filter.mpr ⟨List.mem_cons_self .., by simpa using Ne.symm hq⟩)
        | false =>
          by_contra hq
          have hall : ((l.map f).filter (!p ·)).count (f y) = (l.map f).count (f y) :=
            List.count_filter (by simp [hp])
          have hfew : ((l.filter (!q ·)).map f).count (f y) ≤ (l.map f).count (f y) :=
            ((List.filter_sublist (p := (!q ·)) (l := l)).map f).count_le (f y)
          have hcount := congrArg (List.count (f y)) h
          rw [List.map_cons, List.filter_cons_of_pos (by simp [hp]), List.filter_cons_of_neg (by simpa using Ne.symm hq),
            List.count_cons_self, hall] at hcount
          omega
      have hrest : ∀ x ∈ l, p (f x) = q x := by
        apply ih
        cases hq : q y
        · simpa [hsame, hq] using h
        · simpa [hsame, hq] using h
      intro x hx
      rcases List.mem_cons.mp hx with rfl | hx
      · exact hsame
      · exact hrest x hx
  · intro h
    rw [List.filter_map]
    apply congrArg (List.map f)
    exact List.filter_congr fun x hx => by simp [h x hx]

end Foundation.Vectors
