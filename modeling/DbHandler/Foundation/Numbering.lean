import Mathlib.Data.List.Basic
import Mathlib.Algebra.Order.Ring.Int

namespace Foundation.Numbering

/-- The numbers from `n` on are tried one after another, `fuel` of them at most. -/
def firstFree (taken : List ℤ) : ℕ → ℤ → ℤ
  | 0, n => n
  | fuel + 1, n => if n ∈ taken then firstFree taken fuel (n + 1) else n

variable {taken : List ℤ}

theorem le_firstFree (fuel : ℕ) (n : ℤ) : n ≤ firstFree taken fuel n := by
  induction fuel generalizing n with
  | zero => exact le_refl n
  | succ fuel ih =>
    rw [firstFree]
    split
    · have hnext := ih (n + 1)
      omega
    · exact le_refl n

theorem mem_of_lt_firstFree (fuel : ℕ) {n m : ℤ} (hn : n ≤ m) (hm : m < firstFree taken fuel n) : m ∈ taken := by
  induction fuel generalizing n with
  | zero =>
    rw [firstFree] at hm
    omega
  | succ fuel ih =>
    rw [firstFree] at hm
    split at hm
    · rename_i htaken
      by_cases heq : n = m
      · exact heq ▸ htaken
      · exact ih (by omega) hm
    · omega

theorem length_filter_succ {n : ℤ} (h : n ∈ taken) :
    (taken.filter fun m => n + 1 ≤ m).length < (taken.filter fun m => n ≤ m).length := by
  have hsub : (taken.filter fun m => n + 1 ≤ m).Sublist (taken.filter fun m => n ≤ m) := by
    apply List.monotone_filter_right
    intro m hm
    simp only [decide_eq_true_eq] at hm ⊢
    omega
  apply lt_of_le_of_ne hsub.length_le
  intro heq
  have hsame := hsub.eq_of_length heq
  have hmem : n ∈ taken.filter fun m => n ≤ m := List.mem_filter.mpr ⟨h, by simp⟩
  rw [← hsame, List.mem_filter] at hmem
  have hlt : n + 1 ≤ n := by simpa using hmem.2
  omega

theorem firstFree_not_mem_of_filter (fuel : ℕ) {n : ℤ} (h : (taken.filter fun m => n ≤ m).length ≤ fuel) :
    firstFree taken fuel n ∉ taken := by
  induction fuel generalizing n with
  | zero =>
    intro hmem
    have hnil := List.filter_eq_nil_iff.mp (List.eq_nil_of_length_eq_zero (Nat.le_zero.mp h)) n hmem
    simp at hnil
  | succ fuel ih =>
    rw [firstFree]
    split
    · rename_i htaken
      have hless := length_filter_succ htaken
      exact ih (by omega)
    · assumption

/-- As many tries as there are numbers taken are enough. -/
theorem firstFree_not_mem (n : ℤ) : firstFree taken taken.length n ∉ taken :=
  firstFree_not_mem_of_filter _ (List.length_filter_le _ _)

end Foundation.Numbering
