import Mathlib.Data.List.Basic
import Mathlib.Data.List.Flatten

namespace Foundation.RowMajor

variable {α β : Type*} {n i : ℕ} {xs : List α}

/-- The row `i` of a matrix that is stored row by row. -/
def row (n : ℕ) (xs : List α) (i : ℕ) : List α := (xs.drop (i * n)).take n

theorem row_map (f : α → β) (xs : List α) : row n (xs.map f) i = (row n xs i).map f := by
  rw [row, row, ← List.map_drop, ← List.map_take]

theorem length_flatMap {f : α → List β} (h : ∀ x ∈ xs, (f x).length = n) : (xs.flatMap f).length = xs.length * n := by
  induction xs with
  | nil => simp
  | cons x xs ih =>
    obtain ⟨hx, hxs⟩ := List.forall_mem_cons.mp h
    rw [List.flatMap_cons, List.length_append, hx, ih hxs, List.length_cons, Nat.succ_mul, Nat.add_comm]

theorem row_flatMap {f : α → List β} (h : ∀ x ∈ xs, (f x).length = n) {x : α} (hx : xs[i]? = some x) :
    row n (xs.flatMap f) i = f x := by
  induction xs generalizing i with
  | nil => simp at hx
  | cons y xs ih =>
    obtain ⟨hy, hxs⟩ := List.forall_mem_cons.mp h
    cases i with
    | zero =>
      obtain rfl : y = x := by simpa using hx
      rw [row, Nat.zero_mul, List.drop_zero, List.flatMap_cons, ← hy, List.take_left]
    | succ i =>
      have hrow := ih hxs (i := i) (by simpa using hx)
      rw [row, List.flatMap_cons, Nat.succ_mul, Nat.add_comm, ← hy, List.drop_length_add_append, hy]
      exact hrow

theorem getElem?_flatMap (hn : 0 < n) {f : α → List β} (h : ∀ x ∈ xs, (f x).length = n) (k : ℕ) :
    (xs.flatMap f)[k]? = xs[k / n]?.bind fun x => (f x)[k % n]? := by
  induction xs generalizing k with
  | nil => simp
  | cons x xs ih =>
    obtain ⟨hx, hxs⟩ := List.forall_mem_cons.mp h
    rw [List.flatMap_cons]
    by_cases hk : k < n
    · rw [List.getElem?_append_left (by rwa [hx]), Nat.div_eq_of_lt hk, Nat.mod_eq_of_lt hk]
      rfl
    · obtain ⟨k, rfl⟩ := Nat.exists_eq_add_of_le' (Nat.le_of_not_lt hk)
      rw [List.getElem?_append_right (by omega), hx, Nat.add_sub_cancel, ih hxs, Nat.add_div_right k hn, Nat.add_mod_right,
        List.getElem?_cons_succ]

theorem place_row {j : ℕ} (hj : j < n) (i : ℕ) : (i * n + j) / n = i := by
  rw [Nat.mul_comm, Nat.mul_add_div (by omega), Nat.div_eq_of_lt hj, Nat.add_zero]

theorem place_column {j : ℕ} (hj : j < n) (i : ℕ) : (i * n + j) % n = j := by
  rw [Nat.mul_comm, Nat.mul_add_mod, Nat.mod_eq_of_lt hj]

/-- The next place is in the next column, or in the first one of the next row. -/
theorem next_place (hn : 0 < n) (k : ℕ) :
    ((k + 1) % n = k % n + 1 ∧ (k + 1) / n = k / n) ∨ ((k + 1) % n = 0 ∧ k % n + 1 = n ∧ (k + 1) / n = k / n + 1) := by
  have hk : k / n * n + k % n = k := by rw [Nat.mul_comm]; exact Nat.div_add_mod k n
  have hmod := Nat.mod_lt k hn
  rcases Nat.lt_or_ge (k % n + 1) n with hlt | hge
  · left
    have hnext : k + 1 = k / n * n + (k % n + 1) := by omega
    exact ⟨by rw [hnext, place_column hlt], by rw [hnext, place_row hlt]⟩
  · right
    have hnext : k + 1 = (k / n + 1) * n + 0 := by rw [Nat.succ_mul]; omega
    refine ⟨?_, by omega, ?_⟩
    · rw [hnext, place_column hn]
    · rw [hnext, place_row hn]

end Foundation.RowMajor
