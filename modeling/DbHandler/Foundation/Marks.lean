import Mathlib.Data.Int.Order.Basic
import Mathlib.Data.List.Basic
import Mathlib.Tactic.Common

namespace Foundation.Marks

/-- A mark moves to a value as soon as the value comes nearer to it than `slack`, also from below. -/
def follow (slack mark value : ℤ) : ℤ := if value + slack > mark then value else mark

/-- Behind the last value at or above `floor` none is as near to that value as `slack`. -/
def Settles (slack floor : ℤ) (values : List ℤ) : Prop :=
  ∀ before value after, values = before ++ value :: after → floor ≤ value → (∀ v ∈ after, v < floor) →
    ∀ v ∈ after, v + slack ≤ value

variable {slack floor mark bound : ℤ} {values : List ℤ}

theorem foldl_follow_le (hmark : mark ≤ bound) (h : ∀ v ∈ values, v ≤ bound) :
    values.foldl (follow slack) mark ≤ bound := by
  induction values generalizing mark with
  | nil => exact hmark
  | cons v values ih =>
    obtain ⟨hv, hvalues⟩ := List.forall_mem_cons.mp h
    apply ih _ hvalues
    rw [follow]
    split_ifs
    · exact hv
    · exact hmark

theorem le_foldl_follow (hmark : bound ≤ mark) (h : ∀ v ∈ values, bound ≤ v) :
    bound ≤ values.foldl (follow slack) mark := by
  induction values generalizing mark with
  | nil => exact hmark
  | cons v values ih =>
    obtain ⟨hv, hvalues⟩ := List.forall_mem_cons.mp h
    apply ih _ hvalues
    rw [follow]
    split_ifs
    · exact hv
    · exact hmark

/-- Among values below `floor` the mark stays there only where it is. -/
theorem floor_le_foldl_iff (hvalues : ∀ v ∈ values, v < floor) :
    floor ≤ values.foldl (follow slack) mark ↔ floor ≤ mark ∧ ∀ v ∈ values, v + slack ≤ mark := by
  induction values generalizing mark with
  | nil => simp
  | cons v values ih =>
    obtain ⟨hv, hrest⟩ := List.forall_mem_cons.mp hvalues
    rw [List.foldl_cons, ih hrest, follow, List.forall_mem_cons]
    split_ifs with hnear
    · constructor
      · intro h
        exact absurd h.1 (not_le.mpr hv)
      · intro h
        exact absurd h.2.1 (not_le.mpr hnear)
    · constructor
      · intro h
        exact ⟨h.1, not_lt.mp hnear, h.2⟩
      · intro h
        exact ⟨h.1, h.2.2⟩

theorem exists_last (h : ∃ v ∈ values, floor ≤ v) :
    ∃ before value after, values = before ++ value :: after ∧ floor ≤ value ∧ ∀ v ∈ after, v < floor := by
  induction values with
  | nil => simp at h
  | cons v values ih =>
    by_cases hrest : ∃ v ∈ values, floor ≤ v
    · obtain ⟨before, value, after, rfl, hvalue, hafter⟩ := ih hrest
      exact ⟨v :: before, value, after, rfl, hvalue, hafter⟩
    · obtain ⟨w, hw, hfloor⟩ := h
      rcases List.mem_cons.mp hw with rfl | hw
      · exact ⟨[], w, values, rfl, hfloor, fun v hv => lt_of_not_ge fun hle => hrest ⟨v, hv, hle⟩⟩
      · exact absurd ⟨w, hw, hfloor⟩ hrest

/-- The mark comes to a value at or above `floor` wherever it is, and is kept up by the last of them. -/
theorem floor_le_follow_iff (hmark : mark < floor + slack) (hvalues : ∀ v ∈ values, v < floor + slack)
    (hreach : ∃ v ∈ values, floor ≤ v) : floor ≤ values.foldl (follow slack) mark ↔ Settles slack floor values := by
  have hsplit (before value after) (heq : values = before ++ value :: after) (hvalue : floor ≤ value)
      (hafter : ∀ v ∈ after, v < floor) :
      floor ≤ values.foldl (follow slack) mark ↔ ∀ v ∈ after, v + slack ≤ value := by
    have hbefore : before.foldl (follow slack) mark ≤ floor + slack - 1 := by
      apply foldl_follow_le
      · omega
      · intro v hv
        have := hvalues v (heq ▸ List.mem_append_left _ hv)
        omega
    have hreached : follow slack (before.foldl (follow slack) mark) value = value := if_pos (by omega)
    rw [heq, List.foldl_append, List.foldl_cons, hreached, floor_le_foldl_iff hafter]
    exact and_iff_right hvalue
  constructor
  · intro h before value after heq hvalue hafter
    exact (hsplit before value after heq hvalue hafter).mp h
  · intro h
    obtain ⟨before, value, after, heq, hvalue, hafter⟩ := exists_last hreach
    exact (hsplit before value after heq hvalue hafter).mpr (h before value after heq hvalue hafter)

theorem settles_of_gap (h : ∀ v ∈ values, floor ≤ v ∨ v + slack ≤ floor) : Settles slack floor values := by
  rintro before value after rfl hvalue hafter v hv
  rcases h v (by simp [hv]) with hfloor | hbelow
  · exact absurd (hafter v hv) (not_lt.mpr hfloor)
  · exact le_trans hbelow hvalue

theorem foldl_follow_add (offset : ℤ) : (values.map fun v => offset + v).foldl (follow slack) (offset + mark) =
    offset + values.foldl (follow slack) mark := by
  induction values generalizing mark with
  | nil => rfl
  | cons v values ih =>
    have hstep : follow slack (offset + mark) (offset + v) = offset + follow slack mark v := by
      simp only [follow]
      split_ifs <;> omega
    rw [List.map_cons, List.foldl_cons, List.foldl_cons, hstep, ih]

theorem foldl_follow_le_max {highest : ℤ} (hmax : values.max? = some highest) (hmark : ∀ v ∈ values, mark < v + slack) :
    values.foldl (follow slack) mark ≤ highest := by
  obtain ⟨-, hle⟩ := List.max?_eq_some_iff.mp hmax
  cases values with
  | nil => cases hmax
  | cons v values =>
    have hreached : follow slack mark v = v := if_pos (hmark v List.mem_cons_self)
    rw [List.foldl_cons, hreached]
    exact foldl_follow_le (hle v List.mem_cons_self) fun w hw => hle w (List.mem_cons_of_mem v hw)

/-- The mark ends no more than `depth` below each value. -/
theorem forall_le_follow_iff {depth : ℤ} (hne : values ≠ []) (hdepth : 0 ≤ depth ∧ depth < slack)
    (hmark : ∀ v ∈ values, mark < v - depth + slack) :
    (∀ v ∈ values, v - depth ≤ values.foldl (follow slack) mark) ↔
      ∀ highest ∈ values.max?, Settles slack (highest - depth) values := by
  obtain ⟨highest, hmax⟩ := Option.isSome_iff_exists.mp (List.isSome_max?_of_ne_nil hne)
  obtain ⟨hmem, hle⟩ := List.max?_eq_some_iff.mp hmax
  have hiff : highest - depth ≤ values.foldl (follow slack) mark ↔ Settles slack (highest - depth) values := by
    apply floor_le_follow_iff (hmark highest hmem)
    · intro v hv
      have := hle v hv
      omega
    · exact ⟨highest, hmem, by omega⟩
  constructor
  · rintro h _ hhighest
    obtain rfl := Option.some.inj (hmax.symm.trans hhighest)
    exact hiff.mp (h highest hmem)
  · intro h v hv
    have hlast := hiff.mpr (h highest hmax)
    have := hle v hv
    omega

end Foundation.Marks
