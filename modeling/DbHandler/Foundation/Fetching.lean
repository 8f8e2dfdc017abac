import Mathlib.Data.Nat.Basic
import Mathlib.Tactic.Common

namespace Foundation.Fetching

variable {σ : Type*} {stops : ℕ → σ → Bool} {body : ℕ → σ → σ} {n m : ℕ} {st st' : σ}

/-- A loop over the calls of a library, which are numbered from the first; `none` where it takes more turns than
`fuel`. -/
def loop (stops : ℕ → σ → Bool) (body : ℕ → σ → σ) : ℕ → ℕ → σ → Option (ℕ × σ)
  | 0, _, _ => none
  | fuel + 1, n, st => if stops n st then some (n, st) else loop stops body fuel (n + 1) (body n st)

def after (body : ℕ → σ → σ) (n : ℕ) (st : σ) : ℕ → σ
  | 0 => st
  | k + 1 => body (n + k) (after body n st k)

theorem after_shift (body : ℕ → σ → σ) (n : ℕ) (st : σ) (k : ℕ) :
    after body (n + 1) (body n st) k = after body n st (k + 1) := by
  induction k with
  | zero => rfl
  | succ k ih =>
    rw [after, ih, after, Nat.add_right_comm]
    rfl

theorem loop_of_after (k : ℕ) (hstop : stops (n + k) (after body n st k) = true)
    (hgo : ∀ j < k, stops (n + j) (after body n st j) = false) :
    loop stops body (k + 1) n st = some (n + k, after body n st k) := by
  induction k generalizing n st with
  | zero => exact if_pos hstop
  | succ k ih =>
    have hfirst : stops n st = false := hgo 0 (by omega)
    have hrest : loop stops body (k + 1) (n + 1) (body n st) = some (n + 1 + k, after body (n + 1) (body n st) k) :=
      ih (by rw [after_shift, Nat.add_right_comm]; exact hstop)
        (fun j hj => by rw [after_shift, Nat.add_right_comm]; exact hgo (j + 1) (by omega))
    rw [loop, hfirst, if_neg Bool.false_ne_true, hrest, after_shift, Nat.add_right_comm]
    rfl

theorem after_of_loop (fuel : ℕ) (h : loop stops body fuel n st = some (m, st')) :
    ∃ k, m = n + k ∧ st' = after body n st k ∧ stops (n + k) (after body n st k) = true ∧
      ∀ j < k, stops (n + j) (after body n st j) = false := by
  induction fuel generalizing n st with
  | zero => exact absurd h (by simp [loop])
  | succ fuel ih =>
    rw [loop] at h
    split_ifs at h with hstop
    · obtain ⟨rfl, rfl⟩ := Prod.mk.inj (Option.some.inj h)
      exact ⟨0, rfl, rfl, hstop, fun j hj => absurd hj (by omega)⟩
    · obtain ⟨k, hm, hst, hstops, hgo⟩ := ih h
      rw [after_shift] at hst hstops
      refine ⟨k + 1, by omega, hst, by rw [← Nat.add_right_comm] at hstops; exact hstops, ?_⟩
      intro j hj
      cases j with
      | zero => exact Bool.eq_false_iff.mpr hstop
      | succ j =>
        have hbefore := hgo j (by omega)
        rwa [after_shift, Nat.add_right_comm] at hbefore

end Foundation.Fetching
