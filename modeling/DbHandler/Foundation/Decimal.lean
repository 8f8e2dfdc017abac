import Mathlib.Algebra.Group.Nat.Defs
import Mathlib.Algebra.Group.Int.Defs
import Mathlib.Data.List.TakeWhile
import Mathlib.Tactic.Common

namespace Foundation.Decimal

def isSpace (c : Char) : Bool := c ∈ [' ', '\t', '\n', Char.ofNat 11, Char.ofNat 12, '\r']

def natural (t : List Char) : Option ℕ :=
  if t.takeWhile Char.isDigit = [] then none else some (Nat.ofDigitChars 10 (t.takeWhile Char.isDigit) 0)

def signed : List Char → Option ℤ
  | '-' :: t => (natural t).map fun n => -(n : ℤ)
  | '+' :: t => (natural t).map Int.ofNat
  | t => (natural t).map Int.ofNat

/-- `std::stoi`; `none` is an exception, for want of a digit or because the number is no `int`. -/
def stoi (t : List Char) : Option ℤ :=
  (signed (t.dropWhile isSpace)).filter fun n => -2 ^ 31 ≤ n ∧ n < 2 ^ 31

theorem natural_toDigits (n : ℕ) : natural (Nat.toDigits 10 n) = some n := by
  have htake : (Nat.toDigits 10 n).takeWhile Char.isDigit = Nat.toDigits 10 n := by
    apply List.takeWhile_eq_self_iff.mpr
    intro c hc
    exact Nat.isDigit_of_mem_toDigits (by omega) (by omega) hc
  rw [natural, htake, if_neg Nat.toDigits_ne_nil, Nat.ofDigitChars_ten_toDigits]

theorem not_mem_toDigits {c : Char} (hc : c.isDigit = false) (n : ℕ) : c ∉ Nat.toDigits 10 n := by
  intro h
  have hdigit : c.isDigit = true := Nat.isDigit_of_mem_toDigits (by omega) (by omega) h
  rw [hc] at hdigit
  exact absurd hdigit (by simp)

theorem signed_of_isDigit {c : Char} (t : List Char) (hc : c.isDigit = true) :
    signed (c :: t) = (natural (c :: t)).map Int.ofNat := by
  unfold signed
  split
  · next h =>
    obtain ⟨rfl, -⟩ := List.cons.inj h
    exact absurd hc (by decide)
  · next h =>
    obtain ⟨rfl, -⟩ := List.cons.inj h
    exact absurd hc (by decide)
  · rfl

theorem isSpace_of_isDigit {c : Char} (hc : c.isDigit = true) : isSpace c = false := by
  have hall : [' ', '\t', '\n', Char.ofNat 11, Char.ofNat 12, '\r'].all (fun d => !d.isDigit) = true := rfl
  apply decide_eq_false
  intro hspace
  have hdigit : (!c.isDigit) = true := List.all_eq_true.mp hall c hspace
  rw [hc] at hdigit
  exact absurd hdigit (by simp)

theorem stoi_toDigits {n : ℕ} (h : n < 2 ^ 31) : stoi (Nat.toDigits 10 n) = some n := by
  obtain ⟨c, t, hct⟩ := List.exists_cons_of_ne_nil (Nat.toDigits_ne_nil (b := 10) (n := n))
  have hc : c.isDigit = true :=
    Nat.isDigit_of_mem_toDigits (b := 10) (n := n) (by omega) (by omega) (by rw [hct]; exact List.mem_cons_self)
  have hdrop : (Nat.toDigits 10 n).dropWhile isSpace = Nat.toDigits 10 n := by
    rw [hct, List.dropWhile_cons_of_neg (by simp [isSpace_of_isDigit hc])]
  rw [stoi, hdrop, hct, signed_of_isDigit t hc, ← hct, natural_toDigits]
  simp only [Option.map_some, Int.ofNat_eq_natCast]
  apply Option.filter_eq_some_iff.mpr
  refine ⟨rfl, ?_⟩
  simp only [decide_eq_true_eq]
  omega

end Foundation.Decimal
