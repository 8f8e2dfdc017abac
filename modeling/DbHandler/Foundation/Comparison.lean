import Mathlib.Data.Prod.Lex
import Mathlib.Tactic.Common

namespace Foundation.Comparison

variable {α β : Type*} [LinearOrder α] [LinearOrder β] {a x : α} {b y : β}

theorem le_parts_iff : ((a ≤ x ∧ b ≤ y) ↔ toLex (a, b) ≤ toLex (x, y)) ↔ ¬ (a < x ∧ y < b) := by
  rw [Prod.Lex.toLex_le_toLex]
  constructor
  · rintro h ⟨hax, hyb⟩
    have hparts : a ≤ x ∧ b ≤ y := h.mpr (Or.inl hax)
    exact absurd hparts.2 (not_le.mpr hyb)
  · intro h
    constructor
    · rintro ⟨hax, hby⟩
      rcases hax.lt_or_eq with hlt | rfl
      · exact Or.inl hlt
      · exact Or.inr ⟨rfl, hby⟩
    · rintro (hlt | ⟨rfl, hby⟩)
      · exact ⟨hlt.le, not_lt.mp fun hyb => h ⟨hlt, hyb⟩⟩
      · exact ⟨le_refl _, hby⟩

theorem lt_parts_iff : ((a ≤ x ∧ b < y) ↔ toLex (a, b) < toLex (x, y)) ↔ ¬ (a < x ∧ y ≤ b) := by
  rw [Prod.Lex.toLex_lt_toLex]
  constructor
  · rintro h ⟨hax, hyb⟩
    have hparts : a ≤ x ∧ b < y := h.mpr (Or.inl hax)
    exact absurd hparts.2 (not_lt.mpr hyb)
  · intro h
    constructor
    · rintro ⟨hax, hby⟩
      rcases hax.lt_or_eq with hlt | rfl
      · exact Or.inl hlt
      · exact Or.inr ⟨rfl, hby⟩
    · rintro (hlt | ⟨rfl, hby⟩)
      · exact ⟨hlt.le, not_le.mp fun hyb => h ⟨hlt, hyb⟩⟩
      · exact ⟨le_refl _, hby⟩

end Foundation.Comparison
