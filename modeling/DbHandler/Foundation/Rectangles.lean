import Mathlib.Data.Int.Order.Basic
import Mathlib.Order.BoundedOrder.Lattice
import Mathlib.Order.Nat
import Mathlib.Tactic.Common

namespace Foundation.Rectangles

structure Point where
  x : ℤ
  y : ℤ
  deriving DecidableEq, Repr

structure Rect where
  x : ℤ
  y : ℤ
  width : ℤ
  height : ℤ
  deriving DecidableEq, Repr

namespace Rect

def left (r : Rect) : ℤ := r.x

def right (r : Rect) : ℤ := r.x + r.width - 1

def bottom (r : Rect) : ℤ := r.y + r.height - 1

def Contains (r : Rect) (p : Point) : Prop :=
  (r.x ≤ p.x ∧ p.x < r.x + r.width) ∧ r.y ≤ p.y ∧ p.y < r.y + r.height

instance (r : Rect) (p : Point) : Decidable (r.Contains p) := by
  unfold Contains
  infer_instance

def IsEmpty (r : Rect) : Prop := r.width ≤ 0 ∨ r.height ≤ 0

def Disjoint (r s : Rect) : Prop := ∀ p, r.Contains p → ¬ s.Contains p

/-- Two intervals that both begin before the other ends have the later beginning in common. -/
theorem exists_common {a b c d : ℤ} (hab : a < b) (hcd : c < d) (had : a < d) (hcb : c < b) :
    ∃ x, (a ≤ x ∧ x < b) ∧ c ≤ x ∧ x < d := by
  rcases le_total a c with h | h
  · exact ⟨c, ⟨h, hcb⟩, le_refl c, hcd⟩
  · exact ⟨a, ⟨le_refl a, hab⟩, h, had⟩

theorem disjoint_iff (r s : Rect) : r.Disjoint s ↔ r.IsEmpty ∨ s.IsEmpty ∨
    r.x + r.width ≤ s.x ∨ s.x + s.width ≤ r.x ∨ r.y + r.height ≤ s.y ∨ s.y + s.height ≤ r.y := by
  constructor
  · intro h
    by_contra hnot
    simp only [IsEmpty] at hnot
    obtain ⟨x, hrx, hsx⟩ : ∃ x, (r.x ≤ x ∧ x < r.x + r.width) ∧ s.x ≤ x ∧ x < s.x + s.width := by
      apply exists_common <;> omega
    obtain ⟨y, hry, hsy⟩ : ∃ y, (r.y ≤ y ∧ y < r.y + r.height) ∧ s.y ≤ y ∧ y < s.y + s.height := by
      apply exists_common <;> omega
    exact h ⟨x, y⟩ ⟨hrx, hry⟩ ⟨hsx, hsy⟩
  · rintro h p ⟨hrx, hry⟩ ⟨hsx, hsy⟩
    simp only [IsEmpty] at h
    omega

instance (r : Rect) : Decidable r.IsEmpty := by
  unfold IsEmpty
  infer_instance

instance (r s : Rect) : Decidable (r.Disjoint s) := decidable_of_iff _ (disjoint_iff r s).symm

theorem Disjoint.symm {r s : Rect} (h : r.Disjoint s) : s.Disjoint r := fun p hs hr => h p hr hs

end Rect

/-- A width and a height. -/
abbrev Size := ℕ × ℕ

/-- The least size in which each of the sizes has room. -/
def largest (sizes : List Size) : Size := sizes.foldr (· ⊔ ·) ⊥

theorem largest_le_iff {sizes : List Size} {bound : Size} : largest sizes ≤ bound ↔ ∀ s ∈ sizes, s ≤ bound := by
  induction sizes with
  | nil => simp [largest]
  | cons s sizes ih => rw [List.forall_mem_cons, ← ih, largest, List.foldr_cons, sup_le_iff, largest]

theorem le_largest {sizes : List Size} {s : Size} (h : s ∈ sizes) : s ≤ largest sizes :=
  largest_le_iff.mp le_rfl s h

end Foundation.Rectangles
