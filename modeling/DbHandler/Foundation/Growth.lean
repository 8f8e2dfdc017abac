import Mathlib.Data.List.Basic

namespace Foundation.Growth

/-- A vector that copies its elements where it runs out of room. -/
structure Growing (α : Type*) where
  capacity : ℕ
  items : List α

variable {α : Type*} {copy : α → Option α} {grow : ℕ → ℕ} {v w : Growing α} {x y : α} {xs : List α}

def pushBack (copy : α → Option α) (grow : ℕ → ℕ) (v : Growing α) (x : α) : Option (Growing α) :=
  (copy x).bind fun y =>
    if v.items.length < v.capacity then some { v with items := v.items ++ [y] }
    else (v.items.mapM copy).map fun items => ⟨grow v.capacity, items ++ [y]⟩

def pushAll (copy : α → Option α) (grow : ℕ → ℕ) (v : Growing α) (xs : List α) : Option (Growing α) :=
  xs.foldlM (pushBack copy grow) v

theorem mapM_of_stable (h : ∀ x ∈ xs, copy x = some x) : xs.mapM copy = some xs := by
  induction xs with
  | nil => rfl
  | cons x xs ih =>
    rw [List.forall_mem_cons] at h
    rw [List.mapM_cons, h.1, ih h.2]
    rfl

theorem pushBack_last (h : pushBack copy grow v x = some w) : ∃ y, copy x = some y ∧ w.items.getLast? = some y := by
  obtain ⟨y, hy, h⟩ := Option.bind_eq_some_iff.mp h
  refine ⟨y, hy, ?_⟩
  split at h
  · obtain rfl := Option.some.inj h
    exact List.getLast?_concat
  · obtain ⟨items, -, rfl⟩ := Option.map_eq_some_iff.mp h
    exact List.getLast?_concat

theorem pushAll_last (h : pushAll copy grow v (xs ++ [x]) = some w) : ∃ y, copy x = some y ∧ w.items.getLast? = some y := by
  rw [pushAll, List.foldlM_append] at h
  obtain ⟨u, -, hu⟩ := Option.bind_eq_some_iff.mp h
  rw [List.foldlM_cons] at hu
  obtain ⟨t, ht, hw⟩ := Option.bind_eq_some_iff.mp hu
  obtain rfl := Option.some.inj hw
  exact pushBack_last ht

/-- Where a copy of a copy is the copy again, the elements are what one copy makes of them, however often
the vector has grown. -/
theorem pushAll_of_stable {R : α → α → Prop} (hitems : ∀ y ∈ v.items, copy y = some y)
    (honce : ∀ x ∈ xs, ∃ y, copy x = some y ∧ copy y = some y ∧ R x y) :
    ∃ w ys, pushAll copy grow v xs = some w ∧ w.items = v.items ++ ys ∧ List.Forall₂ R xs ys := by
  induction xs generalizing v with
  | nil => exact ⟨v, [], rfl, by simp, .nil⟩
  | cons x xs ih =>
    rw [List.forall_mem_cons] at honce
    obtain ⟨⟨y, hfirst, hstable, hR⟩, hrest⟩ := honce
    obtain ⟨u, hu, huitems⟩ : ∃ u, pushBack copy grow v x = some u ∧ u.items = v.items ++ [y] := by
      rw [pushBack, hfirst, Option.bind_some, mapM_of_stable hitems]
      split
      · exact ⟨_, rfl, rfl⟩
      · exact ⟨_, rfl, rfl⟩
    have hkept : ∀ z ∈ u.items, copy z = some z := by
      intro z hz
      rw [huitems, List.mem_append, List.mem_singleton] at hz
      rcases hz with hz | rfl
      · exact hitems z hz
      · exact hstable
    obtain ⟨w, ys, hw, hwitems, hys⟩ := ih hkept hrest
    refine ⟨w, y :: ys, ?_, ?_, .cons hR hys⟩
    · rw [pushAll, List.foldlM_cons, hu]
      exact hw
    · rw [hwitems, huitems, List.append_assoc]
      rfl

end Foundation.Growth
