import Mathlib.Data.List.Basic
import Mathlib.Data.List.TakeWhile

namespace Foundation.Separators

variable {α : Type*} [DecidableEq α]

/-- `t.substr( 0, t.find( x ) )`. -/
def before (x : α) (t : List α) : List α := t.takeWhile (· ≠ x)

/-- `t.substr( t.find( x ) + 1 )`, which is all of `t` where there is no `x`. -/
def after (x : α) (t : List α) : List α := if x ∈ t then (t.dropWhile (· ≠ x)).tail else t

variable {x : α} {a b t : List α}

theorem not_mem_before (x : α) (t : List α) : x ∉ before x t := by
  intro h
  have hne := List.mem_takeWhile_imp h
  simp at hne

theorem before_prefix (x : α) (t : List α) : before x t <+: t := List.takeWhile_prefix _

theorem after_suffix (x : α) (t : List α) : after x t <:+ t := by
  rw [after]
  split_ifs
  · exact (List.tail_suffix _).trans (List.dropWhile_suffix _)
  · exact List.suffix_refl t

theorem before_of_not_mem (h : x ∉ t) : before x t = t := by
  apply List.takeWhile_eq_self_iff.mpr
  intro y hy
  simp only [decide_eq_true_eq]
  rintro rfl
  exact h hy

theorem after_of_not_mem (h : x ∉ t) : after x t = t := if_neg h

theorem before_append (h : x ∉ a) : before x (a ++ x :: b) = a := by
  induction a with
  | nil => simp [before]
  | cons c a ih =>
    obtain ⟨hc, ha⟩ : x ≠ c ∧ x ∉ a := by simpa using h
    rw [List.cons_append, before, List.takeWhile_cons_of_pos (by simp [Ne.symm hc])]
    exact congrArg (c :: ·) (ih ha)

theorem dropWhile_append (h : x ∉ a) : (a ++ x :: b).dropWhile (· ≠ x) = x :: b := by
  induction a with
  | nil => simp
  | cons c a ih =>
    obtain ⟨hc, ha⟩ : x ≠ c ∧ x ∉ a := by simpa using h
    rw [List.cons_append, List.dropWhile_cons_of_pos (by simp [Ne.symm hc])]
    exact ih ha

theorem after_append (h : x ∉ a) : after x (a ++ x :: b) = b := by
  rw [after, if_pos (by simp), dropWhile_append h, List.tail_cons]

theorem append_inj_of_not_mem {c d : List α} (ha : x ∉ a) (hb : x ∉ b) (h : a ++ x :: c = b ++ x :: d) :
    a = b ∧ c = d := by
  constructor
  · rw [← before_append (b := c) ha, h, before_append hb]
  · rw [← after_append (b := c) ha, h, after_append hb]

/-- Two words differ at a letter, the separator counted. -/
theorem exists_difference {v w : List α} (hv : x ∉ v) (hw : x ∉ w) (h : v ≠ w) :
    ∃ c y z s t, v ++ [x] = c ++ y :: s ∧ w ++ [x] = c ++ z :: t ∧ y ≠ z := by
  induction v generalizing w with
  | nil =>
    obtain ⟨z, w, rfl⟩ := List.exists_cons_of_ne_nil (Ne.symm h)
    exact ⟨[], x, z, [], w ++ [x], rfl, rfl, fun heq => hw (heq ▸ List.mem_cons_self ..)⟩
  | cons y v ih =>
    cases w with
    | nil => exact ⟨[], y, x, v ++ [x], [], rfl, rfl, fun heq => hv (heq ▸ List.mem_cons_self ..)⟩
    | cons z w =>
      by_cases hyz : y = z
      · subst hyz
        obtain ⟨c, a, b, s, t, hs, ht, hab⟩ := ih (fun hmem => hv (List.mem_cons_of_mem _ hmem))
          (fun hmem => hw (List.mem_cons_of_mem _ hmem)) fun heq => h (by rw [heq])
        exact ⟨y :: c, a, b, s, t, congrArg (y :: ·) hs, congrArg (y :: ·) ht, hab⟩
      · exact ⟨[], y, z, v ++ [x], w ++ [x], rfl, rfl, hyz⟩

omit [DecidableEq α] in
theorem intercalate_cons (sep first : List α) (parts : List (List α)) :
    sep.intercalate (first :: parts) = first ++ parts.flatMap (sep ++ ·) := by
  induction parts generalizing first with
  | nil => simp
  | cons next parts ih => rw [List.intercalate_cons_cons, ih, List.flatMap_cons, List.append_assoc, List.append_assoc]

omit [DecidableEq α] in
theorem intercalate_split (sep part : List α) (earlier later : List (List α)) :
    sep.intercalate (earlier ++ part :: later) = earlier.flatMap (· ++ sep) ++ (part ++ later.flatMap (sep ++ ·)) := by
  induction earlier with
  | nil => rw [List.nil_append, List.flatMap_nil, List.nil_append, intercalate_cons]
  | cons first earlier ih =>
    rw [List.cons_append, List.intercalate_cons_of_ne_nil (by simp), ih, List.flatMap_cons]
    simp only [List.append_assoc]

theorem before_append_stop (x : α) (a b : List α) : before x (a ++ x :: b) = before x a := by
  induction a with
  | nil => simp [before]
  | cons c a ih =>
    rw [List.cons_append]
    by_cases hc : c = x
    · simp [before, hc]
    · rw [before, before, List.takeWhile_cons_of_pos (by simp [hc]), List.takeWhile_cons_of_pos (by simp [hc])]
      exact congrArg (c :: ·) ih

theorem before_append_before (x : α) (a b : List α) : before x (before x a ++ b) = before x a ++ before x b :=
  List.takeWhile_append_of_pos fun _ hy => decide_eq_true fun h => not_mem_before x a (h ▸ hy)

theorem before_append_after (h : x ∈ t) : before x t ++ x :: after x t = t := by
  obtain ⟨a, b, hab, ha⟩ := List.eq_append_cons_of_mem h
  rw [hab, before_append ha, after_append ha]

end Foundation.Separators
