import DbHandler.Foundation.Search

namespace Foundation.Search

variable {α : Type*} [DecidableEq α] {p r a b t : List α}

/-- Replaces the first occurrence only. -/
def replaceFirst (p r t : List α) : List α :=
  match find p t with
  | some n => t.take n ++ r ++ t.drop (n + p.length)
  | none => t

theorem replaceFirst_at (h : Avoids p a (p ++ b)) : replaceFirst p r (a ++ (p ++ b)) = a ++ r ++ b := by
  rw [replaceFirst, find_at h (List.prefix_append p b)]
  have hrest : (a ++ (p ++ b)).drop (a.length + p.length) = b := by
    rw [← List.append_assoc, ← List.length_append, List.drop_left]
  change (a ++ (p ++ b)).take a.length ++ r ++ (a ++ (p ++ b)).drop (a.length + p.length) = _
  rw [List.take_left, hrest]

theorem replaceFirst_none (hp : p ≠ []) (h : ¬ p <:+: t) : replaceFirst p r t = t := by
  rw [replaceFirst, (find_eq_none_iff hp).mpr h]

/-- A text without an occurrence, or cut at the first one. -/
theorem occurrence (hp : p ≠ []) (t : List α) : ¬ p <:+: t ∨ ∃ a b, t = a ++ (p ++ b) ∧ Avoids p a (p ++ b) := by
  cases h : find p t with
  | none => exact .inl ((find_eq_none_iff hp).mp h)
  | some n =>
    obtain ⟨havoids, b, hb⟩ := find_split h
    rw [← hb] at havoids
    refine .inr ⟨t.take n, b, ?_, havoids⟩
    rw [hb, List.take_append_drop]

theorem replaceAll_absent (hp : p ≠ []) (h : ¬ p <:+: t) : replaceAll p r t = t :=
  replaceAll_none ((avoids_all hp).mpr h)

theorem replaceAll_occurrence (hp : p ≠ []) (h : Avoids p a (p ++ b)) (r : List α) :
    replaceAll p r (a ++ (p ++ b)) = a ++ (r ++ replaceAll p r b) := by
  rw [replaceAll_append h, replaceAll_prefix hp]

theorem replaceAll_nil (r t : List α) : replaceAll [] r t = t := if_pos rfl

/-- Occurrence by occurrence, what holds of the rest holds of the text. -/
theorem replaceAll_induction (hp : p ≠ []) {P : List α → Prop} (absent : ∀ t, ¬ p <:+: t → P t)
    (occurs : ∀ a b, Avoids p a (p ++ b) → P b → P (a ++ (p ++ b))) (t : List α) : P t := by
  induction hn : t.length using Nat.strong_induction_on generalizing t with
  | _ n ih =>
    rcases occurrence hp t with h | ⟨a, b, rfl, h⟩
    · exact absent t h
    · apply occurs a b h
      refine ih b.length ?_ b rfl
      have := List.length_pos_of_ne_nil hp
      simp only [List.length_append] at hn
      omega

section Measures

variable {m : List α → ℕ} (hadd : ∀ a b, m (a ++ b) = m a + m b)

include hadd

/-- A replacement that weighs at least as much makes no text lighter. -/
theorem le_replaceAll (h : m p ≤ m r) (t : List α) : m t ≤ m (replaceAll p r t) := by
  by_cases hp : p = []
  · rw [hp, replaceAll_nil]
  · induction t using replaceAll_induction hp with
    | absent t ht => rw [replaceAll_absent hp ht]
    | occurs a b hab ih =>
      rw [replaceAll_occurrence hp hab]
      simp only [hadd]
      omega

theorem replaceAll_le (h : m r ≤ m p) (t : List α) : m (replaceAll p r t) ≤ m t := by
  by_cases hp : p = []
  · rw [hp, replaceAll_nil]
  · induction t using replaceAll_induction hp with
    | absent t ht => rw [replaceAll_absent hp ht]
    | occurs a b hab ih =>
      rw [replaceAll_occurrence hp hab]
      simp only [hadd]
      omega

theorem add_le_replaceAll {k : ℕ} (hp : p ≠ []) (h : m p + k ≤ m r) (ht : p <:+: t) :
    m t + k ≤ m (replaceAll p r t) := by
  rcases occurrence hp t with hnot | ⟨a, b, rfl, hab⟩
  · exact absurd ht hnot
  · have hrest := le_replaceAll hadd (Nat.le_trans (Nat.le_add_right _ k) h) b
    rw [replaceAll_occurrence hp hab]
    simp only [hadd]
    omega

end Measures

theorem replaceAll_self (p t : List α) : replaceAll p p t = t := by
  by_cases hp : p = []
  · rw [hp, replaceAll_nil]
  · induction t using replaceAll_induction hp with
    | absent t ht => exact replaceAll_absent hp ht
    | occurs a b hab ih => rw [replaceAll_occurrence hp hab, ih]

/-- A text is left as it is only if nothing occurs in it or it is replaced by itself. -/
theorem replaceAll_eq_self_iff (hp : p ≠ []) : replaceAll p r t = t ↔ p = r ∨ ¬ p <:+: t := by
  constructor
  · intro h
    rcases occurrence hp t with hnot | ⟨a, b, rfl, hab⟩
    · exact .inr hnot
    · left
      rw [replaceAll_occurrence hp hab] at h
      have hsame := List.append_cancel_left h
      have hlength : p.length = r.length := by
        have hsum := congrArg List.length hsame
        simp only [List.length_append] at hsum
        rcases Nat.lt_trichotomy p.length r.length with hlt | heq | hgt
        · have := le_replaceAll (m := List.length) (fun _ _ => List.length_append) (Nat.le_of_lt hlt) b
          omega
        · exact heq
        · have := replaceAll_le (m := List.length) (fun _ _ => List.length_append) (Nat.le_of_lt hgt) b
          omega
      exact (List.append_inj_left hsame hlength.symm).symm
  · rintro (rfl | h)
    · exact replaceAll_self p t
    · exact replaceAll_absent hp h

theorem replaceAll_whole (hp : p ≠ []) (r : List α) : replaceAll p r p = r := by
  have hrest : replaceAll p r [] = [] := replaceAll_absent hp fun h => hp (List.eq_nil_of_infix_nil h)
  have hprefix := replaceAll_prefix hp r []
  rwa [List.append_nil, hrest, List.append_nil] at hprefix

/-- A pattern without the separator is replaced part by part. -/
theorem replaceAll_stop {x : α} (hp : p ≠ []) (hx : x ∉ p) (r a b : List α) :
    replaceAll p r (a ++ x :: b) = replaceAll p r a ++ x :: replaceAll p r b := by
  induction a using replaceAll_induction hp with
  | absent a ha =>
    have hstop : Avoids p [x] b := ⟨not_prefix_of_stop hp hx, trivial⟩
    have hrest : replaceAll p r (x :: b) = x :: replaceAll p r b := replaceAll_append hstop
    rw [replaceAll_append (avoids_of_stop hx ha), hrest, replaceAll_absent hp ha]
  | occurs a c hac ih =>
    have hextend : Avoids p a (p ++ (c ++ x :: b)) := by
      have hmore := hac.extend (by simp) (x :: b)
      rwa [List.append_assoc] at hmore
    have hsplit : a ++ (p ++ c) ++ x :: b = a ++ (p ++ (c ++ x :: b)) := by simp
    rw [hsplit, replaceAll_occurrence hp hextend, replaceAll_occurrence hp hac, ih]
    simp

theorem mem_replaceAll {x : α} (h : x ∈ replaceAll p r t) : x ∈ t ∨ x ∈ r := by
  by_cases hp : p = []
  · rw [hp, replaceAll_nil] at h
    exact .inl h
  · induction t using replaceAll_induction hp with
    | absent t ht =>
      rw [replaceAll_absent hp ht] at h
      exact .inl h
    | occurs a b hab ih =>
      rw [replaceAll_occurrence hp hab] at h
      simp only [List.mem_append] at h ⊢
      tauto

omit [DecidableEq α] in
/-- No text is moved along by both of two texts that differ at a letter. -/
theorem not_moved {c s t u a b a' b' : List α} {x y : α} (hxy : x ≠ y) (hu : u ≠ [])
    (hp : (c ++ x :: s) ++ a = u ++ ((c ++ x :: s) ++ b)) :
    (c ++ y :: t) ++ a' ≠ u ++ ((c ++ y :: t) ++ b') := by
  intro hr
  have hx := congrArg (·[c.length]?) hp
  have hy := congrArg (·[c.length]?) hr
  have hlength := List.length_pos_of_ne_nil hu
  apply hxy
  simp only [List.append_assoc, List.cons_append, List.getElem?_append_right (Nat.le_refl _), Nat.sub_self,
    List.getElem?_cons_zero] at hx hy
  have hsame : (u ++ (c ++ x :: (s ++ b)))[c.length]? = (u ++ (c ++ y :: (t ++ b')))[c.length]? := by
    rcases Nat.lt_or_ge c.length u.length with hlt | hge
    · rw [List.getElem?_append_left hlt, List.getElem?_append_left hlt]
    · rw [List.getElem?_append_right hge, List.getElem?_append_right hge,
        List.getElem?_append_left (by omega), List.getElem?_append_left (by omega)]
  exact Option.some.inj (hx.trans (hsame.trans hy.symm))

/-- An occurrence is the one that is replaced exactly if none begins before it and none stands behind it. -/
theorem replaceAll_at_iff {c s t : List α} {x y : α} (hxy : x ≠ y) (hp : p = c ++ x :: s) (hr : r = c ++ y :: t) :
    replaceAll p r (a ++ (p ++ b)) = a ++ (r ++ b) ↔ Avoids p a (p ++ b) ∧ ¬ p <:+: b := by
  have hnil : p ≠ [] := by rw [hp]; simp
  have hne : p ≠ r := by
    rw [hp, hr]
    intro heq
    exact hxy (List.cons.inj (List.append_cancel_left heq)).1
  constructor
  · intro h
    rcases occurrence hnil (a ++ (p ++ b)) with hnot | ⟨a', b', hsplit, hfirst⟩
    · exact absurd ⟨a, b, by simp⟩ hnot
    · rw [hsplit, replaceAll_occurrence hnil hfirst] at h
      have hsame : a = a' := by
        rcases List.append_eq_append_iff.mp hsplit with ⟨u, rfl, hu⟩ | ⟨u, rfl, hu⟩
        · -- what begins later is not the first occurrence
          by_contra hne'
          have hlater : u ≠ [] := fun hu' => hne' (by rw [hu', List.append_nil])
          have hinside := (avoids_append.mp hfirst).2
          exact hinside.not_prefix hlater ⟨b, hu⟩
        · by_contra hne'
          have hlater : u ≠ [] := fun hu' => hne' (by rw [hu', List.append_nil])
          rw [List.append_assoc] at h
          have hmoved := List.append_cancel_left h
          rw [hp] at hu
          rw [hr] at hmoved
          exact not_moved hxy hlater hu hmoved
      subst hsame
      obtain rfl := List.append_cancel_left (List.append_cancel_left hsplit)
      have hrest := List.append_cancel_left (List.append_cancel_left h)
      exact ⟨hfirst, ((replaceAll_eq_self_iff hnil).mp hrest).resolve_left hne⟩
  · rintro ⟨hfirst, hrest⟩
    rw [replaceAll_occurrence hnil hfirst, replaceAll_absent hnil hrest]

end Foundation.Search
