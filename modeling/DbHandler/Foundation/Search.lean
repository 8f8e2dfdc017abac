import Mathlib.Data.List.Infix
import Mathlib.Tactic.Common
import DbHandler.Foundation.Separators

namespace Foundation.Search

variable {α : Type*} [DecidableEq α]

def find (p : List α) : List α → Option ℕ
  | [] => if p = [] then some 0 else none
  | c :: t => if p <+: c :: t then some 0 else (find p t).map (· + 1)

/-- Replaces every occurrence from the left; the first argument counts the places an occurrence still covers. -/
def replaceFrom (p r : List α) : ℕ → List α → List α
  | _, [] => []
  | k + 1, _ :: t => replaceFrom p r k t
  | 0, c :: t => if p <+: c :: t then r ++ replaceFrom p r (p.length - 1) t else c :: replaceFrom p r 0 t

def replaceAll (p r t : List α) : List α := if p = [] then t else replaceFrom p r 0 t

/-- No occurrence of `p` begins inside `a` when `rest` follows it. -/
def Avoids (p : List α) : List α → List α → Prop
  | [], _ => True
  | c :: a, rest => ¬ p <+: c :: (a ++ rest) ∧ Avoids p a rest

variable {p q r a b rest : List α}

omit [DecidableEq α] in
@[simp] theorem avoids_nil (p rest : List α) : Avoids p [] rest := trivial

omit [DecidableEq α] in
theorem avoids_append : Avoids p (a ++ b) rest ↔ Avoids p a (b ++ rest) ∧ Avoids p b rest := by
  induction a with
  | nil => simp [Avoids]
  | cons c a ih => simp [Avoids, ih, and_assoc]

omit [DecidableEq α] in
theorem avoids_of_head {h : α} {t : List α} (ha : h ∉ a) : Avoids (h :: t) a rest := by
  induction a with
  | nil => trivial
  | cons c a ih =>
    obtain ⟨hc, ha⟩ : h ≠ c ∧ h ∉ a := by simpa using ha
    exact ⟨by simp [hc], ih ha⟩

omit [DecidableEq α] in
theorem avoids_of_stop {x : α} (hx : x ∉ p) (ha : ¬ p <:+: a) : Avoids p a (x :: rest) := by
  induction a with
  | nil => trivial
  | cons c a ih =>
    refine ⟨fun hpre => ?_, ih fun h => ha (h.trans (List.suffix_cons c a).isInfix)⟩
    by_cases hlength : p.length ≤ (c :: a).length
    · have hp : p <+: c :: a := by
        rw [← List.cons_append] at hpre
        exact List.prefix_of_prefix_length_le hpre (List.prefix_append _ _) hlength
      exact ha hp.isInfix
    · have hmem : (c :: a) ++ [x] <+: p := by
        have hall : (c :: a) ++ [x] <+: c :: (a ++ x :: rest) := ⟨rest, by simp⟩
        refine List.prefix_of_prefix_length_le hall hpre ?_
        simp only [List.length_append, List.length_singleton]
        omega
      exact hx (hmem.subset (by simp))

omit [DecidableEq α] in
theorem Avoids.of_prefix (h : Avoids p a rest) (hpq : p <+: q) : Avoids q a rest := by
  induction a with
  | nil => trivial
  | cons c a ih => exact ⟨fun hq => h.1 (hpq.trans hq), ih h.2⟩

omit [DecidableEq α] in
theorem Avoids.not_prefix (h : Avoids p a rest) (ha : a ≠ []) : ¬ p <+: a ++ rest := by
  cases a with
  | nil => exact absurd rfl ha
  | cons c a => exact h.1

omit [DecidableEq α] in
theorem Avoids.cons {x : α} (h : Avoids p (a ++ [x]) rest) (c : α) : Avoids (c :: p) a (x :: rest) := by
  induction a with
  | nil => trivial
  | cons d a ih =>
    obtain ⟨-, h⟩ := h
    refine ⟨fun hpre => ?_, ih h⟩
    have hp : p <+: a ++ [x] ++ rest := by simpa using (List.cons_prefix_cons.mp hpre).2
    exact h.not_prefix (by simp) hp

omit [DecidableEq α] in
theorem avoids_all (hp : p ≠ []) : Avoids p a [] ↔ ¬ p <:+: a := by
  induction a with
  | nil => simp [Avoids, hp]
  | cons c a ih => simp [Avoids, ih, List.infix_cons_iff]

omit [DecidableEq α] in
theorem Avoids.not_infix (hp : p ≠ []) (h : Avoids p a rest) : ¬ p <:+: a := by
  induction a with
  | nil => simp [hp]
  | cons c a ih =>
    rw [List.infix_cons_iff]
    rintro (hpre | hinfix)
    · apply h.1
      rw [← List.cons_append]
      exact hpre.trans (List.prefix_append _ _)
    · exact ih h.2 hinfix

omit [DecidableEq α] in
theorem avoids_stop_iff {x : α} (hp : p ≠ []) (hx : x ∉ p) : Avoids p a (x :: rest) ↔ ¬ p <:+: a :=
  ⟨fun h => h.not_infix hp, avoids_of_stop hx⟩

omit [DecidableEq α] in
theorem Avoids.extend (h : Avoids p a rest) (hlength : p.length ≤ rest.length) (more : List α) :
    Avoids p a (rest ++ more) := by
  induction a with
  | nil => trivial
  | cons c a ih =>
    refine ⟨fun hpre => h.1 ?_, ih h.2⟩
    have hshort : c :: (a ++ rest) <+: c :: (a ++ (rest ++ more)) := ⟨more, by simp⟩
    apply List.prefix_of_prefix_length_le hpre hshort
    simp only [List.length_cons, List.length_append]
    omega

theorem avoids_of_word {x : α} {w : List α} (hw : x ∉ w) (ha : x ∉ a) (h : ¬ q <+: rest) :
    Avoids (w ++ x :: q) a (x :: rest) := by
  induction a with
  | nil => trivial
  | cons c a ih =>
    refine ⟨?_, ih fun hmem => ha (List.mem_cons_of_mem _ hmem)⟩
    rintro ⟨more, hmore⟩
    apply h
    refine ⟨more, ?_⟩
    have hsplit : w ++ x :: (q ++ more) = (c :: a) ++ x :: rest := by simpa using hmore
    exact (Separators.append_inj_of_not_mem hw ha hsplit).2

/-- The word before the first `x` of an occurrence would end `a`. -/
theorem avoids_of_suffix {x : α} {w : List α} (hw : x ∉ w) (ha : x ∉ a) (h : ¬ w <:+ a) :
    Avoids (w ++ x :: q) a (x :: rest) := by
  induction a with
  | nil => trivial
  | cons c a ih =>
    refine ⟨?_, ih (fun hmem => ha (List.mem_cons_of_mem _ hmem)) fun hs => h (hs.trans (List.suffix_cons c a))⟩
    rintro ⟨more, hmore⟩
    have hsplit : w ++ x :: (q ++ more) = (c :: a) ++ x :: rest := by simpa using hmore
    obtain rfl := (Separators.append_inj_of_not_mem hw ha hsplit).1
    exact h List.suffix_rfl

theorem find_at_start (h : p <+: a) : find p a = some 0 := by
  cases a with
  | nil => simp [find, List.prefix_nil.mp h]
  | cons c a => simp [find, h]

theorem find_append (h : Avoids p a rest) : find p (a ++ rest) = (find p rest).map (· + a.length) := by
  induction a with
  | nil => simp
  | cons c a ih =>
    rw [List.cons_append, find, if_neg h.1, ih h.2, Option.map_map]
    congr 1

theorem find_at (h : Avoids p a rest) (hp : p <+: rest) : find p (a ++ rest) = some a.length := by
  simp [find_append h, find_at_start hp]

theorem avoids_of_find (h : find p (a ++ rest) = some a.length) : Avoids p a rest := by
  induction a with
  | nil => trivial
  | cons c a ih =>
    rw [List.cons_append, find] at h
    split_ifs at h with hpre
    · simp at h
    · exact ⟨hpre, ih (by simpa using h)⟩

theorem find_none (hp : p ≠ []) (h : Avoids p a []) : find p a = none := by
  have hfind := find_append h
  rwa [List.append_nil, show find p [] = none by simp [find, hp]] at hfind

theorem replaceFrom_skip (a t : List α) : replaceFrom p r a.length (a ++ t) = replaceFrom p r 0 t := by
  induction a with
  | nil => rfl
  | cons c a ih => exact ih

theorem replaceAll_append (h : Avoids p a rest) : replaceAll p r (a ++ rest) = a ++ replaceAll p r rest := by
  by_cases hp : p = []
  · simp [replaceAll, hp]
  · simp only [replaceAll, hp, if_false]
    induction a with
    | nil => rfl
    | cons c a ih => rw [List.cons_append, replaceFrom, if_neg h.1, ih h.2, List.cons_append]

theorem replaceAll_prefix (hp : p ≠ []) (r rest : List α) : replaceAll p r (p ++ rest) = r ++ replaceAll p r rest := by
  obtain ⟨c, t, rfl⟩ := List.exists_cons_of_ne_nil hp
  simp only [replaceAll, hp, if_false, List.cons_append, replaceFrom]
  have hpre : c :: t <+: c :: (t ++ rest) := ⟨rest, rfl⟩
  rw [if_pos hpre]
  simp [replaceFrom_skip]

theorem replaceAll_none (h : Avoids p a []) : replaceAll p r a = a := by
  have hreplace := replaceAll_append (r := r) h
  have hnil : replaceAll p r [] = [] := by by_cases hp : p = [] <;> simp [replaceAll, replaceFrom, hp]
  rwa [hnil, List.append_nil] at hreplace

theorem find_eq_none_iff (hp : p ≠ []) : find p a = none ↔ ¬ p <:+: a := by
  induction a with
  | nil => simp [find, hp]
  | cons c a ih =>
    rw [find, List.infix_cons_iff]
    split_ifs with hpre
    · simp [hpre]
    · simp [hpre, ih]

theorem find_isSome_iff : (find p a).isSome ↔ p <:+: a := by
  by_cases hp : p = []
  · obtain rfl := hp
    cases a <;> simp [find, List.nil_infix]
  · rw [Option.isSome_iff_ne_none, ne_eq, find_eq_none_iff hp, not_not]

theorem find_split {n : ℕ} (h : find p a = some n) : Avoids p (a.take n) (a.drop n) ∧ p <+: a.drop n := by
  induction a generalizing n with
  | nil =>
    rw [find] at h
    split_ifs at h with hp
    · exact ⟨by simp, by simp [hp]⟩
  | cons c a ih =>
    rw [find] at h
    split_ifs at h with hpre
    · obtain rfl := Option.some.inj h
      exact ⟨trivial, hpre⟩
    · obtain ⟨m, hm, rfl⟩ := Option.map_eq_some_iff.mp h
      obtain ⟨havoids, hpre'⟩ := ih hm
      refine ⟨⟨?_, havoids⟩, hpre'⟩
      rwa [List.drop_succ_cons, List.take_append_drop]

theorem replaceAll_once (hp : p ≠ []) (ha : Avoids p a (p ++ b)) (hb : Avoids p b []) (r : List α) :
    replaceAll p r (a ++ (p ++ b)) = a ++ (r ++ b) := by
  rw [replaceAll_append ha, replaceAll_prefix hp, replaceAll_none hb]

theorem find_le {n : ℕ} (h : find p a = some n) : n + p.length ≤ a.length := by
  by_cases hp : p = []
  · rw [hp, find_at_start List.nil_prefix] at h
    cases h
    simp [hp]
  · have hlength := (find_split h).2.length_le
    have hpos := List.length_pos_of_ne_nil hp
    rw [List.length_drop] at hlength
    omega

theorem find_append_prefix (h : p <+: rest) : ∃ n ≤ a.length, find p (a ++ rest) = some n := by
  induction a with
  | nil => exact ⟨0, Nat.le_refl 0, find_at_start h⟩
  | cons c a ih =>
    obtain ⟨n, hn, hfind⟩ := ih
    rw [List.cons_append, find]
    split_ifs
    · exact ⟨0, Nat.zero_le _, rfl⟩
    · exact ⟨n + 1, Nat.succ_le_succ hn, by rw [hfind]; rfl⟩

theorem find_append_left {n : ℕ} (h : find p a = some n) (b : List α) : find p (a ++ b) = some n := by
  obtain ⟨havoids, hpre⟩ := find_split h
  have hlength : n ≤ a.length := by
    have hle := find_le h
    omega
  have hsplit : a ++ b = a.take n ++ (a.drop n ++ b) := by rw [← List.append_assoc, List.take_append_drop]
  rw [hsplit, find_at (havoids.extend hpre.length_le b) (hpre.trans (List.prefix_append _ _)),
    List.length_take_of_le hlength]

/-- An occurrence that `a` does not have goes beyond `a`. -/
theorem find_beyond {n : ℕ} (hp : p ≠ []) (ha : find p a = none) (h : find p (a ++ b) = some n) :
    a.length < n + p.length := by
  by_contra hle
  have hn : n ≤ a.length := by omega
  have hpre := (find_split h).2
  rw [List.drop_append_of_le_length hn] at hpre
  have hinside : p <+: a.drop n := by
    apply List.prefix_of_prefix_length_le hpre (List.prefix_append _ _)
    rw [List.length_drop]
    omega
  exact (find_eq_none_iff hp).mp ha (hinside.isInfix.trans (List.drop_suffix n a).isInfix)

omit [DecidableEq α] in
theorem not_prefix_of_stop {x : α} (hp : p ≠ []) (hx : x ∉ p) : ¬ p <+: x :: rest := by
  obtain ⟨c, t, rfl⟩ := List.exists_cons_of_ne_nil hp
  intro hpre
  rw [List.cons_prefix_cons] at hpre
  exact hx (hpre.1 ▸ List.mem_cons_self)

theorem find_stop {x : α} (hp : p ≠ []) (hx : x ∉ p) (ha : ¬ p <:+: a) (rest : List α) :
    find p (a ++ x :: rest) = (find p rest).map (· + (a.length + 1)) := by
  have havoids : Avoids p (a ++ [x]) rest :=
    avoids_append.mpr ⟨avoids_of_stop hx ha, not_prefix_of_stop hp hx, trivial⟩
  have hfind := find_append havoids
  rw [List.append_assoc, List.length_append] at hfind
  exact hfind

theorem infix_stop {x : α} (hp : p ≠ []) (hx : x ∉ p) (ha : ¬ p <:+: a) (hb : ¬ p <:+: b) : ¬ p <:+: a ++ x :: b := by
  rw [← find_eq_none_iff hp] at hb ⊢
  rw [find_stop hp hx ha, hb]
  rfl

theorem find_append_stop {x : α} (hp : p ≠ []) (hx : x ∉ p) : find p (a ++ [x]) = find p a := by
  cases h : find p a with
  | some n => exact find_append_left h [x]
  | none =>
    rw [find_stop hp hx ((find_eq_none_iff hp).mp h)]
    simp [find, hp]

end Foundation.Search
