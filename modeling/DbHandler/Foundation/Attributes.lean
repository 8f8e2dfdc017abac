import DbHandler.Foundation.Separators

namespace Foundation.Attributes

open Foundation.Separators

variable {α : Type*}

/-- The signs of a text of attributes, `keyword=value;...`, in which a value may stand in braces. -/
structure Signs (α : Type*) where
  separator : α
  assignment : α
  opening : α
  closing : α
  separator_ne_assignment : separator ≠ assignment
  separator_ne_closing : separator ≠ closing

variable [DecidableEq α] (signs : Signs α)

/-- The content of braces and what is behind them; a closing brace in the content is doubled. -/
def readBraced : List α → Option (List α × List α)
  | [] => none
  | [c] => if c = signs.closing then some ([], []) else none
  | c :: c' :: t =>
    if c = signs.closing then
      if c' = signs.closing then (readBraced t).map fun r => (c :: r.1, r.2) else some ([], c' :: t)
    else (readBraced (c' :: t)).map fun r => (c :: r.1, r.2)

def readValue (t : List α) : Option (List α × List α) :=
  if t.head? = some signs.opening then readBraced signs t.tail
  else some (before signs.separator t, t.dropWhile (· ≠ signs.separator))

/-- The attributes of a text, where a separator may be repeated; `none` where it is not made of attributes. -/
def readAttributes : ℕ → List α → Option (List (List α × List α))
  | 0, _ => none
  | _ + 1, [] => some []
  | n + 1, c :: t =>
    if c = signs.separator then readAttributes n t
    else if c = signs.assignment ∨ signs.assignment ∉ before signs.separator (c :: t) then none
    else
      match readValue signs (after signs.assignment (c :: t)) with
      | none => none
      | some (value, rest) =>
        if rest = [] ∨ rest.head? = some signs.separator then
          (readAttributes n rest).map ((before signs.assignment (c :: t), value) :: ·)
        else none

variable {signs} {t key value rest : List α}

theorem readBraced_split (h : readBraced signs t = some (value, rest)) :
    ∃ raw, t = raw ++ rest ∧ value.length + 1 ≤ raw.length ∧ value ⊆ raw ∧ raw ⊆ signs.closing :: value := by
  have grow : ∀ (x : α) (raw v : List α), raw ⊆ signs.closing :: v → x :: raw ⊆ signs.closing :: x :: v := by
    intro x raw v hraw y hy
    rcases List.mem_cons.mp hy with rfl | hy
    · simp
    · have hy' := hraw hy
      simp only [List.mem_cons] at hy' ⊢
      tauto
  induction t using readBraced.induct signs generalizing value rest with
  | case1 => simp [readBraced] at h
  | case2 =>
    rw [readBraced, if_pos rfl] at h
    obtain ⟨rfl, rfl⟩ := Prod.mk.inj (Option.some.inj h)
    exact ⟨[signs.closing], by simp, by simp, by simp, by simp⟩
  | case3 c hc =>
    rw [readBraced, if_neg hc] at h
    exact absurd h (by simp)
  | case4 t ih =>
    rw [readBraced, if_pos rfl, if_pos rfl] at h
    obtain ⟨⟨v, r⟩, hr, heq⟩ := Option.map_eq_some_iff.mp h
    obtain ⟨rfl, rfl⟩ := Prod.mk.inj heq
    obtain ⟨raw, rfl, hlength, hsub, hsub'⟩ := ih hr
    refine ⟨signs.closing :: signs.closing :: raw, by simp, ?_, ?_, ?_⟩
    · simp only [List.length_cons]
      omega
    · exact List.cons_subset_cons _ (List.subset_cons_of_subset _ hsub)
    · intro x hx
      rcases List.mem_cons.mp hx with rfl | hx
      · simp
      · exact grow _ _ _ hsub' hx
  | case5 c' t hc' =>
    rw [readBraced, if_pos rfl, if_neg hc'] at h
    obtain ⟨rfl, rfl⟩ := Prod.mk.inj (Option.some.inj h)
    exact ⟨[signs.closing], by simp, by simp, by simp, by simp⟩
  | case6 c c' t hc ih =>
    rw [readBraced, if_neg hc] at h
    obtain ⟨⟨v, r⟩, hr, heq⟩ := Option.map_eq_some_iff.mp h
    obtain ⟨rfl, rfl⟩ := Prod.mk.inj heq
    obtain ⟨raw, hraw, hlength, hsub, hsub'⟩ := ih hr
    refine ⟨c :: raw, by rw [hraw, List.cons_append], ?_, List.cons_subset_cons _ hsub, grow _ _ _ hsub'⟩
    simp only [List.length_cons]
    omega

theorem readValue_subset (h : readValue signs t = some (value, rest)) : value ⊆ t ∧ rest ⊆ t := by
  unfold readValue at h
  split_ifs at h with hopening
  · obtain ⟨raw, hraw, -, hsub, -⟩ := readBraced_split h
    have htail : t.tail ⊆ t := (List.tail_sublist t).subset
    constructor
    · intro x hx
      apply htail
      rw [hraw]
      exact List.mem_append_left _ (hsub hx)
    · intro x hx
      apply htail
      rw [hraw]
      exact List.mem_append_right _ hx
  · obtain ⟨rfl, rfl⟩ := Prod.mk.inj (Option.some.inj h)
    exact ⟨(List.takeWhile_sublist _).subset, (List.dropWhile_sublist _).subset⟩

theorem not_opening_of_readValue {r : List α} (hvalue : signs.separator ∉ value)
    (h : readValue signs (value ++ signs.separator :: rest) = some (value, r)) : value.head? ≠ some signs.opening := by
  intro hhead
  obtain ⟨c, v, rfl⟩ : ∃ c v, value = c :: v := by
    cases value with
    | nil => simp at hhead
    | cons c v => exact ⟨c, v, rfl⟩
  rw [readValue, if_pos (by simpa using hhead), List.cons_append, List.tail_cons] at h
  obtain ⟨raw, hraw, hlength, -, hsub⟩ := readBraced_split h
  have hseparator : signs.separator ∉ raw := by
    intro hmem
    rcases List.mem_cons.mp (hsub hmem) with heq | hmem
    · exact signs.separator_ne_closing heq
    · exact hvalue hmem
  have hshort : raw.length ≤ v.length := by
    by_contra hlong
    apply hseparator
    have hpre : v ++ [signs.separator] <+: raw := by
      have hwhole : v ++ [signs.separator] <+: v ++ signs.separator :: rest := ⟨rest, by simp⟩
      apply List.prefix_of_prefix_length_le hwhole
      · exact ⟨r, hraw.symm⟩
      · simp only [List.length_append, List.length_singleton]
        omega
    exact hpre.subset (by simp)
  simp only [List.length_cons] at hlength
  omega

theorem plain_of_readValue {r : List α} (h : readValue signs value = some (value, r)) :
    value.head? ≠ some signs.opening ∧ signs.separator ∉ value := by
  unfold readValue at h
  split_ifs at h with hopening
  · obtain ⟨raw, hraw, hlength, -, -⟩ := readBraced_split h
    have hraw' := congrArg List.length hraw
    simp only [List.length_tail, List.length_append] at hraw'
    omega
  · obtain ⟨hbefore, -⟩ := Prod.mk.inj (Option.some.inj h)
    refine ⟨hopening, ?_⟩
    rw [← hbefore]
    exact not_mem_before _ _

theorem readValue_plain (hvalue : signs.separator ∉ value) (hopening : value.head? ≠ some signs.opening)
    (hrest : rest = [] ∨ rest.head? = some signs.separator) (hclosed : signs.opening ≠ signs.separator) :
    readValue signs (value ++ rest) = some (value, rest) := by
  have hhead : (value ++ rest).head? ≠ some signs.opening := by
    cases value with
    | nil =>
      rcases hrest with rfl | hrest
      · simp
      · rw [List.nil_append, hrest]
        simpa using Ne.symm hclosed
    | cons c v => simpa using hopening
  rw [readValue, if_neg hhead]
  rcases hrest with rfl | hrest
  · rw [List.append_nil, before_of_not_mem hvalue, List.dropWhile_eq_nil_iff.mpr]
    intro x hx
    simp only [decide_eq_true_eq]
    rintro rfl
    exact hvalue hx
  · obtain ⟨t, rfl⟩ : ∃ t, rest = signs.separator :: t := by
      cases rest with
      | nil => simp at hrest
      | cons c t => exact ⟨t, by simpa using hrest⟩
    rw [before_append hvalue, dropWhile_append hvalue]

theorem readAttributes_entry {n : ℕ} (hkey : key ≠ []) (hassignment : signs.assignment ∉ key)
    (hseparator : signs.separator ∉ key) : readAttributes signs (n + 1) (key ++ signs.assignment :: t) =
      match readValue signs t with
      | none => none
      | some (value, rest) =>
        if rest = [] ∨ rest.head? = some signs.separator then
          (readAttributes signs n rest).map ((key, value) :: ·)
        else none := by
  obtain ⟨c, k, rfl⟩ := List.exists_cons_of_ne_nil hkey
  obtain ⟨hc, -⟩ : signs.separator ≠ c ∧ signs.separator ∉ k := by simpa using hseparator
  obtain ⟨hc', -⟩ : signs.assignment ≠ c ∧ signs.assignment ∉ k := by simpa using hassignment
  have hfirst : signs.assignment ∈ before signs.separator (c :: k ++ signs.assignment :: t) := by
    have hall : ∀ x ∈ c :: k ++ [signs.assignment], (decide (x ≠ signs.separator)) = true := by
      intro x hx
      simp only [decide_eq_true_eq]
      rintro rfl
      rcases List.mem_append.mp hx with hx | hx
      · exact hseparator hx
      · exact signs.separator_ne_assignment (List.mem_singleton.mp hx)
    have hsplit : c :: k ++ signs.assignment :: t = (c :: k ++ [signs.assignment]) ++ t := by simp
    rw [before, hsplit, List.takeWhile_append_of_pos hall]
    simp
  have hkeyword := before_append (b := t) hassignment
  have hvalue := after_append (b := t) hassignment
  rw [List.cons_append] at hfirst hkeyword hvalue ⊢
  rw [readAttributes, if_neg (Ne.symm hc), if_neg (by simp [Ne.symm hc', hfirst]), hvalue, hkeyword]

theorem readAttributes_subset {n : ℕ} {attributes : List (List α × List α)}
    (h : readAttributes signs n t = some attributes) : ∀ a ∈ attributes, a.2 ⊆ t := by
  induction n generalizing t attributes with
  | zero => simp [readAttributes] at h
  | succ n ih =>
    cases t with
    | nil =>
      obtain rfl := Option.some.inj h
      simp
    | cons c t =>
      rw [readAttributes] at h
      split_ifs at h with hc hbad
      · intro a ha
        exact List.subset_cons_of_subset _ (ih h a ha)
      · have hafter : after signs.assignment (c :: t) ⊆ c :: t := by
          unfold after
          split_ifs
          · exact ((List.tail_sublist _).trans (List.dropWhile_sublist _)).subset
          · exact fun _ hx => hx
        cases hvalue : readValue signs (after signs.assignment (c :: t)) with
        | none => simp [hvalue] at h
        | some r =>
          obtain ⟨v, r⟩ := r
          obtain ⟨hv, hr⟩ := readValue_subset hvalue
          simp only [hvalue] at h
          split_ifs at h with hend
          obtain ⟨as, has, rfl⟩ := Option.map_eq_some_iff.mp h
          intro a ha
          rcases List.mem_cons.mp ha with rfl | ha
          · exact fun x hx => hafter (hv hx)
          · exact fun x hx => hafter (hr (ih has a ha hx))

end Foundation.Attributes
