import Mathlib.Data.List.Perm.Basic
import Mathlib.Data.List.Nodup

namespace Foundation

/-- Ordered trees side by side: the first tree has `below` under its root, `next` are the trees after it. -/
inductive Forest (α : Type*)
  | nil
  | node (a : α) (below next : Forest α)
  deriving DecidableEq, Repr

namespace Forest

variable {α β : Type*}

section Listings

/-- The nodes, each before the ones under it. -/
def items : Forest α → List α
  | nil => []
  | node a below next => a :: (below.items ++ next.items)

def roots : Forest α → List α
  | nil => []
  | node a _ next => a :: next.roots

/-- The nodes under the roots, listed by `levels` tree after tree. -/
def deeper : Forest α → List α
  | nil => []
  | node _ below next => (below.roots ++ below.deeper) ++ next.deeper

/-- The roots first, then the same for the trees under each of them. -/
def levels (f : Forest α) : List α := f.roots ++ f.deeper

/-- Each root is followed by the levels under it. -/
def branches : Forest α → List α
  | nil => []
  | node a below next => (a :: below.levels) ++ next.branches

def append : Forest α → Forest α → Forest α
  | nil, g => g
  | node a below next, g => node a below (next.append g)

def single (a : α) (below : Forest α) : Forest α := node a below nil

def map (f : α → β) : Forest α → Forest β
  | nil => nil
  | node a below next => node (f a) (below.map f) (next.map f)

@[simp] theorem items_nil : (nil : Forest α).items = [] := rfl

@[simp] theorem items_node (a : α) (below next : Forest α) :
    (node a below next).items = a :: (below.items ++ next.items) := rfl

@[simp] theorem roots_nil : (nil : Forest α).roots = [] := rfl

@[simp] theorem roots_node (a : α) (below next : Forest α) : (node a below next).roots = a :: next.roots := rfl

theorem levels_node (a : α) (below next : Forest α) :
    (node a below next).levels = a :: (next.roots ++ (below.levels ++ next.deeper)) := rfl

@[simp] theorem items_append (f g : Forest α) : (f.append g).items = f.items ++ g.items := by
  induction f with
  | nil => rfl
  | node a below next _ ih => simp [append, ih]

@[simp] theorem roots_append (f g : Forest α) : (f.append g).roots = f.roots ++ g.roots := by
  induction f with
  | nil => rfl
  | node a below next _ ih => simp [append, ih]

theorem items_single (a : α) (below : Forest α) : (single a below).items = a :: below.items := by
  simp [single]

theorem levels_perm (f : Forest α) : f.levels.Perm f.items := by
  induction f with
  | nil => exact List.Perm.refl _
  | node a below next ihb ihn =>
    rw [levels_node, items_node]
    apply List.Perm.cons
    calc next.roots ++ (below.levels ++ next.deeper)
        |>.Perm (below.levels ++ (next.roots ++ next.deeper)) := List.perm_append_comm_assoc _ _ _
      _ |>.Perm (below.items ++ next.items) := ihb.append ihn

theorem branches_perm (f : Forest α) : f.branches.Perm f.items := by
  induction f with
  | nil => exact List.Perm.refl _
  | node a below next _ ih => exact (below.levels_perm.append ih).cons a

theorem mem_levels {f : Forest α} {a : α} : a ∈ f.levels ↔ a ∈ f.items := f.levels_perm.mem_iff

theorem roots_sublist (f : Forest α) : f.roots.Sublist f.items := by
  induction f with
  | nil => exact List.Sublist.refl _
  | node a below next _ ih => exact List.Sublist.cons_cons a (ih.trans (List.sublist_append_right _ _))

theorem roots_subset {f : Forest α} {a : α} (h : a ∈ f.roots) : a ∈ f.items := f.roots_sublist.subset h

@[simp] theorem items_map (g : α → β) (f : Forest α) : (f.map g).items = f.items.map g := by
  induction f with
  | nil => rfl
  | node a below next ihb ihn => simp [map, ihb, ihn]

@[simp] theorem roots_map (g : α → β) (f : Forest α) : (f.map g).roots = f.roots.map g := by
  induction f with
  | nil => rfl
  | node a below next _ ih => simp [map, ih]

theorem deeper_map (g : α → β) (f : Forest α) : (f.map g).deeper = f.deeper.map g := by
  induction f with
  | nil => rfl
  | node a below next ihb ihn => simp [map, deeper, ihb, ihn]

@[simp] theorem levels_map (g : α → β) (f : Forest α) : (f.map g).levels = f.levels.map g := by
  simp [levels, deeper_map]

theorem map_map {γ : Type*} (g : β → γ) (h : α → β) (f : Forest α) : (f.map h).map g = f.map fun a => g (h a) := by
  induction f with
  | nil => rfl
  | node a below next ihb ihn => simp [map, ihb, ihn]

theorem map_id (f : Forest α) : (f.map fun a => a) = f := by
  induction f with
  | nil => rfl
  | node a below next ihb ihn => rw [map, ihb, ihn]

theorem map_append (g : α → β) (f h : Forest α) : (f.append h).map g = (f.map g).append (h.map g) := by
  induction f with
  | nil => rfl
  | node a below next _ ih => rw [append, map, map, append, ih]

theorem map_congr {g h : α → β} {f : Forest α} (heq : ∀ a ∈ f.items, g a = h a) : f.map g = f.map h := by
  induction f with
  | nil => rfl
  | node a below next ihb ihn =>
    simp only [items_node, List.mem_cons, List.mem_append] at heq
    simp only [map, heq a (.inl rfl), ihb fun b hb => heq b (.inr (.inl hb)), ihn fun b hb => heq b (.inr (.inr hb))]

end Listings

section Pruning

/-- The trees whose roots meet `p` are cut off, at every level. -/
def prune (p : α → Bool) : Forest α → Forest α
  | nil => nil
  | node a below next => if p a then next.prune p else node a (below.prune p) (next.prune p)

/-- What `prune` cuts off. -/
def cut (p : α → Bool) : Forest α → List α
  | nil => []
  | node a below next => if p a then a :: (below.items ++ next.cut p) else below.cut p ++ next.cut p

/-- The first node that meets `p`, with the trees under it. -/
def find (p : α → Bool) : Forest α → Option (α × Forest α)
  | nil => none
  | node a below next => if p a then some (a, below) else (below.find p).or (next.find p)

variable {p q : α → Bool}

theorem perm_cut (p : α → Bool) (f : Forest α) : f.items.Perm (f.cut p ++ (f.prune p).items) := by
  induction f with
  | nil => exact List.Perm.refl _
  | node a below next ihb ihn =>
    rw [cut, prune, items_node]
    split
    · rw [List.cons_append, List.append_assoc]
      exact (List.Perm.append_left _ ihn).cons a
    · rw [items_node]
      refine List.Perm.trans ?_ List.perm_middle.symm
      apply List.Perm.cons
      calc below.items ++ next.items
          |>.Perm ((below.cut p ++ (below.prune p).items) ++ (next.cut p ++ (next.prune p).items)) := ihb.append ihn
        _ |>.Perm ((below.cut p ++ next.cut p) ++ ((below.prune p).items ++ (next.prune p).items)) := by
          rw [List.append_assoc, List.append_assoc]
          exact List.Perm.append_left _ (List.perm_append_comm_assoc _ _ _)

theorem items_prune_sublist (p : α → Bool) (f : Forest α) : (f.prune p).items.Sublist f.items := by
  induction f with
  | nil => exact List.Sublist.refl _
  | node a below next ihb ihn =>
    rw [prune]
    split
    · exact (ihn.trans (List.sublist_append_right _ _)).cons a
    · exact (ihb.append ihn).cons_cons a

theorem roots_prune (p : α → Bool) (f : Forest α) : (f.prune p).roots = f.roots.filter (!p ·) := by
  induction f with
  | nil => rfl
  | node a below next _ ih =>
    rw [prune]
    split <;> simp_all

theorem mem_prune {f : Forest α} {a : α} (h : a ∈ (f.prune p).items) : p a = false := by
  induction f with
  | nil => simp [prune] at h
  | node b below next ihb ihn =>
    rw [prune] at h
    split at h
    · exact ihn h
    · simp only [items_node, List.mem_cons, List.mem_append] at h
      rcases h with rfl | h | h
      · simpa using ‹¬ p a = true›
      · exact ihb h
      · exact ihn h

theorem mem_cut_of_meets {f : Forest α} {a : α} (ha : a ∈ f.items) (hp : p a = true) : a ∈ f.cut p := by
  rcases List.mem_append.mp ((perm_cut p f).mem_iff.mp ha) with h | h
  · exact h
  · exact absurd (mem_prune h) (by simp [hp])

theorem prune_eq_self {f : Forest α} (h : ∀ a ∈ f.items, p a = false) : f.prune p = f := by
  induction f with
  | nil => rfl
  | node a below next ihb ihn =>
    simp only [items_node, List.mem_cons, List.mem_append] at h
    rw [prune, if_neg (by simp [h a (.inl rfl)]), ihb fun b hb => h b (.inr (.inl hb)),
      ihn fun b hb => h b (.inr (.inr hb))]

theorem cut_eq_nil {f : Forest α} (h : ∀ a ∈ f.items, p a = false) : f.cut p = [] := by
  induction f with
  | nil => rfl
  | node a below next ihb ihn =>
    simp only [items_node, List.mem_cons, List.mem_append] at h
    rw [cut, if_neg (by simp [h a (.inl rfl)]), ihb fun b hb => h b (.inr (.inl hb)),
      ihn fun b hb => h b (.inr (.inr hb)), List.append_nil]

theorem prune_prune (p q : α → Bool) (f : Forest α) : (f.prune p).prune q = f.prune fun a => p a || q a := by
  induction f with
  | nil => rfl
  | node a below next ihb ihn =>
    cases hp : p a <;> cases hq : q a <;> simp [prune, hp, hq, ihb, ihn]

theorem prune_congr {f : Forest α} (h : ∀ a ∈ f.items, p a = q a) : f.prune p = f.prune q := by
  induction f with
  | nil => rfl
  | node a below next ihb ihn =>
    simp only [items_node, List.mem_cons, List.mem_append] at h
    rw [prune, prune, h a (.inl rfl), ihb fun b hb => h b (.inr (.inl hb)), ihn fun b hb => h b (.inr (.inr hb))]

theorem map_prune (g : α → β) (p : β → Bool) (f : Forest α) :
    (f.map g).prune p = (f.prune fun a => p (g a)).map g := by
  induction f with
  | nil => rfl
  | node a below next ihb ihn =>
    cases hp : p (g a) <;> simp [map, prune, hp, ihb, ihn]

theorem prune_append (p : α → Bool) (f g : Forest α) : (f.append g).prune p = (f.prune p).append (g.prune p) := by
  induction f with
  | nil => rfl
  | node a below next _ ih =>
    cases hp : p a <;> simp [append, prune, hp, ih]

theorem find_eq_none {f : Forest α} : f.find p = none ↔ ∀ a ∈ f.items, p a = false := by
  induction f with
  | nil => simp [find]
  | node a below next ihb ihn =>
    rw [find]
    split
    · rename_i hp
      simp only [reduceCtorEq, false_iff, not_forall]
      exact ⟨a, by simp, by simp [hp]⟩
    · rename_i hp
      rw [Option.or_eq_none_iff, ihb, ihn]
      simp only [items_node, List.mem_cons, List.mem_append]
      constructor
      · rintro ⟨hb, hn⟩ b (rfl | h | h)
        · simpa using hp
        · exact hb b h
        · exact hn b h
      · intro h
        exact ⟨fun b hb => h b (.inr (.inl hb)), fun b hb => h b (.inr (.inr hb))⟩

theorem find_meets {f g : Forest α} {a : α} (h : f.find p = some (a, g)) : p a = true := by
  induction f with
  | nil => simp [find] at h
  | node b below next ihb ihn =>
    rw [find] at h
    split at h
    · obtain ⟨rfl, rfl⟩ : b = a ∧ below = g := by simpa using h
      assumption
    · rcases Option.or_eq_some_iff.mp h with h | ⟨-, h⟩
      · exact ihb h
      · exact ihn h

theorem find_sublist {f g : Forest α} {a : α} (h : f.find p = some (a, g)) : (a :: g.items).Sublist f.items := by
  induction f with
  | nil => simp [find] at h
  | node b below next ihb ihn =>
    rw [find] at h
    split at h
    · obtain ⟨rfl, rfl⟩ : b = a ∧ below = g := by simpa using h
      exact (List.sublist_append_left _ _).cons_cons b
    · apply List.Sublist.cons
      rcases Option.or_eq_some_iff.mp h with h | ⟨-, h⟩
      · exact (ihb h).trans (List.sublist_append_left _ _)
      · exact (ihn h).trans (List.sublist_append_right _ _)

/-- `p` singles out at most one node. -/
def Single (p : α → Bool) (f : Forest α) : Prop := f.items.countP p ≤ 1

theorem none_meets {l : List α} (h : l.countP p ≤ 0) : ∀ a ∈ l, p a = false := by
  intro a ha
  have hzero := List.countP_eq_zero.mp (Nat.le_zero.mp h) a ha
  simpa using hzero

/-- Cutting off a node that is singled out takes exactly the tree that `find` gives. -/
theorem cut_of_find {f g : Forest α} {a : α} (hsingle : Single p f) (h : f.find p = some (a, g)) :
    f.cut p = a :: g.items := by
  induction f with
  | nil => simp [find] at h
  | node b below next ihb ihn =>
    rw [Single, items_node, List.countP_cons, List.countP_append] at hsingle
    rw [find] at h
    split at h
    · rename_i hp
      obtain ⟨rfl, rfl⟩ : b = a ∧ below = g := by simpa using h
      rw [if_pos hp] at hsingle
      rw [cut, if_pos hp, cut_eq_nil (none_meets (by omega)), List.append_nil]
    · rename_i hp
      rw [if_neg hp] at hsingle
      rw [cut, if_neg hp]
      rcases Option.or_eq_some_iff.mp h with hb | ⟨hb, hn⟩
      · have hmeets : 0 < below.items.countP p :=
          List.countP_pos_iff.mpr ⟨a, (find_sublist hb).subset (by simp), find_meets hb⟩
        rw [ihb (by rw [Single]; omega) hb, cut_eq_nil (f := next) (none_meets (by omega)), List.append_nil]
      · rw [cut_eq_nil (find_eq_none.mp hb), List.nil_append]
        exact ihn (by rw [Single]; omega) hn

/-- The levels list a node before all that are under it. -/
theorem pair_sublist_levels {f g : Forest α} {a c : α} (h : f.find p = some (a, g)) (hc : c ∈ g.items) :
    [a, c].Sublist f.levels := by
  induction f with
  | nil => simp [find] at h
  | node b below next ihb ihn =>
    rw [find] at h
    rw [levels_node]
    split at h
    · obtain ⟨rfl, rfl⟩ : b = a ∧ below = g := by simpa using h
      apply List.Sublist.cons_cons
      apply List.singleton_sublist.mpr
      exact List.mem_append_right _ (List.mem_append_left _ (mem_levels.mpr hc))
    · apply List.Sublist.cons
      rcases Option.or_eq_some_iff.mp h with h | ⟨-, h⟩
      · exact ((ihb h).trans (List.sublist_append_left _ _)).trans (List.sublist_append_right _ _)
      · exact (ihn h).trans ((List.Sublist.refl _).append (List.sublist_append_right _ _))

theorem cut_roots {f : Forest α} (h : ∀ a ∈ f.roots, p a = true) : f.cut p = f.items := by
  induction f with
  | nil => rfl
  | node a below next _ ih =>
    simp only [roots_node, List.mem_cons, forall_eq_or_imp] at h
    rw [cut, if_pos h.1, ih h.2, items_node]

theorem length_roots_le {f : Forest α} (h : ∀ a ∈ f.roots, p a = true) : f.roots.length ≤ f.items.countP p := by
  rw [← List.countP_eq_length.mpr h]
  exact f.roots_sublist.countP_le

/-- Cutting off the children of the node that is found, and no others, takes all the trees under it. -/
theorem cut_under {f g : Forest α} {a : α} (h : f.find q = some (a, g)) (hroots : ∀ b ∈ g.roots, p b = true)
    (hcount : f.items.countP p ≤ g.roots.length) : f.cut p = g.items := by
  induction f with
  | nil => simp [find] at h
  | node b below next ihb ihn =>
    rw [items_node, List.countP_cons, List.countP_append] at hcount
    have hless := length_roots_le hroots
    have hb : p b = false := by
      by_contra hp
      rw [Bool.not_eq_false] at hp
      rw [if_pos hp] at hcount
      rw [find] at h
      split at h
      · obtain ⟨rfl, rfl⟩ : b = a ∧ below = g := by simpa using h
        omega
      · rcases Option.or_eq_some_iff.mp h with h | ⟨-, h⟩
        · have hle := (find_sublist h).countP_le (p := p)
          rw [List.countP_cons] at hle
          omega
        · have hle := (find_sublist h).countP_le (p := p)
          rw [List.countP_cons] at hle
          omega
    rw [hb, if_neg (by simp)] at hcount
    rw [cut, hb, if_neg (by simp)]
    rw [find] at h
    split at h
    · obtain ⟨rfl, rfl⟩ : b = a ∧ below = g := by simpa using h
      rw [cut_roots hroots, cut_eq_nil (none_meets (by omega)), List.append_nil]
    · rcases Option.or_eq_some_iff.mp h with h | ⟨-, h⟩
      · have hle := (find_sublist h).countP_le (p := p)
        rw [List.countP_cons] at hle
        rw [ihb h (by omega), cut_eq_nil (f := next) (none_meets (by omega)), List.append_nil]
      · have hle := (find_sublist h).countP_le (p := p)
        rw [List.countP_cons] at hle
        rw [ihn h (by omega), cut_eq_nil (f := below) (none_meets (by omega)), List.nil_append]

/-- A node that is not cut off is found again, with what is left under it. -/
theorem find_prune {f g : Forest α} {a : α} (h : f.find q = some (a, g)) (hp : ∀ b ∈ f.cut p, q b = false) :
    (f.prune p).find q = some (a, g.prune p) := by
  induction f with
  | nil => simp [find] at h
  | node b below next ihb ihn =>
    rw [find] at h
    rw [cut] at hp
    rw [prune]
    split at hp
    · rename_i hcut
      rw [if_pos hcut]
      simp only [List.mem_cons, List.mem_append] at hp
      rw [if_neg (by simp [hp b (.inl rfl)]), find_eq_none.mpr fun c hc => hp c (.inr (.inl hc)), Option.none_or] at h
      exact ihn h fun c hc => hp c (.inr (.inr hc))
    · rename_i hcut
      rw [if_neg hcut, find]
      simp only [List.mem_append] at hp
      split at h
      · rename_i hq
        obtain ⟨rfl, rfl⟩ : b = a ∧ below = g := by simpa using h
        rw [if_pos hq]
      · rename_i hq
        rw [if_neg hq]
        rcases Option.or_eq_some_iff.mp h with h | ⟨hnone, h⟩
        · rw [ihb h fun c hc => hp c (.inl hc), Option.some_or]
        · have hbelow : (below.prune p).find q = none :=
            find_eq_none.mpr fun c hc => find_eq_none.mp hnone c ((items_prune_sublist p below).subset hc)
          rw [hbelow, Option.none_or, ihn h fun c hc => hp c (.inr hc)]

theorem cut_subset (p : α → Bool) (f : Forest α) : f.cut p ⊆ f.items :=
  fun _ ha => (perm_cut p f).mem_iff.mpr (List.mem_append_left _ ha)

theorem cut_mono {f : Forest α} (h : ∀ a ∈ f.items, p a = true → q a = true) : f.cut p ⊆ f.cut q := by
  induction f with
  | nil => exact List.Subset.refl _
  | node a below next ihb ihn =>
    simp only [items_node, List.mem_cons, List.mem_append] at h
    have hbelow := cut_subset p below
    have hb := ihb fun b hb => h b (.inr (.inl hb))
    have hn := ihn fun b hb => h b (.inr (.inr hb))
    intro c hc
    rw [cut] at hc ⊢
    split at hc
    · rename_i hp
      rw [if_pos (h a (.inl rfl) hp)]
      simp only [List.mem_cons, List.mem_append] at hc ⊢
      exact hc.imp_right (Or.imp_right fun hc => hn hc)
    · split
      · simp only [List.mem_cons, List.mem_append] at hc ⊢
        exact .inr (hc.imp (fun hc => hbelow hc) fun hc => hn hc)
      · exact List.mem_append.mpr ((List.mem_append.mp hc).imp (fun hc => hb hc) fun hc => hn hc)

/-- Where cutting leaves no node that `q` singles out, it takes the whole tree of that node. -/
theorem tree_subset_cut {f g : Forest α} {a : α} (h : f.find q = some (a, g)) (hsingle : Single q f)
    (hgone : ∀ b ∈ (f.prune p).items, q b = false) : a :: g.items ⊆ f.cut p := by
  have hsame : f.prune (fun b => p b || q b) = f.prune p := by
    rw [← prune_prune]
    exact prune_eq_self hgone
  have hperm : (f.cut fun b => p b || q b).Perm (f.cut p) := by
    have hboth := (perm_cut (fun b => p b || q b) f).symm.trans (perm_cut p f)
    rw [hsame] at hboth
    exact (List.perm_append_right_iff _).mp hboth
  rw [← cut_of_find hsingle h]
  intro c hc
  apply hperm.subset
  exact cut_mono (fun b _ hq => by simp [hq]) hc

theorem cut_prune_subset (p q : α → Bool) (f : Forest α) : (f.prune q).cut p ⊆ f.cut p := by
  induction f with
  | nil => exact List.Subset.refl _
  | node a below next ihb ihn =>
    have hbelow := (items_prune_sublist q below).subset
    intro c hc
    rw [prune] at hc
    rw [cut]
    split at hc
    · split
      · exact List.mem_cons_of_mem _ (List.mem_append_right _ (ihn hc))
      · exact List.mem_append_right _ (ihn hc)
    · rw [cut] at hc
      split at hc
      · rename_i hp
        rw [if_pos hp]
        simp only [List.mem_cons, List.mem_append] at hc ⊢
        exact hc.imp_right (Or.imp (fun hc => hbelow hc) fun hc => ihn hc)
      · rename_i hp
        rw [if_neg hp]
        exact List.mem_append.mpr ((List.mem_append.mp hc).imp (fun hc => ihb hc) fun hc => ihn hc)

end Pruning

section Insertion

/-- The trees of the second forest become the last ones under the nodes of the first that meet `p`. -/
def hang (p : α → Bool) : Forest α → Forest α → Forest α
  | nil, _ => nil
  | node a below next, g =>
    if p a then node a (below.append g) (next.hang p g) else node a (below.hang p g) (next.hang p g)

variable {p : α → Bool}

theorem hang_eq_self {f g : Forest α} (h : ∀ a ∈ f.items, p a = false) : f.hang p g = f := by
  induction f with
  | nil => rfl
  | node a below next ihb ihn =>
    simp only [items_node, List.mem_cons, List.mem_append] at h
    rw [hang, if_neg (by simp [h a (.inl rfl)]), ihb fun b hb => h b (.inr (.inl hb)),
      ihn fun b hb => h b (.inr (.inr hb))]

theorem roots_hang (p : α → Bool) (f g : Forest α) : (f.hang p g).roots = f.roots := by
  induction f with
  | nil => rfl
  | node a below next _ ih =>
    rw [hang]
    split <;> simp [ih]

/-- What is left beside trees that `q` cuts off is still there when more trees are hung in. -/
theorem prune_hang_subset (p q : α → Bool) (f g : Forest α) : (f.prune q).items ⊆ ((f.hang p g).prune q).items := by
  induction f with
  | nil => exact List.nil_subset _
  | node a below next ihb ihn =>
    intro c hc
    rw [hang]
    rw [prune] at hc
    split at hc
    · rename_i hq
      split
      · rw [prune, if_pos hq]
        exact ihn hc
      · rw [prune, if_pos hq]
        exact ihn hc
    · rename_i hq
      simp only [items_node, List.mem_cons, List.mem_append] at hc
      split
      · rw [prune, if_neg hq, prune_append]
        simp only [items_node, items_append, List.mem_cons, List.mem_append]
        exact hc.imp_right (Or.imp .inl fun hc => ihn hc)
      · rw [prune, if_neg hq]
        simp only [items_node, List.mem_cons, List.mem_append]
        exact hc.imp_right (Or.imp (fun hc => ihb hc) fun hc => ihn hc)

theorem items_hang {f g : Forest α} (h : f.items.countP p = 1) : (f.hang p g).items.Perm (f.items ++ g.items) := by
  induction f with
  | nil => simp at h
  | node a below next ihb ihn =>
    rw [items_node, List.countP_cons, List.countP_append] at h
    rw [hang, items_node]
    split
    · rename_i hp
      rw [if_pos hp] at h
      rw [hang_eq_self (f := next) (none_meets (by omega)), items_node, items_append, List.cons_append]
      apply List.Perm.cons
      rw [List.append_assoc, List.append_assoc]
      exact List.Perm.append_left _ List.perm_append_comm
    · rename_i hp
      rw [if_neg hp] at h
      rw [items_node, List.cons_append]
      apply List.Perm.cons
      by_cases hb : below.items.countP p = 1
      · rw [hang_eq_self (f := next) (none_meets (by omega))]
        calc (below.hang p g).items ++ next.items
            |>.Perm ((below.items ++ g.items) ++ next.items) := (ihb hb).append_right _
          _ |>.Perm ((below.items ++ next.items) ++ g.items) := by
            rw [List.append_assoc, List.append_assoc]
            exact List.Perm.append_left _ List.perm_append_comm
      · rw [hang_eq_self (f := below) (none_meets (by omega)), List.append_assoc]
        exact List.Perm.append_left _ (ihn (by omega))

theorem append_assoc (f g h : Forest α) : (f.append g).append h = f.append (g.append h) := by
  induction f with
  | nil => rfl
  | node a below next _ ih => rw [append, append, append, ih]

@[simp] theorem append_nil (f : Forest α) : f.append nil = f := by
  induction f with
  | nil => rfl
  | node a below next _ ih => rw [append, ih]

theorem hang_append (p : α → Bool) (f g h : Forest α) : (f.append g).hang p h = (f.hang p h).append (g.hang p h) := by
  induction f with
  | nil => rfl
  | node a below next _ ih =>
    rw [append, hang, hang]
    split <;> rw [append, ih]

/-- Trees that are hung under the ones hung in before. -/
theorem hang_hang {q : α → Bool} {f : Forest α} (hq : ∀ a ∈ f.items, q a = false) (g h : Forest α) :
    (f.hang p g).hang q h = f.hang p (g.hang q h) := by
  induction f with
  | nil => rfl
  | node a below next ihb ihn =>
    simp only [items_node, List.mem_cons, List.mem_append] at hq
    have ha : q a = false := hq a (.inl rfl)
    have hnext := ihn fun b hb => hq b (.inr (.inr hb))
    rw [hang, hang]
    split
    · rw [hang, if_neg (by simp [ha]), hang_append, hang_eq_self fun b hb => hq b (.inr (.inl hb)), hnext]
    · rw [hang, if_neg (by simp [ha]), ihb fun b hb => hq b (.inr (.inl hb)), hnext]

theorem hang_nil (p : α → Bool) (f : Forest α) : f.hang p nil = f := by
  induction f with
  | nil => rfl
  | node a below next ihb ihn =>
    rw [hang, append_nil, ihb, ihn]
    split <;> rfl

theorem map_hang {f : Forest α} {u : α → β} {q : β → Bool} (h : ∀ a ∈ f.items, q (u a) = p a) (g : Forest α) :
    (f.hang p g).map u = (f.map u).hang q (g.map u) := by
  induction f with
  | nil => rfl
  | node a below next ihb ihn =>
    simp only [items_node, List.mem_cons, List.mem_append] at h
    have hbelow := ihb fun b hb => h b (.inr (.inl hb))
    have hnext := ihn fun b hb => h b (.inr (.inr hb))
    rw [hang, map, hang, h a (.inl rfl)]
    split
    · rw [map, map_append, hnext]
    · rw [map, hbelow, hnext]

theorem hang_append_hang {f g : Forest α} (hp : ∀ a ∈ g.items, p a = false) (h : Forest α) :
    (f.hang p g).hang p h = f.hang p (g.append h) := by
  induction f with
  | nil => rfl
  | node a below next ihb ihn =>
    rw [hang, hang]
    split
    · rename_i ha
      rw [hang, if_pos ha, append_assoc, ihn]
    · rename_i ha
      rw [hang, if_neg ha, ihb, ihn]

end Insertion

section Threading

variable {σ : Type*} {g : σ → α → β × σ}

/-- A state goes through the nodes, each before the ones under it. -/
def mapAccum (g : σ → α → β × σ) : σ → Forest α → Forest β × σ
  | s, nil => (nil, s)
  | s, node a below next =>
    (node (g s a).1 (mapAccum g (g s a).2 below).1 (mapAccum g (mapAccum g (g s a).2 below).2 next).1,
      (mapAccum g (mapAccum g (g s a).2 below).2 next).2)

def thread (g : σ → α → β × σ) : σ → List α → List β × σ
  | s, [] => ([], s)
  | s, a :: l => ((g s a).1 :: (thread g (g s a).2 l).1, (thread g (g s a).2 l).2)

theorem thread_append (s : σ) (l k : List α) :
    thread g s (l ++ k) = ((thread g s l).1 ++ (thread g (thread g s l).2 k).1, (thread g (thread g s l).2 k).2) := by
  induction l generalizing s with
  | nil => rfl
  | cons a l ih => rw [List.cons_append, thread, thread, ih, List.cons_append]

theorem thread_items (s : σ) (f : Forest α) :
    thread g s f.items = ((mapAccum g s f).1.items, (mapAccum g s f).2) := by
  induction f generalizing s with
  | nil => rfl
  | node a below next ihb ihn => rw [items_node, thread, thread_append, ihb, ihn, mapAccum, items_node]

theorem length_thread (s : σ) (l : List α) : (thread g s l).1.length = l.length := by
  induction l generalizing s with
  | nil => rfl
  | cons a l ih => rw [thread, List.length_cons, List.length_cons, ih]

def skeleton (f : Forest α) : Forest Unit := f.map fun _ => ()

theorem skeleton_map (h : α → β) (f : Forest α) : (f.map h).skeleton = f.skeleton := map_map _ _ _

theorem skeleton_mapAccum (s : σ) (f : Forest α) : (mapAccum g s f).1.skeleton = f.skeleton := by
  induction f generalizing s with
  | nil => rfl
  | node a below next ihb ihn =>
    simp only [skeleton] at ihb ihn ⊢
    rw [mapAccum, map, ihb, ihn]
    rfl

theorem length_items_of_skeleton {f : Forest α} {h : Forest β} (heq : f.skeleton = h.skeleton) :
    f.items.length = h.items.length := by
  have hlength := congrArg (fun u : Forest Unit => u.items.length) heq
  simpa [skeleton] using hlength

/-- Forests of one form with the same nodes are the same. -/
theorem ext_of_skeleton {f h : Forest α} (hform : f.skeleton = h.skeleton) (hitems : f.items = h.items) : f = h := by
  induction f generalizing h with
  | nil =>
    cases h with
    | nil => rfl
    | node b below next => cases hform
  | node a below next ihb ihn =>
    cases h with
    | nil => cases hform
    | node b below' next' =>
      rw [items_node, items_node] at hitems
      obtain ⟨rfl, hrest⟩ := List.cons.inj hitems
      obtain ⟨-, hbelow, hnext⟩ := node.inj hform
      obtain ⟨hb, hn⟩ := List.append_inj hrest (length_items_of_skeleton hbelow)
      rw [ihb hbelow hb, ihn hnext hn]

end Threading

end Forest

end Foundation
