import Mathlib.Order.Lattice
import Mathlib.Data.List.Perm.Basic

namespace Foundation

/-- A finite map kept as its entries in key order, as `std::map` iterates over them. -/
structure OrderedMap (κ ν : Type*) [LinearOrder κ] where
  entries : List (κ × ν)
  sorted : (entries.map Prod.fst).Pairwise (· < ·)

namespace OrderedMap

variable {κ ν : Type*}

def updateFirstEntries (p : ν → Option ν) : List (κ × ν) → List (κ × ν)
  | [] => []
  | (k, v) :: es =>
    match p v with
    | some w => (k, w) :: es
    | none => (k, v) :: updateFirstEntries p es

theorem updateFirstEntries_keys (p : ν → Option ν) (es : List (κ × ν)) :
    (updateFirstEntries p es).map Prod.fst = es.map Prod.fst := by
  induction es with
  | nil => rfl
  | cons e es ih =>
    obtain ⟨k, v⟩ := e
    rw [updateFirstEntries]
    cases p v with
    | some w => rfl
    | none => simp [ih]

variable [LinearOrder κ]

@[ext] theorem ext {m n : OrderedMap κ ν} (h : m.entries = n.entries) : m = n := by
  cases m
  cases n
  simpa using h

def keys (m : OrderedMap κ ν) : List κ := m.entries.map Prod.fst

def values (m : OrderedMap κ ν) : List ν := m.entries.map Prod.snd

def size (m : OrderedMap κ ν) : ℕ := m.entries.length

def lookup (k : κ) (m : OrderedMap κ ν) : Option ν := (m.entries.find? fun e => e.1 = k).map Prod.snd

def ofEntries (es : List (κ × ν)) (h : (es.map Prod.fst).Pairwise (· < ·) := by decide) : OrderedMap κ ν := ⟨es, h⟩

abbrev empty : OrderedMap κ ν := ofEntries [] List.Pairwise.nil

def upsertEntries (k : κ) (f : Option ν → ν) : List (κ × ν) → List (κ × ν)
  | [] => [(k, f none)]
  | (j, v) :: es =>
    if j < k then (j, v) :: upsertEntries k f es
    else if j = k then (j, f (some v)) :: es
    else (k, f none) :: (j, v) :: es

theorem mem_keys_upsertEntries {k j : κ} {f : Option ν → ν} {es : List (κ × ν)}
    (h : j ∈ (upsertEntries k f es).map Prod.fst) : j = k ∨ j ∈ es.map Prod.fst := by
  induction es with
  | nil => simpa [upsertEntries] using h
  | cons e es ih =>
    obtain ⟨i, v⟩ := e
    rw [upsertEntries] at h
    split_ifs at h with hlt heq
    · rw [List.map_cons, List.mem_cons] at h
      rcases h with rfl | h
      · simp
      · rcases ih h with rfl | h
        · exact .inl rfl
        · exact .inr (List.mem_cons_of_mem _ h)
    · exact .inr (by simpa using h)
    · simpa using h

theorem upsertEntries_sorted (k : κ) (f : Option ν → ν) {es : List (κ × ν)}
    (h : (es.map Prod.fst).Pairwise (· < ·)) : ((upsertEntries k f es).map Prod.fst).Pairwise (· < ·) := by
  induction es with
  | nil => simp [upsertEntries]
  | cons e es ih =>
    obtain ⟨i, v⟩ := e
    rw [List.map_cons, List.pairwise_cons] at h
    rw [upsertEntries]
    split_ifs with hlt heq
    · rw [List.map_cons, List.pairwise_cons]
      refine ⟨fun j hj => ?_, ih h.2⟩
      rcases mem_keys_upsertEntries hj with rfl | hj
      · exact hlt
      · exact h.1 j hj
    · rw [List.map_cons, List.pairwise_cons]
      exact h
    · have hki : k < i := lt_of_le_of_ne (not_lt.mp hlt) (Ne.symm heq)
      simp only [List.map_cons, List.pairwise_cons, List.mem_cons]
      refine ⟨fun j hj => ?_, h⟩
      rcases hj with rfl | hj
      · exact hki
      · exact hki.trans (h.1 j hj)

/-- What `m[k] = f(m[k])` leaves, `none` standing for a key that was not there. -/
def upsert (k : κ) (f : Option ν → ν) (m : OrderedMap κ ν) : OrderedMap κ ν :=
  ⟨upsertEntries k f m.entries, upsertEntries_sorted k f m.sorted⟩

theorem upsert_entries_perm {k : κ} {f : Option ν → ν} {m : OrderedMap κ ν} (h : k ∉ m.keys) :
    (m.upsert k f).entries.Perm ((k, f none) :: m.entries) := by
  obtain ⟨es, hs⟩ := m
  change k ∉ es.map Prod.fst at h
  change (upsertEntries k f es).Perm ((k, f none) :: es)
  clear hs
  induction es with
  | nil => simp [upsertEntries]
  | cons e es ih =>
    obtain ⟨i, v⟩ := e
    rw [List.map_cons, List.mem_cons, not_or] at h
    rw [upsertEntries, if_neg (Ne.symm h.1)]
    split_ifs with hlt
    · exact ((ih h.2).cons _).trans (.swap _ _ _)
    · rfl

theorem values_upsert_append_perm {α : Type*} (k : κ) (xs : List α) (m : OrderedMap κ (List α)) :
    (m.upsert k fun old => old.getD [] ++ xs).values.flatten.Perm (m.values.flatten ++ xs) := by
  obtain ⟨es, hs⟩ := m
  change ((upsertEntries k (fun old => old.getD [] ++ xs) es).map Prod.snd).flatten.Perm
    ((es.map Prod.snd).flatten ++ xs)
  clear hs
  induction es with
  | nil => simp [upsertEntries]
  | cons e es ih =>
    obtain ⟨i, v⟩ := e
    rw [upsertEntries]
    split_ifs with hlt heq
    · simp only [List.map_cons, List.flatten_cons, List.append_assoc]
      exact ih.append_left v
    · simp only [Option.getD_some, List.map_cons, List.flatten_cons, List.append_assoc]
      exact List.perm_append_comm.append_left v
    · simp only [Option.getD_none, List.nil_append, List.map_cons, List.flatten_cons]
      exact List.perm_append_comm

theorem upsert_append_ne_self {α : Type*} {k : κ} {xs : List α} {m : OrderedMap κ (List α)} (hne : xs ≠ []) :
    (m.upsert k fun old => old.getD [] ++ xs) ≠ m := by
  intro h
  have hlength := (values_upsert_append_perm k xs m).length_eq
  have hpos := List.length_pos_iff.mpr hne
  rw [h, List.length_append] at hlength
  omega

theorem upsert_entries_of_append {k : κ} {f : Option ν → ν} {v : ν} {m : OrderedMap κ ν}
    {before after : List (κ × ν)} (h : m.entries = before ++ (k, v) :: after) :
    (m.upsert k f).entries = before ++ (k, f (some v)) :: after := by
  have hs := m.sorted
  change upsertEntries k f m.entries = _
  rw [h] at hs ⊢
  clear h
  induction before with
  | nil => simp [upsertEntries]
  | cons e before ih =>
    obtain ⟨i, w⟩ := e
    rw [List.cons_append, List.map_cons, List.pairwise_cons] at hs
    have hik : i < k := hs.1 k (by simp)
    rw [List.cons_append, upsertEntries, if_pos hik, ih hs.2, List.cons_append]

theorem upsertEntries_upsertEntries (k : κ) (f g : Option ν → ν) (es : List (κ × ν)) :
    upsertEntries k f (upsertEntries k g es) = upsertEntries k (fun old => f (some (g old))) es := by
  induction es with
  | nil => simp [upsertEntries]
  | cons e es ih =>
    obtain ⟨i, v⟩ := e
    rw [upsertEntries, upsertEntries]
    split_ifs with hlt heq
    · rw [upsertEntries, if_pos hlt, ih]
    · rw [upsertEntries, if_neg hlt, if_pos heq]
    · simp [upsertEntries]

theorem upsert_upsert (k : κ) (f g : Option ν → ν) (m : OrderedMap κ ν) :
    (m.upsert k g).upsert k f = m.upsert k fun old => f (some (g old)) :=
  ext (upsertEntries_upsertEntries k f g m.entries)

def updateFirst (p : ν → Option ν) (m : OrderedMap κ ν) : OrderedMap κ ν :=
  ⟨updateFirstEntries p m.entries, by rw [updateFirstEntries_keys]; exact m.sorted⟩

@[simp] theorem updateFirst_keys (p : ν → Option ν) (m : OrderedMap κ ν) :
    (m.updateFirst p).keys = m.keys := updateFirstEntries_keys p m.entries

@[simp] theorem updateFirst_size (p : ν → Option ν) (m : OrderedMap κ ν) :
    (m.updateFirst p).size = m.size := by
  have h := congrArg List.length (updateFirst_keys p m)
  simpa [keys, size] using h

theorem updateFirst_entries_of_append {p : ν → Option ν} {k : κ} {v w : ν} {m : OrderedMap κ ν}
    {before after : List (κ × ν)} (h : m.entries = before ++ (k, v) :: after)
    (hp : ∀ e ∈ before, p e.2 = none) (hv : p v = some w) :
    (m.updateFirst p).entries = before ++ (k, w) :: after := by
  change updateFirstEntries p m.entries = _
  rw [h]
  clear h
  induction before with
  | nil => simp [updateFirstEntries, hv]
  | cons e before ih =>
    obtain ⟨i, u⟩ := e
    have hu : p u = none := hp (i, u) (by simp)
    rw [List.cons_append, updateFirstEntries, hu, ih fun e he => hp e (by simp [he]), List.cons_append]

theorem values_updateFirst_subset {α : Type*} {p : List α → Option (List α)} {m : OrderedMap κ (List α)}
    (hp : ∀ v w, p v = some w → w ⊆ v) : (m.updateFirst p).values.flatten ⊆ m.values.flatten := by
  change ((updateFirstEntries p m.entries).map Prod.snd).flatten ⊆ (m.entries.map Prod.snd).flatten
  induction m.entries with
  | nil => exact List.Subset.refl _
  | cons e es ih =>
    obtain ⟨k, v⟩ := e
    rw [updateFirstEntries]
    cases hv : p v with
    | none => exact List.append_subset.mpr ⟨List.subset_append_left _ _, List.Subset.trans ih (List.subset_append_right _ _)⟩
    | some w =>
      exact List.append_subset.mpr
        ⟨List.Subset.trans (hp v w hv) (List.subset_append_left _ _), List.subset_append_right _ _⟩

theorem updateFirst_eq_self_iff {p : ν → Option ν} {m : OrderedMap κ ν} (hp : ∀ v w, p v = some w → w ≠ v) :
    m.updateFirst p = m ↔ ∀ v ∈ m.values, p v = none := by
  have hiff : updateFirstEntries p m.entries = m.entries ↔ ∀ v ∈ m.entries.map Prod.snd, p v = none := by
    induction m.entries with
    | nil => simp [updateFirstEntries]
    | cons e es ih =>
      obtain ⟨k, v⟩ := e
      rw [updateFirstEntries, List.map_cons, List.forall_mem_cons]
      cases hv : p v with
      | none => simpa using ih
      | some w => simpa using hp v w hv
  rw [values, ← hiff]
  exact ⟨fun h => congrArg entries h, fun h => ext h⟩

def eraseFirst (p : ν → Bool) (m : OrderedMap κ ν) : OrderedMap κ ν :=
  ⟨m.entries.eraseP fun e => p e.2, m.sorted.sublist (List.eraseP_sublist.map _)⟩

theorem eraseFirst_entries_of_append {p : ν → Bool} {k : κ} {v : ν} {m : OrderedMap κ ν}
    {before after : List (κ × ν)} (h : m.entries = before ++ (k, v) :: after)
    (hp : ∀ e ∈ before, p e.2 = false) (hv : p v = true) :
    (m.eraseFirst p).entries = before ++ after := by
  change m.entries.eraseP _ = _
  rw [h, List.eraseP_append_right _ (by simpa using hp), List.eraseP_cons_of_pos (by exact hv)]

theorem eraseFirst_eq_self_iff {p : ν → Bool} {m : OrderedMap κ ν} :
    m.eraseFirst p = m ↔ ∀ v ∈ m.values, p v = false := by
  have hiff : m.entries.eraseP (fun e => p e.2) = m.entries ↔ ∀ v ∈ m.entries.map Prod.snd, p v = false := by
    rw [List.eraseP_eq_self_iff, List.forall_mem_map]
    simp
  rw [values, ← hiff]
  exact ⟨fun h => congrArg entries h, fun h => ext h⟩

theorem eraseP_eq_filter {α : Type*} {p : α → Bool} {l : List α} (h : l.countP p ≤ 1) : l.eraseP p = l.filter (!p ·) := by
  induction l with
  | nil => rfl
  | cons a l ih =>
    cases ha : p a with
    | true =>
      rw [List.countP_cons_of_pos ha] at h
      have hnone : ∀ b ∈ l, p b = false := by
        have hzero : l.countP p = 0 := by omega
        simpa [List.countP_eq_zero] using hzero
      rw [List.eraseP_cons_of_pos ha, List.filter_cons_of_neg (by simp [ha]), List.filter_eq_self.mpr]
      intro b hb
      rw [hnone b hb]
      rfl
    | false =>
      rw [List.countP_cons_of_neg (by simp [ha])] at h
      rw [List.eraseP_cons_of_neg (by simp [ha]), List.filter_cons_of_pos (by simp [ha]), ih h]

theorem eraseFirst_entries_filter {p : ν → Bool} {m : OrderedMap κ ν} (h : m.values.countP p ≤ 1) :
    (m.eraseFirst p).entries = m.entries.filter fun e => !p e.2 := by
  apply eraseP_eq_filter
  rwa [values, List.countP_map] at h

theorem nodup_keys (m : OrderedMap κ ν) : m.keys.Nodup := m.sorted.imp fun h => h.ne

theorem mem_keys_upsert {k j : κ} {f : Option ν → ν} {m : OrderedMap κ ν} :
    j ∈ (m.upsert k f).keys ↔ j = k ∨ j ∈ m.keys := by
  obtain ⟨es, hs⟩ := m
  change j ∈ (upsertEntries k f es).map Prod.fst ↔ j = k ∨ j ∈ es.map Prod.fst
  clear hs
  induction es with
  | nil => simp [upsertEntries]
  | cons e es ih =>
    obtain ⟨i, v⟩ := e
    rw [upsertEntries]
    split_ifs with hlt heq
    · rw [List.map_cons, List.mem_cons, ih, List.map_cons, List.mem_cons]
      exact or_left_comm
    · subst heq
      simp
    · simp

theorem lookup_of_mem {e : κ × ν} {m : OrderedMap κ ν} (he : e ∈ m.entries) : m.lookup e.1 = some e.2 := by
  obtain ⟨es, hs⟩ := m
  obtain ⟨before, after, rfl⟩ := List.append_of_mem he
  rw [List.map_append, List.pairwise_append] at hs
  have hbefore : ∀ d ∈ before, ¬ d.1 = e.1 := fun d hd =>
    (hs.2.2 d.1 (List.mem_map_of_mem hd) e.1 (by simp)).ne
  have hfind : before.find? (fun d => decide (d.1 = e.1)) = none :=
    List.find?_eq_none.mpr fun d hd => by simpa using hbefore d hd
  simp [lookup, List.find?_append, hfind]

theorem lookup_upsert (k j : κ) (f : Option ν → ν) (m : OrderedMap κ ν) :
    (m.upsert k f).lookup j = if j = k then some (f (m.lookup k)) else m.lookup j := by
  obtain ⟨es, hs⟩ := m
  change ((upsertEntries k f es).find? fun e => decide (e.1 = j)).map Prod.snd =
    if j = k then some (f ((es.find? fun e => decide (e.1 = k)).map Prod.snd))
      else (es.find? fun e => decide (e.1 = j)).map Prod.snd
  induction es with
  | nil =>
    rw [upsertEntries]
    by_cases hjk : j = k
    · simp [hjk]
    · simp [hjk, Ne.symm hjk]
  | cons e es ih =>
    obtain ⟨i, v⟩ := e
    rw [List.map_cons, List.pairwise_cons] at hs
    rw [upsertEntries]
    rcases lt_trichotomy i k with hlt | rfl | hgt
    · rw [if_pos hlt, List.find?_cons, List.find?_cons, List.find?_cons]
      by_cases hij : i = j
      · have hjk : j ≠ k := hij ▸ hlt.ne
        simp [hij, hjk]
      · simpa [hij, hlt.ne] using ih hs.2
    · rw [if_neg (lt_irrefl i), if_pos rfl]
      by_cases hji : j = i
      · simp [hji]
      · simp [hji, Ne.symm hji]
    · rw [if_neg hgt.not_gt, if_neg hgt.ne']
      by_cases hjk : j = k
      · subst hjk
        have hlarger : ∀ e ∈ es, ¬ e.1 = j := fun e he =>
          (hgt.trans (hs.1 e.1 (List.mem_map_of_mem he))).ne'
        have hfind : es.find? (fun e => decide (e.1 = j)) = none :=
          List.find?_eq_none.mpr fun e he => by simpa using hlarger e he
        simp [hgt.ne', hfind]
      · simp [hjk, Ne.symm hjk]

section Push

variable {α β : Type*}

/-- `m[k].push_back(x)` -/
def push (k : κ) (x : α) (m : OrderedMap κ (List α)) : OrderedMap κ (List α) :=
  m.upsert k fun old => old.getD [] ++ [x]

def under (m : OrderedMap κ (List α)) (k : κ) : List α := (m.lookup k).getD []

theorem under_push (k j : κ) (x : α) (m : OrderedMap κ (List α)) :
    (m.push k x).under j = m.under j ++ if k = j then [x] else [] := by
  rw [under, push, lookup_upsert, under]
  by_cases hjk : j = k
  · simp [hjk]
  · simp [hjk, Ne.symm hjk]

theorem push_injective (k : κ) (m : OrderedMap κ (List α)) : Function.Injective fun x => push k x m := by
  intro x y h
  have hunder : (m.push k x).under k = (m.push k y).under k := congrArg (under · k) h
  rw [under_push, under_push, if_pos rfl] at hunder
  simpa using hunder

theorem values_eq_map_under (m : OrderedMap κ (List α)) : m.values = m.keys.map m.under := by
  rw [values, keys, List.map_map]
  refine List.map_congr_left fun e he => ?_
  have hv : m.lookup e.1 = some e.2 := lookup_of_mem he
  simp [under, hv]

theorem mem_flatten_values {x : α} {m : OrderedMap κ (List α)} : x ∈ m.values.flatten ↔ ∃ k, x ∈ m.under k := by
  constructor
  · intro h
    obtain ⟨xs, hxs, hx⟩ := List.mem_flatten.mp h
    rw [values_eq_map_under] at hxs
    obtain ⟨k, -, rfl⟩ := List.mem_map.mp hxs
    exact ⟨k, hx⟩
  · rintro ⟨k, hx⟩
    cases h : m.entries.find? fun e => e.1 = k with
    | none => simp [under, lookup, h] at hx
    | some e =>
      have hunder : m.under k = e.2 := by simp [under, lookup, h]
      exact List.mem_flatten.mpr ⟨e.2, List.mem_map_of_mem (List.mem_of_find?_eq_some h), hunder ▸ hx⟩

theorem under_sublist (k : κ) (m : OrderedMap κ (List α)) : (m.under k).Sublist m.values.flatten := by
  cases h : m.entries.find? fun e => e.1 = k with
  | none => simp [under, lookup, h]
  | some e =>
    have hunder : m.under k = e.2 := by simp [under, lookup, h]
    rw [hunder]
    exact List.sublist_flatten_of_mem (List.mem_map_of_mem (List.mem_of_find?_eq_some h))

/-- `std::vector<α> &v = m[k];` and a change of `v`. -/
def revise (k : κ) (g : List α → List α) (m : OrderedMap κ (List α)) : OrderedMap κ (List α) :=
  m.upsert k fun old => g (old.getD [])

theorem under_revise (k j : κ) (g : List α → List α) (m : OrderedMap κ (List α)) :
    (m.revise k g).under j = if j = k then g (m.under j) else m.under j := by
  rw [under, revise, lookup_upsert]
  split_ifs with h
  · subst h
    rfl
  · rfl

theorem values_revise_sublist {k : κ} {g : List α → List α} (hg : ∀ xs, (g xs).Sublist xs)
    (m : OrderedMap κ (List α)) : (m.revise k g).values.flatten.Sublist m.values.flatten := by
  obtain ⟨es, hs⟩ := m
  simp only [revise, upsert, values]
  clear hs
  induction es with
  | nil => simpa [upsertEntries] using hg []
  | cons e es ih =>
    obtain ⟨j, v⟩ := e
    rw [upsertEntries]
    split_ifs
    · exact List.Sublist.append (List.Sublist.refl v) ih
    · exact List.Sublist.append (hg v) (List.Sublist.refl _)
    · have hnil : g [] = [] := List.sublist_nil.mp (hg [])
      simp [hnil]

def clearLists (m : OrderedMap κ (List α)) : OrderedMap κ (List α) :=
  ⟨m.entries.map fun e => (e.1, []), by simpa [List.map_map, Function.comp_def] using m.sorted⟩

@[simp] theorem flatten_values_clearLists (m : OrderedMap κ (List α)) : m.clearLists.values.flatten = [] := by
  simp [clearLists, values]

@[simp] theorem under_clearLists (k : κ) (m : OrderedMap κ (List α)) : m.clearLists.under k = [] :=
  List.sublist_nil.mp (flatten_values_clearLists m ▸ under_sublist k m.clearLists)

variable {ρ : Type*}

def gather (key : ρ → κ) (value : ρ → α) (rows : List ρ) (m : OrderedMap κ (List α)) : OrderedMap κ (List α) :=
  rows.foldl (fun m row => m.push (key row) (value row)) m

theorem mem_keys_gather {key : ρ → κ} {value : ρ → α} {rows : List ρ} {k : κ} (m : OrderedMap κ (List α)) :
    k ∈ (gather key value rows m).keys ↔ k ∈ m.keys ∨ ∃ row ∈ rows, key row = k := by
  induction rows generalizing m with
  | nil => simp [gather]
  | cons row rows ih =>
    change k ∈ (gather key value rows (m.push (key row) (value row))).keys ↔ _
    rw [ih, push, mem_keys_upsert]
    constructor
    · rintro ((rfl | h) | ⟨r, hr, rfl⟩)
      · exact .inr ⟨row, by simp, rfl⟩
      · exact .inl h
      · exact .inr ⟨r, List.mem_cons_of_mem _ hr, rfl⟩
    · rintro (h | ⟨r, hr, rfl⟩)
      · exact .inl (.inr h)
      · rcases List.mem_cons.mp hr with rfl | hr
        · exact .inl (.inl rfl)
        · exact .inr ⟨r, hr, rfl⟩

theorem under_gather {key : ρ → κ} {value : ρ → α} {rows : List ρ} (k : κ) (m : OrderedMap κ (List α)) :
    (gather key value rows m).under k = m.under k ++ (rows.filter fun row => key row = k).map value := by
  induction rows generalizing m with
  | nil => simp [gather]
  | cons row rows ih =>
    change (gather key value rows (m.push (key row) (value row))).under k = _
    rw [ih, under_push]
    by_cases hk : key row = k
    · simp [hk]
    · simp [hk]

theorem gather_injective {xs ys : List (κ × α)} (hkeys : xs.map Prod.fst = ys.map Prod.fst) {m : OrderedMap κ (List α)}
    (h : gather Prod.fst Prod.snd xs m = gather Prod.fst Prod.snd ys m) : xs = ys := by
  have hunder (k : κ) : (xs.filter fun e => e.1 = k).map Prod.snd = (ys.filter fun e => e.1 = k).map Prod.snd := by
    have hlists := congrArg (fun n => n.under k) h
    simpa only [under_gather, List.append_cancel_left_eq] using hlists
  clear h
  induction xs generalizing ys with
  | nil => simpa using hkeys.symm
  | cons x xs ih =>
    cases ys with
    | nil => simp at hkeys
    | cons y ys =>
      obtain ⟨hfst, htails⟩ := List.cons.inj hkeys
      have hsnd : x.2 = y.2 := by
        have hfirst := hunder x.1
        rw [List.filter_cons_of_pos (by simp), List.filter_cons_of_pos (by simp [hfst])] at hfirst
        exact (List.cons.inj hfirst).1
      obtain rfl : x = y := Prod.ext hfst hsnd
      apply congrArg (x :: ·)
      apply ih htails
      intro k
      have hlists := hunder k
      by_cases hk : x.1 = k
      · rw [List.filter_cons_of_pos (by simp [hk]), List.filter_cons_of_pos (by simp [hk])] at hlists
        exact (List.cons.inj hlists).2
      · rwa [List.filter_cons_of_neg (by simp [hk]), List.filter_cons_of_neg (by simp [hk])] at hlists

@[simp] theorem keys_empty : (ofEntries [] List.Pairwise.nil : OrderedMap κ ν).keys = [] := rfl

@[simp] theorem under_empty (k : κ) : (ofEntries [] List.Pairwise.nil : OrderedMap κ (List α)).under k = [] := rfl

end Push

end OrderedMap

end Foundation
