import DbHandler.Foundation.Faults
import DbHandler.Foundation.Runs
import DbHandler.Shapes.DiagramManager

namespace DbHandler.Shapes

open Foundation Foundation.Runs

namespace UsedIDs

variable {used : UsedIDs}

theorem getNewId_pos (used : UsedIDs) : 1 ≤ used.getNewId := Numbering.le_firstFree _ 1

theorem getNewId_not_mem (used : UsedIDs) : used.getNewId ∉ used := by
  rw [AList.mem_keys]
  exact Numbering.firstFree_not_mem 1

/-- The id is the least one from 1 on that is not in use. -/
theorem mem_of_lt_getNewId {id : ℤ} (hpos : 1 ≤ id) (hlt : id < used.getNewId) : id ∈ used := by
  rw [AList.mem_keys]
  exact Numbering.mem_of_lt_firstFree _ hpos hlt

theorem assignedId_ne (used : UsedIDs) (s : Shape) : used.assignedId s ≠ -1 := by
  rw [assignedId]
  split
  · have hpos := used.getNewId_pos
    omega
  · assumption

/-- No shape brings an id that is in use when it is put in the index. -/
def NoClash : UsedIDs → List Shape → Prop
  | _, [] => True
  | used, s :: shapes => (s.id = -1 ∨ s.id ∉ used) ∧ NoClash (used.indexed s) shapes

instance decidableNoClash : ∀ (used : UsedIDs) (shapes : List Shape), Decidable (NoClash used shapes)
  | _, [] => .isTrue trivial
  | used, s :: shapes =>
    have := decidableNoClash (used.indexed s) shapes
    inferInstanceAs (Decidable ((s.id = -1 ∨ s.id ∉ used) ∧ _))

theorem assignedId_not_mem_iff (s : Shape) : used.assignedId s ∉ used ↔ s.id = -1 ∨ s.id ∉ used := by
  rw [assignedId]
  split
  · rename_i hunset
    exact iff_of_true used.getNewId_not_mem (.inl hunset)
  · rename_i hset
    simp [hset]

theorem mem_indexed {id : ℤ} {s : Shape} : id ∈ used.indexed s ↔ id = used.assignedId s ∨ id ∈ used :=
  AList.mem_insert _

theorem mem_indexAll {id : ℤ} {shapes : List Shape} :
    id ∈ used.indexAll shapes ↔ id ∈ (used.assignAll shapes).map (·.id) ∨ id ∈ used := by
  induction shapes generalizing used with
  | nil => simp [indexAll, assignAll]
  | cons s shapes ih =>
    rw [indexAll, List.foldl_cons, ← indexAll, ih, mem_indexed, assignAll, List.map_cons, List.mem_cons]
    tauto

theorem noClash_iff {shapes : List Shape} : NoClash used shapes ↔
    ((used.assignAll shapes).map (·.id)).Nodup ∧ ∀ id ∈ (used.assignAll shapes).map (·.id), id ∉ used := by
  induction shapes generalizing used with
  | nil => simp [NoClash, assignAll]
  | cons s shapes ih =>
    rw [NoClash, ih, assignAll, List.map_cons, List.nodup_cons, ← assignedId_not_mem_iff]
    simp only [List.mem_cons, mem_indexed, not_or, forall_eq_or_imp]
    constructor
    · rintro ⟨hs, hnodup, hrest⟩
      exact ⟨⟨fun hmem => (hrest _ hmem).1 rfl, hnodup⟩, hs, fun id hid => (hrest id hid).2⟩
    · rintro ⟨⟨hne, hnodup⟩, hs, hrest⟩
      exact ⟨hs, hnodup, fun id hid => ⟨fun heq => hne (heq ▸ hid), hrest id hid⟩⟩

theorem assignAll_ne {shapes : List Shape} : ∀ s ∈ used.assignAll shapes, s.id ≠ -1 := by
  induction shapes generalizing used with
  | nil => simp [assignAll]
  | cons t shapes ih =>
    intro s hs
    rcases List.mem_cons.mp hs with rfl | hs
    · exact used.assignedId_ne t
    · exact ih s hs

theorem addresses_assignAll (used : UsedIDs) (shapes : List Shape) :
    (used.assignAll shapes).map (·.address) = shapes.map (·.address) := by
  induction shapes generalizing used with
  | nil => rfl
  | cons s shapes ih => simp [assignAll, ih]

theorem lookup_indexAll {shapes : List Shape} (h : NoClash used shapes) (id : ℤ) (target : Option ℕ) :
    (used.indexAll shapes).lookup id = some target ↔
      used.lookup id = some target ∨ ∃ s ∈ used.assignAll shapes, s.id = id ∧ target = some s.address := by
  induction shapes generalizing used with
  | nil => simp [indexAll, assignAll]
  | cons s shapes ih =>
    rw [indexAll, List.foldl_cons, ← indexAll, ih h.2, assignAll, indexed]
    have hfree : used.assignedId s ∉ used := (assignedId_not_mem_iff s).mpr h.1
    by_cases hid : id = used.assignedId s
    · subst hid
      have hnone := AList.lookup_eq_none.mpr hfree
      rw [AList.lookup_insert, hnone]
      simp only [reduceCtorEq, false_or, List.exists_mem_cons_iff, true_and, Option.some.injEq]
      exact or_congr_left eq_comm
    · rw [AList.lookup_insert_ne hid]
      simp only [List.exists_mem_cons_iff]
      constructor
      · rintro (h | h)
        · exact .inl h
        · exact .inr (.inr h)
      · rintro (h | ⟨heq, -⟩ | h)
        · exact .inl h
        · exact absurd heq.symm hid
        · exact .inr h

theorem lookup_indexAll_of_not_mem {shapes : List Shape} {id : ℤ}
    (h : id ∉ (used.assignAll shapes).map (·.id)) : (used.indexAll shapes).lookup id = used.lookup id := by
  induction shapes generalizing used with
  | nil => rfl
  | cons s shapes ih =>
    rw [assignAll, List.map_cons, List.mem_cons, not_or] at h
    rw [indexAll, List.foldl_cons, ← indexAll, ih h.2, indexed, AList.lookup_insert_ne h.1]

theorem lookup_eraseAll (used : UsedIDs) (ids : List ℤ) (id : ℤ) :
    (used.eraseAll ids).lookup id = if id ∈ ids then none else used.lookup id := by
  induction ids generalizing used with
  | nil => simp [eraseAll]
  | cons i ids ih =>
    rw [eraseAll, List.foldl_cons, ← eraseAll, ih]
    by_cases hid : id = i
    · subst hid
      simp [AList.lookup_erase]
    · simp [hid, AList.lookup_erase_ne hid]

end UsedIDs

namespace NewShape

variable {n : NewShape} {used : UsedIDs} {s : Shape}

def addresses (shapes : List Shape) : List ℕ := shapes.map (·.address)

theorem initialised_subset (h : s ∈ n.initialised) : s ∈ n.items := by
  rw [initialised] at h
  rw [items, List.mem_cons]
  split at h
  · rcases List.mem_append.mp h with h | h
    · split at h
      · simp at h
      · exact .inl (by simpa using h)
    · exact .inr (n.below.branches_perm.mem_iff.mp h)
  · rcases List.mem_cons.mp h with rfl | h
    · exact .inl rfl
    · exact .inr (Forest.mem_levels.mp h)

theorem not_initialised (hs : s ∈ n.items) (h : s ∉ n.initialised) : n.managed = true ∧ s = n.shape ∧ s.id = -1 := by
  rw [initialised] at h
  rw [items, List.mem_cons] at hs
  split at h
  · rename_i hmanaged
    rw [List.mem_append, not_or, n.below.branches_perm.mem_iff] at h
    obtain rfl : s = n.shape := hs.resolve_right h.2
    refine ⟨hmanaged, rfl, ?_⟩
    by_contra hset
    rw [if_neg hset] at h
    simp at h
  · rw [List.mem_cons, not_or, Forest.mem_levels] at h
    rcases hs with rfl | hs
    · exact absurd rfl h.1
    · exact absurd hs h.2

theorem initialised_nodup (h : (addresses n.items).Nodup) : (addresses n.initialised).Nodup := by
  have hbelow : (addresses n.below.items).Nodup := (List.nodup_cons.mp h).2
  have hout : n.shape.address ∉ addresses n.below.items := (List.nodup_cons.mp h).1
  rw [initialised]
  split
  · have hbranches : (addresses n.below.branches).Perm (addresses n.below.items) := n.below.branches_perm.map _
    split
    · exact hbranches.nodup_iff.mpr hbelow
    · exact List.nodup_cons.mpr ⟨fun hmem => hout (hbranches.mem_iff.mp hmem), hbranches.nodup_iff.mpr hbelow⟩
  · have hlevels : (addresses n.below.levels).Perm (addresses n.below.items) := n.below.levels_perm.map _
    exact List.nodup_cons.mpr ⟨fun hmem => hout (hlevels.mem_iff.mp hmem), hlevels.nodup_iff.mpr hbelow⟩

theorem identify_address (assigned : List Shape) (s : Shape) : (identify assigned s).address = s.address := by
  rw [identify]
  cases h : assigned.find? fun t => t.address = s.address with
  | none => rfl
  | some t => simpa using List.find?_some h

theorem addresses_tree (used : UsedIDs) (n : NewShape) : addresses (n.tree used).items = addresses n.items := by
  rw [tree, Forest.items_map, Forest.items_single, addresses, List.map_map]
  apply List.map_congr_left
  intro s _
  exact identify_address _ s

theorem identify_of_mem {assigned : List Shape} (h : (addresses assigned).Nodup) {t : Shape} (ht : t ∈ assigned)
    (heq : t.address = s.address) : identify assigned s = t := by
  rw [identify]
  cases hfind : assigned.find? fun t => t.address = s.address with
  | none => exact absurd heq (by simpa using List.find?_eq_none.mp hfind t ht)
  | some u =>
    have hu : u.address = s.address := by simpa using List.find?_some hfind
    exact List.inj_on_of_nodup_map h (List.mem_of_find?_eq_some hfind) ht (hu.trans heq.symm)

/-- Among the shapes of the new tree those with an id are the ones that were indexed. -/
theorem mem_tree (h : (addresses n.items).Nodup) (hs : s.id ≠ -1) :
    s ∈ (n.tree used).items ↔ s ∈ used.assignAll n.initialised := by
  have hassigned := UsedIDs.addresses_assignAll used n.initialised
  have hnodup : (addresses (used.assignAll n.initialised)).Nodup := by
    rw [addresses, hassigned]
    exact initialised_nodup h
  rw [tree, Forest.items_map, Forest.items_single, List.mem_map]
  constructor
  · rintro ⟨x, hx, rfl⟩
    by_cases hmem : x ∈ n.initialised
    · have haddress : x.address ∈ (used.assignAll n.initialised).map (·.address) := by
        rw [hassigned]
        exact List.mem_map_of_mem hmem
      obtain ⟨t, ht, heq⟩ := List.mem_map.mp haddress
      rw [identify_of_mem hnodup ht heq]
      exact ht
    · obtain ⟨-, -, hunset⟩ := not_initialised hx hmem
      have hnone : (used.assignAll n.initialised).find? (fun t => t.address = x.address) = none := by
        apply List.find?_eq_none.mpr
        intro t ht
        have haddress : t.address ∈ n.initialised.map (·.address) := hassigned ▸ List.mem_map_of_mem ht
        obtain ⟨y, hy, heq⟩ := List.mem_map.mp haddress
        simp only [decide_eq_true_eq]
        intro hsame
        exact hmem (List.inj_on_of_nodup_map h (initialised_subset hy) hx (heq.trans hsame) ▸ hy)
      exact absurd hunset (by simpa [identify, hnone] using hs)
  · intro hmem
    have haddress : s.address ∈ n.initialised.map (·.address) := hassigned ▸ List.mem_map_of_mem hmem
    obtain ⟨x, hx, heq⟩ := List.mem_map.mp haddress
    exact ⟨x, initialised_subset hx, identify_of_mem hnodup hmem heq.symm⟩

theorem addresses_map {g : Shape → Shape} (h : ∀ s, (g s).address = s.address) (shapes : List Shape) :
    addresses (shapes.map g) = addresses shapes := by
  rw [addresses, List.map_map]
  exact List.map_congr_left fun s _ => h s

end NewShape

/-- Looking an id other than -1 up gives exactly the shapes that have it. -/
def IndexedBy (used : UsedIDs) (shapes : List Shape) : Prop :=
  ∀ id, id ≠ -1 → ∀ target, used.lookup id = some target ↔ ∃ s ∈ shapes, s.id = id ∧ target = some s.address

namespace IndexedBy

open NewShape

variable {used : UsedIDs} {shapes more : List Shape}

theorem same_address (h : IndexedBy used shapes) {s t : Shape} (hs : s ∈ shapes) (ht : t ∈ shapes)
    (hid : s.id = t.id) (hset : t.id ≠ -1) : s.address = t.address := by
  have hlookup := (h t.id hset (some s.address)).mpr ⟨s, hs, hid, rfl⟩
  have hother := (h t.id hset (some t.address)).mpr ⟨t, ht, rfl, rfl⟩
  simpa using hlookup.symm.trans hother

theorem congr (h : IndexedBy used shapes) (hmem : ∀ s : Shape, s.id ≠ -1 → (s ∈ more ↔ s ∈ shapes)) :
    IndexedBy used more := by
  intro id hid target
  rw [h id hid target]
  constructor
  · rintro ⟨s, hs, rfl, rfl⟩
    exact ⟨s, (hmem s hid).mpr hs, rfl, rfl⟩
  · rintro ⟨s, hs, rfl, rfl⟩
    exact ⟨s, (hmem s hid).mp hs, rfl, rfl⟩

theorem map_iff {g : Shape → Shape} (hid : ∀ s, (g s).id = s.id) (haddress : ∀ s, (g s).address = s.address) :
    IndexedBy used (shapes.map g) ↔ IndexedBy used shapes := by
  refine forall_congr' fun id => imp_congr_right fun _ => forall_congr' fun target => iff_congr Iff.rfl ?_
  constructor
  · rintro ⟨t, ht, hsame⟩
    obtain ⟨s, hs, rfl⟩ := List.mem_map.mp ht
    exact ⟨s, hs, by rwa [hid, haddress] at hsame⟩
  · rintro ⟨s, hs, hsame⟩
    exact ⟨g s, List.mem_map_of_mem hs, by rwa [hid, haddress]⟩

theorem indexAll (h : IndexedBy used shapes) {new : List Shape} (hclash : UsedIDs.NoClash used new) :
    IndexedBy (used.indexAll new) (shapes ++ used.assignAll new) := by
  intro id hid target
  rw [UsedIDs.lookup_indexAll hclash, h id hid target]
  simp only [List.mem_append, or_and_right, exists_or]

theorem noClash (h : IndexedBy used shapes) {new : List Shape}
    (hafter : IndexedBy (used.indexAll new) (shapes ++ used.assignAll new))
    (hnodup : (addresses (shapes ++ new)).Nodup) : UsedIDs.NoClash used new := by
  rw [addresses, List.map_append, List.nodup_append] at hnodup
  obtain ⟨-, hnew, hapart⟩ := hnodup
  rw [← UsedIDs.addresses_assignAll used new] at hnew hapart
  rw [UsedIDs.noClash_iff]
  constructor
  · apply List.Nodup.map_on _ (List.Nodup.of_map _ hnew)
    intro s hs t ht hid
    exact List.inj_on_of_nodup_map hnew hs ht (hafter.same_address (List.mem_append_right _ hs)
      (List.mem_append_right _ ht) hid (UsedIDs.assignAll_ne t ht))
  · intro id hid hused
    obtain ⟨t, ht, rfl⟩ := List.mem_map.mp hid
    have hset := UsedIDs.assignAll_ne t ht
    obtain ⟨target, hlookup⟩ := Option.isSome_iff_exists.mp (AList.lookup_isSome.mpr hused)
    obtain ⟨s, hs, hsame, -⟩ := (h t.id hset target).mp hlookup
    exact hapart _ (List.mem_map_of_mem hs) _ (List.mem_map_of_mem ht)
      (hafter.same_address (List.mem_append_left _ hs) (List.mem_append_right _ ht) hsame hset)

/-- Taking out the ids of the shapes that go leaves the others where they were. -/
theorem eraseAll {cut kept : List Shape} (h : IndexedBy used shapes) (hperm : shapes.Perm (cut ++ kept))
    (hnodup : (addresses shapes).Nodup) : IndexedBy (used.eraseAll (cut.map (·.id))) kept := by
  have hapart : (addresses (cut ++ kept)).Nodup := (hperm.map _).nodup_iff.mp hnodup
  rw [addresses, List.map_append, List.nodup_append] at hapart
  intro id hid target
  rw [UsedIDs.lookup_eraseAll]
  split
  · rename_i hcut
    obtain ⟨t, ht, rfl⟩ := List.mem_map.mp hcut
    simp only [reduceCtorEq, false_iff]
    rintro ⟨s, hs, hsame, -⟩
    have hsame := h.same_address (hperm.mem_iff.mpr (List.mem_append_right _ hs))
      (hperm.mem_iff.mpr (List.mem_append_left _ ht)) hsame hid
    exact hapart.2.2 _ (List.mem_map_of_mem ht) _ (List.mem_map_of_mem hs) hsame.symm
  · rename_i hcut
    rw [h id hid target]
    constructor
    · rintro ⟨s, hs, rfl, rfl⟩
      rcases List.mem_append.mp (hperm.mem_iff.mp hs) with hs | hs
      · exact absurd (List.mem_map_of_mem hs) hcut
      · exact ⟨s, hs, rfl, rfl⟩
    · rintro ⟨s, hs, rfl, rfl⟩
      exact ⟨s, hperm.mem_iff.mpr (List.mem_append_right _ hs), rfl, rfl⟩

end IndexedBy

inductive Event
  | addShape (shape : NewShape) (parent : Option ℕ)
  | addChild (shape : NewShape) (parent : ℕ)
  | createConnection (source target : ℤ) (line : NewShape)
  | removeShape (address : ℕ)
  | removeShapes (selection : List ℕ)
  | removeChildren (address : ℕ)
  | clear

def Event.shape : Event → Option NewShape
  | .addShape n _ => some n
  | .addChild n _ => some n
  | .createConnection _ _ line => some line
  | _ => none

namespace DiagramManager

open NewShape

/-- The allocator gives new shapes addresses that no live shape has. -/
def Fresh (m : DiagramManager) (n : NewShape) : Prop :=
  (addresses n.items).Nodup ∧ ∀ a ∈ addresses n.items, a ∉ addresses m.items

instance (m : DiagramManager) (n : NewShape) : Decidable (m.Fresh n) := inferInstanceAs (Decidable (_ ∧ _))

def perform (m : DiagramManager) : Event → Except Fault DiagramManager
  | .addShape n parent => m.addShape n parent
  | .addChild n parent => m.addItem n (some parent)
  | .createConnection source target line => m.createConnection source target line
  | .removeShape address => m.removeShape address
  | .removeShapes selection => m.removeShapes selection
  | .removeChildren address => m.removeChildren address
  | .clear => .ok m.clear

/-- A call that touches a removed shape, or does not come back, ends the run. -/
def step (m : DiagramManager) (e : Event) : Option DiagramManager :=
  if ∀ n ∈ e.shape, m.Fresh n then (m.perform e).toOption else none

/-- What a call needs for the index to stay exact: no shape it puts in brings an id that is in use. -/
def Clashless (m : DiagramManager) : Event → Prop
  | .addShape n parent =>
    if m.accepts n parent then UsedIDs.NoClash m.usedIDs n.initialised
    else n.managed = true → ∀ s ∈ (n.tree m.usedIDs).items, s.id ≠ -1 → s.id ∉ m.usedIDs
  | .addChild n _ => UsedIDs.NoClash m.usedIDs n.initialised
  | .createConnection _ _ n =>
    if m.accepts n none then UsedIDs.NoClash m.usedIDs n.initialised
    else n.managed = true → ∀ s ∈ (n.tree m.usedIDs).items, s.id ≠ -1 → s.id ∉ m.usedIDs
  | _ => True

instance (m : DiagramManager) : ∀ e : Event, Decidable (m.Clashless e)
  | .addShape _ _ => inferInstanceAs (Decidable (ite _ _ _))
  | .addChild n _ => inferInstanceAs (Decidable (UsedIDs.NoClash m.usedIDs n.initialised))
  | .createConnection _ _ _ => inferInstanceAs (Decidable (ite _ _ _))
  | .removeShape _ => .isTrue trivial
  | .removeShapes _ => .isTrue trivial
  | .removeChildren _ => .isTrue trivial
  | .clear => .isTrue trivial

/-- `FindShape` of an id other than -1 finds exactly the shapes that have it. -/
structure Consistent (m : DiagramManager) : Prop where
  distinct : (addresses m.items).Nodup
  indexed : IndexedBy m.usedIDs m.items

theorem consistent_new : Consistent new where
  distinct := List.nodup_nil
  indexed := by
    intro id hid target
    have hne : (AList.lookup id rootOnly) = none := by
      apply AList.lookup_eq_none.mpr
      simpa [rootOnly, AList.mem_keys] using hid
    simp [new, items, hne]

section Lists

variable {m : DiagramManager} {p : ℕ}

theorem count_located {f : Forest Shape} (h : (addresses f.items).Nodup) (hp : f.items.any (located p) = true) :
    f.items.countP (located p) = 1 := by
  have hcount : f.items.countP (located p) = (addresses f.items).count p := by
    rw [addresses, List.count, List.countP_map]
    apply List.countP_congr
    intro s _
    simp [located]
  obtain ⟨s, hs, heq⟩ := List.any_eq_true.mp hp
  obtain rfl : s.address = p := by simpa [located] using heq
  rw [hcount]
  exact List.count_eq_one_of_mem h (List.mem_map_of_mem hs)

theorem single_located {f : Forest Shape} (h : (addresses f.items).Nodup) (p : ℕ) : Forest.Single (located p) f := by
  by_cases hp : f.items.any (located p) = true
  · rw [Forest.Single, count_located h hp]
  · rw [Forest.Single]
    have hzero : f.items.countP (located p) = 0 := by
      apply List.countP_eq_zero.mpr
      intro s hs hloc
      exact hp (List.any_eq_true.mpr ⟨s, hs, hloc⟩)
    omega

/-- The shapes after an addition are the ones before and the ones of the new tree. -/
theorem addItem_items {n : NewShape} {parent : Option ℕ} {m' : DiagramManager} (hd : (addresses m.items).Nodup)
    (h : m.addItem n parent = .ok m') :
    m'.items.Perm (m.items ++ (n.tree m.usedIDs).items) ∧ m'.usedIDs = m.usedIDs.indexAll n.initialised := by
  cases parent with
  | none =>
    obtain rfl := Except.ok.inj h
    exact ⟨by rw [items, Forest.items_append]; exact List.Perm.refl _, rfl⟩
  | some p =>
    rw [addItem] at h
    split at h
    · rename_i hp
      obtain rfl := Except.ok.inj h
      exact ⟨Forest.items_hang (count_located hd hp), rfl⟩
    · cases h

theorem setEnds_items (address : ℕ) (source target : ℤ) (m : DiagramManager) :
    (setEnds address source target m).items =
      m.items.map fun s => if located address s then { s with kind := .line source target } else s :=
  Forest.items_map _ _

theorem removeItem_items {address : ℕ} {m' : DiagramManager} (hd : (addresses m.items).Nodup)
    (h : m.removeItem address = .ok m') : ∃ s below, m.children.find (located address) = some (s, below) ∧
      m.items.Perm (s :: below.items ++ m'.items) ∧
      m'.usedIDs = m.usedIDs.eraseAll ((s :: below.items).map (·.id)) := by
  rw [removeItem] at h
  split at h
  · cases h
  · rename_i s below hfind
    obtain rfl := Except.ok.inj h
    refine ⟨s, below, hfind, ?_, rfl⟩
    have hperm := Forest.perm_cut (located address) m.children
    rwa [Forest.cut_of_find (single_located hd address) hfind] at hperm

end Lists

section Kept

variable {m m' : DiagramManager} {n : NewShape} {address : ℕ}

theorem nodup_of_perm {cut kept : List Shape} (hd : (addresses m.items).Nodup) (hperm : m.items.Perm (cut ++ kept)) :
    (addresses kept).Nodup := by
  have hnodup : (addresses (cut ++ kept)).Nodup := (hperm.map _).nodup_iff.mp hd
  rw [addresses, List.map_append] at hnodup
  exact (List.nodup_append.mp hnodup).2.1

theorem Consistent.of_perm {cut : List Shape} (h : Consistent m) (hperm : m.items.Perm (cut ++ m'.items))
    (hused : m'.usedIDs = m.usedIDs.eraseAll (cut.map (·.id))) : Consistent m' where
  distinct := nodup_of_perm h.distinct hperm
  indexed := hused ▸ h.indexed.eraseAll hperm h.distinct

theorem setEnds_consistent_iff (source target : ℤ) :
    Consistent (DiagramManager.setEnds address source target m) ↔ Consistent m := by
  have hid : ∀ s : Shape, (if located address s then { s with kind := .line source target } else s).id = s.id :=
    fun s => by split <;> rfl
  have haddress : ∀ s : Shape,
      (if located address s then { s with kind := .line source target } else s).address = s.address :=
    fun s => by split <;> rfl
  constructor
  · rintro ⟨hd, hi⟩
    rw [setEnds_items] at hd hi
    exact ⟨addresses_map haddress _ ▸ hd, (IndexedBy.map_iff hid haddress).mp hi⟩
  · rintro ⟨hd, hi⟩
    refine ⟨?_, ?_⟩
    · rw [setEnds_items, addresses_map haddress]
      exact hd
    · rw [setEnds_items]
      exact (IndexedBy.map_iff hid haddress).mpr hi

theorem fresh_nodup (hd : (addresses m.items).Nodup) (hfresh : m.Fresh n) (used : UsedIDs) :
    (addresses (m.items ++ (n.tree used).items)).Nodup := by
  rw [addresses, List.map_append, List.nodup_append]
  have htree := addresses_tree used n
  rw [addresses] at htree
  rw [htree]
  refine ⟨hd, hfresh.1, ?_⟩
  rintro a ha b hb rfl
  exact hfresh.2 a hb ha

theorem addItem_consistent_iff (h : Consistent m) (hfresh : m.Fresh n) {parent : Option ℕ}
    (hadd : m.addItem n parent = .ok m') : Consistent m' ↔ UsedIDs.NoClash m.usedIDs n.initialised := by
  obtain ⟨hperm, hused⟩ := addItem_items h.distinct hadd
  have hmem : ∀ s : Shape, s.id ≠ -1 →
      (s ∈ m'.items ↔ s ∈ m.items ++ m.usedIDs.assignAll n.initialised) := by
    intro s hs
    rw [hperm.mem_iff, List.mem_append, List.mem_append, mem_tree hfresh.1 hs]
  constructor
  · intro hafter
    apply h.indexed.noClash
    · rw [← hused]
      exact hafter.indexed.congr fun s hs => (hmem s hs).symm
    · rw [addresses, List.map_append, List.nodup_append]
      refine ⟨h.distinct, initialised_nodup hfresh.1, ?_⟩
      rintro a ha b hb rfl
      obtain ⟨t, ht, rfl⟩ := List.mem_map.mp hb
      exact hfresh.2 _ (List.mem_map_of_mem (initialised_subset ht)) ha
  · intro hclash
    refine ⟨(hperm.map _).nodup_iff.mpr (fresh_nodup h.distinct hfresh _), ?_⟩
    rw [hused]
    exact (h.indexed.indexAll hclash).congr hmem

theorem discard_consistent_iff (h : Consistent m) (hfresh : m.Fresh n) : Consistent (m.discard n) ↔
    (n.managed = true → ∀ s ∈ (n.tree m.usedIDs).items, s.id ≠ -1 → s.id ∉ m.usedIDs) := by
  rw [discard]
  split
  · rename_i hmanaged
    rw [hmanaged, imp_iff_right rfl]
    constructor
    · intro hafter s hs hset hused
      obtain ⟨target, hlookup⟩ := Option.isSome_iff_exists.mp (AList.lookup_isSome.mpr hused)
      have hlater := hafter.indexed s.id hset target
      rw [UsedIDs.lookup_eraseAll, if_pos (List.mem_map_of_mem hs)] at hlater
      have hnone : (none : Option (Option ℕ)) = some target := hlater.mpr ((h.indexed s.id hset target).mp hlookup)
      cases hnone
    · intro hfree
      refine ⟨h.distinct, ?_⟩
      intro id hid target
      refine Iff.trans ?_ (h.indexed id hid target)
      rw [UsedIDs.lookup_eraseAll]
      split
      · rename_i hgone
        obtain ⟨s, hs, rfl⟩ := List.mem_map.mp hgone
        rw [AList.lookup_eq_none.mpr (hfree s hs hid)]
      · rename_i hstays
        have hout : id ∉ (m.usedIDs.assignAll n.initialised).map (·.id) := by
          intro hin
          obtain ⟨s, hs, rfl⟩ := List.mem_map.mp hin
          exact hstays (List.mem_map_of_mem ((mem_tree hfresh.1 hid).mpr hs))
        rw [UsedIDs.lookup_indexAll_of_not_mem hout]
  · rename_i hmanaged
    exact iff_of_true h fun hm => absurd hm hmanaged

theorem Consistent.removeItem (h : Consistent m) (hremove : m.removeItem address = .ok m') : Consistent m' := by
  obtain ⟨s, below, -, hperm, hused⟩ := removeItem_items h.distinct hremove
  exact h.of_perm hperm hused

theorem removeConnections_kept {remove : DiagramManager → ℕ → Except Fault DiagramManager}
    {P : DiagramManager → Prop} (hremove : ∀ m a m', P m → remove m a = .ok m' → P m') {lines removed : List ℕ}
    (h : P m) (hall : removeConnections remove lines removed m = .ok m') : P m' := by
  induction lines generalizing m removed with
  | nil => exact Except.ok.inj hall ▸ h
  | cons line lines ih =>
    rw [removeConnections] at hall
    split at hall
    · exact ih h hall
    · obtain ⟨t, ht, hall⟩ := Faults.bind_ok hall
      exact ih (hremove m line t h ht) hall

/-- What every removal of one item keeps, the removal of a shape with its connections keeps. -/
theorem removeNested_kept {P : DiagramManager → Prop}
    (hremove : ∀ m a m', P m → m.removeItem a = .ok m' → P { m' with modified := true }) (fuel : ℕ) (h : P m)
    (hshape : removeNested fuel m address = .ok m') : P m' := by
  induction fuel generalizing m m' address with
  | zero => cases hshape
  | succ fuel ih =>
    rw [removeNested] at hshape
    split at hshape
    · cases hshape
    · obtain ⟨t, hlines, hshape⟩ := Faults.bind_ok hshape
      have ht : P t := removeConnections_kept (fun m a m' hm ha => ih hm ha) h hlines
      cases hitem : t.removeItem address with
      | error fault =>
        rw [hitem] at hshape
        cases hshape
      | ok u =>
        rw [hitem] at hshape
        obtain rfl := Except.ok.inj hshape
        exact hremove t address u ht hitem

theorem Consistent.modify (h : Consistent m) (modified : Bool) : Consistent { m with modified := modified } :=
  ⟨h.distinct, h.indexed⟩

theorem Consistent.removeShape (h : Consistent m) (hremove : m.removeShape address = .ok m') : Consistent m' :=
  removeNested_kept (fun _ _ _ hm hitem => (hm.removeItem hitem).modify true) _ h hremove

theorem removeShapes_kept {P : DiagramManager → Prop}
    (hremove : ∀ m a m', P m → m.removeItem a = .ok m' → P { m' with modified := true }) {selection : List ℕ} (h : P m)
    (hall : m.removeShapes selection = .ok m') : P m' := by
  induction selection generalizing m with
  | nil => exact Except.ok.inj hall ▸ h
  | cons address selection ih =>
    rw [removeShapes] at hall
    split at hall
    · obtain ⟨t, ht, hall⟩ := Faults.bind_ok hall
      exact ih (removeNested_kept hremove _ h ht) hall
    · exact ih h hall

theorem Consistent.removeShapes (h : Consistent m) {selection : List ℕ} (hremove : m.removeShapes selection = .ok m') :
    Consistent m' :=
  removeShapes_kept (fun _ _ _ hm hitem => (hm.removeItem hitem).modify true) h hremove

theorem count_under {f : Forest Shape} (hd : (addresses f.items).Nodup) (g : Forest Shape) :
    f.items.countP (fun s => g.roots.any (located s.address)) ≤ g.roots.length := by
  rw [List.countP_eq_length_filter]
  have hnodup : (addresses (f.items.filter fun s => g.roots.any (located s.address))).Nodup :=
    hd.sublist (List.filter_sublist.map _)
  have hle : (addresses (f.items.filter fun s => g.roots.any (located s.address))).length ≤
      (addresses g.roots).length := by
    apply (List.subperm_of_subset hnodup _).length_le
    intro a ha
    obtain ⟨s, hs, rfl⟩ := List.mem_map.mp ha
    obtain ⟨t, ht, heq⟩ := List.any_eq_true.mp (List.mem_filter.mp hs).2
    have hsame : t.address = s.address := by simpa [located] using heq
    exact hsame ▸ List.mem_map_of_mem ht
  simpa [addresses] using hle

theorem removeChildren_items (hd : (addresses m.items).Nodup) (h : m.removeChildren address = .ok m') :
    ∃ s below, m.children.find (located address) = some (s, below) ∧ m.items.Perm (below.items ++ m'.items) ∧
      m'.usedIDs = m.usedIDs.eraseAll (below.items.map (·.id)) := by
  rw [removeChildren] at h
  split at h
  · cases h
  · rename_i s below hfind
    obtain rfl := Except.ok.inj h
    refine ⟨s, below, hfind, ?_, rfl⟩
    have hperm := Forest.perm_cut (fun s => below.roots.any (located s.address)) m.children
    have hcut := Forest.cut_under hfind (p := fun s => below.roots.any (located s.address))
      (fun b hb => List.any_eq_true.mpr ⟨b, hb, by simp [located]⟩)
      (count_under hd below)
    rwa [hcut] at hperm

theorem Consistent.removeChildren (h : Consistent m) (hremove : m.removeChildren address = .ok m') : Consistent m' := by
  obtain ⟨-, below, -, hperm, hused⟩ := removeChildren_items h.distinct hremove
  exact h.of_perm hperm hused

theorem consistent_clear (m : DiagramManager) : Consistent m.clear := ⟨consistent_new.distinct, consistent_new.indexed⟩

theorem addShape_consistent_iff (h : Consistent m) (hfresh : m.Fresh n) {parent : Option ℕ}
    (hadd : m.addShape n parent = .ok m') : Consistent m' ↔ m.Clashless (.addShape n parent) := by
  rw [addShape] at hadd
  rw [Clashless]
  split at hadd
  · rename_i haccepted
    rw [if_pos haccepted]
    cases hitem : m.addItem n parent with
    | error fault =>
      rw [hitem] at hadd
      cases hadd
    | ok t =>
      rw [hitem] at hadd
      obtain rfl := Except.ok.inj hadd
      rw [← addItem_consistent_iff h hfresh hitem]
      exact ⟨fun ht => ht.modify t.modified, fun ht => ht.modify true⟩
  · rename_i hrefused
    rw [if_neg hrefused]
    obtain rfl := Except.ok.inj hadd
    exact discard_consistent_iff h hfresh

theorem createConnection_consistent_iff (h : Consistent m) (hfresh : m.Fresh n) {source target : ℤ}
    (hcreate : m.createConnection source target n = .ok m') :
    Consistent m' ↔ m.Clashless (.createConnection source target n) := by
  rw [createConnection] at hcreate
  split at hcreate
  · cases hadd : m.addShape n none with
    | error fault =>
      rw [hadd] at hcreate
      cases hcreate
    | ok t =>
      rw [hadd] at hcreate
      obtain rfl := Except.ok.inj hcreate
      exact (setEnds_consistent_iff source target).trans (addShape_consistent_iff h hfresh hadd)
  · exact addShape_consistent_iff h hfresh hcreate

theorem step_cases {e : Event} (h : m.step e = some m') : (∀ n ∈ e.shape, m.Fresh n) ∧ m.perform e = .ok m' := by
  rw [step] at h
  split at h
  · rename_i hfresh
    refine ⟨hfresh, ?_⟩
    cases hperform : m.perform e with
    | error fault =>
      rw [hperform] at h
      cases h
    | ok t =>
      rw [hperform] at h
      exact congrArg _ (Option.some.inj h)
  · cases h

theorem distinct_addItem (hd : (addresses m.items).Nodup) (hfresh : m.Fresh n) {parent : Option ℕ}
    (h : m.addItem n parent = .ok m') : (addresses m'.items).Nodup :=
  ((addItem_items hd h).1.map _).nodup_iff.mpr (fresh_nodup hd hfresh _)

theorem distinct_addShape (hd : (addresses m.items).Nodup) (hfresh : m.Fresh n) {parent : Option ℕ}
    (h : m.addShape n parent = .ok m') : (addresses m'.items).Nodup := by
  rw [addShape] at h
  split at h
  · cases hitem : m.addItem n parent with
    | error fault =>
      rw [hitem] at h
      cases h
    | ok t =>
      rw [hitem] at h
      obtain rfl := Except.ok.inj h
      exact (distinct_addItem hd hfresh hitem : (addresses t.items).Nodup)
  · obtain rfl := Except.ok.inj h
    rw [discard]
    split <;> exact hd

/-- No call brings two live shapes to one address. -/
theorem distinct_step (e : Event) (hd : (addresses m.items).Nodup) (hstep : m.step e = some m') :
    (addresses m'.items).Nodup := by
  obtain ⟨hfresh, hperform⟩ := step_cases hstep
  have hremove : ∀ (m : DiagramManager) (a : ℕ) (m' : DiagramManager), (addresses m.items).Nodup →
      m.removeItem a = .ok m' → (addresses m'.items).Nodup := by
    intro m a m' hm hitem
    obtain ⟨s, below, -, hperm, -⟩ := removeItem_items hm hitem
    exact nodup_of_perm hm hperm
  cases e with
  | addShape n parent => exact distinct_addShape hd (hfresh n rfl) hperform
  | addChild n parent =>
    change m.addItem n (some parent) = .ok m' at hperform
    exact distinct_addItem hd (hfresh n rfl) hperform
  | createConnection source target n =>
    change m.createConnection source target n = .ok m' at hperform
    rw [createConnection] at hperform
    split at hperform
    · cases hadd : m.addShape n none with
      | error fault =>
        rw [hadd] at hperform
        cases hperform
      | ok t =>
        rw [hadd] at hperform
        obtain rfl := Except.ok.inj hperform
        rw [setEnds_items, addresses_map fun s => by split <;> rfl]
        exact distinct_addShape hd (hfresh n rfl) hadd
    · exact distinct_addShape hd (hfresh n rfl) hperform
  | removeShape address => exact removeNested_kept hremove _ hd hperform
  | removeShapes selection => exact removeShapes_kept hremove hd hperform
  | removeChildren address =>
    obtain ⟨-, below, -, hperm, -⟩ := removeChildren_items hd hperform
    exact nodup_of_perm hd hperm
  | clear => exact Except.ok.inj hperform ▸ List.nodup_nil

/-- The step lemma of the index: one call keeps it exact just where no id clashes. -/
theorem step_consistent_iff (e : Event) (h : Consistent m) (hstep : m.step e = some m') :
    Consistent m' ↔ m.Clashless e := by
  obtain ⟨hfresh, hperform⟩ := step_cases hstep
  cases e with
  | addShape n parent => exact addShape_consistent_iff h (hfresh n rfl) hperform
  | addChild n parent =>
    change m.addItem n (some parent) = .ok m' at hperform
    exact addItem_consistent_iff h (hfresh n rfl) hperform
  | createConnection source target n => exact createConnection_consistent_iff h (hfresh n rfl) hperform
  | removeShape address => exact iff_of_true (h.removeShape hperform) trivial
  | removeShapes selection => exact iff_of_true (h.removeShapes hperform) trivial
  | removeChildren address => exact iff_of_true (h.removeChildren hperform) trivial
  | clear => exact iff_of_true (Except.ok.inj hperform ▸ consistent_clear m) trivial

end Kept

/-- Over any calls the index stays exact if and only if no shape ever brings an id that is in use. -/
theorem index_exact_iff (es : List Event) :
    Throughout step Consistent new es ↔ EachStep step (fun m e _ => m.Clashless e) new es := by
  rw [throughout_iff, and_iff_right consistent_new]
  exact eachStep_iff (P := Consistent) (fun _ _ _ _ _ ht => ht)
    (fun _ e _ hs hstep => step_consistent_iff e hs hstep) consistent_new es

theorem consistent_run {es : List Event} (h : EachStep step (fun m e _ => m.Clashless e) new es) :
    Throughout step Consistent new es := by
  rw [throughout_iff, and_iff_right consistent_new]
  exact eachStep_of_condition (P := Consistent) (fun _ _ _ _ _ ht => ht)
    (fun _ e _ hs hstep => (step_consistent_iff e hs hstep).mpr) consistent_new es h

theorem distinct_run {es : List Event} {m : DiagramManager} (h : run step new es = some m) : (addresses m.items).Nodup :=
  throughout_of_kept (I := fun m => (addresses m.items).Nodup) (fun _ e _ hd hstep => distinct_step e hd hstep)
    consistent_new.distinct es es List.prefix_rfl m h

section Lookups

variable {m : DiagramManager}

/-- `_GetItem` from the root: the tree is searched, the root item first. -/
def searchItem (m : DiagramManager) (id : ℤ) : Option (Option ℕ) :=
  if id = -1 then some none else (m.children.find fun s => s.id = id).map fun found => some found.1.address

theorem Consistent.getItem_eq_searchItem (h : Consistent m) {id : ℤ} (hid : id ≠ -1) :
    m.getItem id = m.searchItem id := by
  rw [searchItem, if_neg hid]
  cases hfind : m.children.find fun s => s.id = id with
  | none =>
    rw [getItem, Option.map_none]
    cases hlookup : m.usedIDs.lookup id with
    | none => rfl
    | some target =>
      obtain ⟨s, hs, hsame, -⟩ := (h.indexed id hid target).mp hlookup
      have hnot := Forest.find_eq_none.mp hfind s hs
      simp [hsame] at hnot
  | some found =>
    obtain ⟨s, below⟩ := found
    have hs : s ∈ m.items := (Forest.find_sublist hfind).subset List.mem_cons_self
    have hsame : s.id = id := by simpa using Forest.find_meets hfind
    exact (h.indexed id hid _).mpr ⟨s, hs, hsame, rfl⟩

theorem Consistent.mem_usedIDs (h : Consistent m) {id : ℤ} (hid : id ≠ -1) :
    id ∈ m.usedIDs ↔ ∃ s ∈ m.items, s.id = id := by
  rw [← AList.lookup_isSome, Option.isSome_iff_exists]
  constructor
  · rintro ⟨target, hlookup⟩
    obtain ⟨s, hs, hsame, -⟩ := (h.indexed id hid target).mp hlookup
    exact ⟨s, hs, hsame⟩
  · rintro ⟨s, hs, hsame⟩
    exact ⟨_, (h.indexed id hid _).mpr ⟨s, hs, hsame, rfl⟩⟩

/-- `GetNewId` gives the least id from 1 on that no shape of the diagram has. -/
theorem Consistent.getNewId_least (h : Consistent m) :
    (∀ s ∈ m.items, s.id ≠ m.usedIDs.getNewId) ∧
      ∀ id, 1 ≤ id → id < m.usedIDs.getNewId → ∃ s ∈ m.items, s.id = id := by
  constructor
  · intro s hs hsame
    have hpos := m.usedIDs.getNewId_pos
    exact m.usedIDs.getNewId_not_mem ((h.mem_usedIDs (by omega)).mpr ⟨s, hs, hsame⟩)
  · intro id hpos hlt
    exact (h.mem_usedIDs (by omega)).mp (UsedIDs.mem_of_lt_getNewId hpos hlt)

end Lookups

/-- Where no ids clash, the index answers as a search of the tree does, after every call, and the next id is
the least one that no shape has. -/
theorem lookups_agree (es : List Event) (h : EachStep step (fun m e _ => m.Clashless e) new es) :
    Throughout step (fun m => (∀ id, id ≠ -1 → m.getItem id = m.searchItem id) ∧
      (∀ s ∈ m.items, s.id ≠ m.usedIDs.getNewId) ∧
      ∀ id, 1 ≤ id → id < m.usedIDs.getNewId → ∃ s ∈ m.items, s.id = id) new es := by
  intro before hbefore m hm
  have hconsistent : Consistent m := consistent_run h before hbefore m hm
  exact ⟨fun id hid => hconsistent.getItem_eq_searchItem hid, hconsistent.getNewId_least⟩

/-- Two tables and the foreign key between them, the first table having a title of its own. -/
def someCalls : List Event :=
  [.addShape { shape := { address := 1, className := ['T'] }, below := .single { address := 2, className := ['S'] } .nil }
      none,
    .addShape { shape := { address := 3, className := ['T'] } } none,
    .createConnection 1 3 { shape := { address := 4, className := ['L'], kind := .line (-1) (-1) } },
    .removeShape 1]

theorem lookups_agree_someCalls : Throughout step (fun m => (∀ id, id ≠ -1 → m.getItem id = m.searchItem id) ∧
    (∀ s ∈ m.items, s.id ≠ m.usedIDs.getNewId) ∧
    ∀ id, 1 ≤ id → id < m.usedIDs.getNewId → ∃ s ∈ m.items, s.id = id) new someCalls :=
  lookups_agree someCalls (eachStep_of_before (by decide))

end DiagramManager

end DbHandler.Shapes
