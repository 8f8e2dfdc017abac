import DbHandler.Shapes.Index

namespace DbHandler.Shapes

open Foundation Foundation.Runs

/-- The ends of a line that are set. -/
def Shape.ends (s : Shape) : List ℤ :=
  match s.kind with
  | .line source target => [source, target].filter fun id => id ≠ -1
  | _ => []

theorem Shape.ends_ne {s : Shape} {id : ℤ} (h : id ∈ s.ends) : id ≠ -1 := by
  rw [Shape.ends] at h
  split at h
  · simpa using (List.mem_filter.mp h).2
  · simp at h

theorem Shape.isLine_of_ends {s : Shape} {id : ℤ} (h : id ∈ s.ends) : s.isLine = true := by
  rw [Shape.ends] at h
  split at h
  · rename_i source target hkind
    rw [Shape.isLine, hkind]
  · simp at h

theorem Shape.assigned_iff {s : Shape} {id : ℤ} (hid : id ≠ -1) : s.assigned .lineBoth id = true ↔ id ∈ s.ends := by
  rw [Shape.ends]
  cases h : s.kind with
  | line source target =>
    simp only [Shape.assigned, h, Bool.or_eq_true, decide_eq_true_eq, List.mem_filter, List.mem_cons, List.not_mem_nil,
      or_false]
    rw [and_iff_left hid]
    exact or_congr eq_comm eq_comm
  | grid cells => simp [Shape.assigned, h]
  | other => simp [Shape.assigned, h]

namespace DiagramManager

open NewShape

def ends (m : DiagramManager) : List ℤ := m.children.roots.flatMap Shape.ends

/-- One shape and no other has the id, it is found by the id, and it is no part of a line. -/
def Carried (m : DiagramManager) (id : ℤ) : Prop :=
  (m.items.map (·.id)).count id = 1 ∧
    ∃ t ∈ (m.children.prune Shape.isLine).items, t.id = id ∧ m.usedIDs.lookup id = some (some t.address)

instance (m : DiagramManager) (id : ℤ) : Decidable (m.Carried id) := inferInstanceAs (Decidable (_ ∧ _))

/-- Lines are children of the root item, and every end that is set is the id of a shape. -/
structure Attached (m : DiagramManager) : Prop where
  distinct : (addresses m.items).Nodup
  top : ∀ s ∈ m.items, s.isLine = true → s ∈ m.children.roots
  carried : ∀ id ∈ m.ends, m.Carried id

theorem attached_new : Attached new where
  distinct := List.nodup_nil
  top := fun _ hs => (List.not_mem_nil hs).elim
  carried := fun _ hid => (List.not_mem_nil hid).elim

section Removal

variable {m m' : DiagramManager} {address : ℕ} {s : Shape} {below : Forest Shape}

theorem mem_ends {id : ℤ} : id ∈ m.ends ↔ ∃ line ∈ m.children.roots, id ∈ line.ends := List.mem_flatMap

theorem mem_connectionsOf {a : ℕ} : a ∈ m.connectionsOf s below ↔
    ∃ line ∈ m.children.roots, (∃ u ∈ s :: below.items, u.id ∈ line.ends) ∧ line.address = a := by
  have hmem : ∀ u, u ∈ below.levels ++ [s] ↔ u ∈ s :: below.items := by
    intro u
    rw [List.mem_append, Forest.mem_levels, List.mem_singleton, List.mem_cons, or_comm]
  simp only [connectionsOf, List.mem_flatMap, hmem, List.mem_map, assignedConnections]
  constructor
  · rintro ⟨u, hu, line, hline, rfl⟩
    split at hline
    · simp at hline
    · rename_i hid
      obtain ⟨hroot, hassigned⟩ := List.mem_filter.mp hline
      exact ⟨line, hroot, ⟨u, hu, (Shape.assigned_iff hid).mp hassigned⟩, rfl⟩
  · rintro ⟨line, hroot, ⟨u, hu, hend⟩, rfl⟩
    have hid := Shape.ends_ne hend
    refine ⟨u, hu, line, ?_, rfl⟩
    rw [if_neg hid]
    exact List.mem_filter.mpr ⟨hroot, (Shape.assigned_iff hid).mpr hend⟩

theorem find_of_mem (hd : (addresses m.items).Nodup) (hs : s ∈ m.items) :
    ∃ below, m.children.find (located s.address) = some (s, below) := by
  cases hfind : m.children.find (located s.address) with
  | none =>
    have hnot := Forest.find_eq_none.mp hfind s hs
    simp [located] at hnot
  | some found =>
    obtain ⟨t, below⟩ := found
    have hsame : t.address = s.address := by simpa [located] using Forest.find_meets hfind
    have ht : t ∈ m.items := (Forest.find_sublist hfind).subset List.mem_cons_self
    obtain rfl := List.inj_on_of_nodup_map hd ht hs hsame
    exact ⟨below, rfl⟩

theorem ends_prune (p : Shape → Bool) {m' : DiagramManager} (hchildren : m'.children = m.children.prune p) {id : ℤ}
    (h : id ∈ m'.ends) : id ∈ m.ends := by
  obtain ⟨line, hline, hid⟩ := mem_ends.mp h
  rw [hchildren, Forest.roots_prune] at hline
  exact mem_ends.mpr ⟨line, (List.mem_filter.mp hline).1, hid⟩

/-- Trees may go when no line that stays has an end in them. -/
theorem Attached.cut (h : Attached m) {p : Shape → Bool} {ids : List ℤ} (hchildren : m'.children = m.children.prune p)
    (hused : m'.usedIDs = m.usedIDs.eraseAll ids) (hids : ∀ id ∈ ids, id ∈ (m.children.cut p).map (·.id))
    (hends : ∀ id ∈ m'.ends, id ∉ (m.children.cut p).map (·.id)) : Attached m' where
  distinct := by
    rw [items, hchildren]
    exact h.distinct.sublist ((Forest.items_prune_sublist p m.children).map _)
  top := by
    intro s hs hline
    rw [items, hchildren] at hs
    rw [hchildren, Forest.roots_prune]
    have hroot := h.top s ((Forest.items_prune_sublist p m.children).subset hs) hline
    exact List.mem_filter.mpr ⟨hroot, by simp [Forest.mem_prune hs]⟩
  carried := by
    intro id hid
    have hout := hends id hid
    obtain ⟨hcount, t, ht, rfl, hlookup⟩ := h.carried id (ends_prune p hchildren hid)
    refine ⟨?_, t, ?_, rfl, ?_⟩
    · have hperm := ((Forest.perm_cut p m.children).map (·.id)).count_eq t.id
      rw [List.map_append, List.count_append, List.count_eq_zero_of_not_mem hout, Nat.zero_add] at hperm
      rw [items, hchildren, ← hperm]
      exact hcount
    · rw [hchildren, Forest.prune_prune,
        Forest.prune_congr (q := fun a => a.isLine || p a) fun a _ => Bool.or_comm _ _, ← Forest.prune_prune]
      rcases List.mem_append.mp ((Forest.perm_cut p (m.children.prune Shape.isLine)).mem_iff.mp ht) with hcut | hkept
      · exact absurd (List.mem_map_of_mem (Forest.cut_prune_subset p _ _ hcut)) hout
      · exact hkept
    · rw [hused, UsedIDs.lookup_eraseAll, if_neg fun hmem => hout (hids _ hmem)]
      exact hlookup

theorem Attached.cut_line (h : Attached m) {line : Shape} (hline : line ∈ m.items) (hkind : line.isLine = true) :
    m.children.cut (located line.address) ⊆ m.children.cut Shape.isLine := by
  apply Forest.cut_mono
  intro a ha hlocated
  have hsame : a.address = line.address := by simpa [located] using hlocated
  rwa [List.inj_on_of_nodup_map h.distinct ha hline hsame]

/-- No line has an end in a line. -/
theorem Attached.not_end (h : Attached m) {u : Shape} (hu : u ∈ m.children.cut Shape.isLine) : u.id ∉ m.ends := by
  intro hend
  obtain ⟨hcount, t, ht, hid, -⟩ := h.carried _ hend
  have hperm := ((Forest.perm_cut Shape.isLine m.children).map (·.id)).count_eq u.id
  have hin : 0 < ((m.children.cut Shape.isLine).map (·.id)).count u.id := List.count_pos_iff.mpr (List.mem_map_of_mem hu)
  have hbeside : 0 < (((m.children.prune Shape.isLine).items).map (·.id)).count u.id :=
    List.count_pos_iff.mpr (hid ▸ List.mem_map_of_mem ht)
  rw [List.map_append, List.count_append] at hperm
  rw [items] at hcount
  omega

theorem removeItem_eq (hfind : m.children.find (located address) = some (s, below)) :
    m.removeItem address = .ok { m with
      children := m.children.prune (located address)
      usedIDs := m.usedIDs.eraseAll ((s :: below.items).map (·.id)) } := by
  rw [removeItem, hfind]

theorem removeNested_eq (hfind : m.children.find (located address) = some (s, below)) (fuel : ℕ) :
    removeNested (fuel + 1) m address =
      (removeConnections (removeNested fuel) (m.connectionsOf s below) [] m).bind fun m =>
        (m.removeItem address).map fun m => { m with modified := true } := by
  rw [removeNested, hfind]

theorem connectionsOf_line (h : Attached m) (hline : s ∈ m.items) (hkind : s.isLine = true)
    (hfind : m.children.find (located s.address) = some (s, below)) : m.connectionsOf s below = [] := by
  apply List.eq_nil_iff_forall_not_mem.mpr
  intro a ha
  obtain ⟨line, hroot, ⟨u, hu, hend⟩, -⟩ := mem_connectionsOf.mp ha
  rw [← Forest.cut_of_find (single_located h.distinct _) hfind] at hu
  exact h.not_end (h.cut_line hline hkind hu) (mem_ends.mpr ⟨line, hroot, hend⟩)

/-- Removing a line takes its own tree only. -/
theorem removeNested_line (h : Attached m) (hline : s ∈ m.items) (hkind : s.isLine = true) (fuel : ℕ) :
    ∃ m', removeNested (fuel + 1) m s.address = .ok m' ∧ m'.children = m.children.prune (located s.address) ∧
      Attached m' := by
  obtain ⟨below, hfind⟩ := find_of_mem h.distinct hline
  have hcut := Forest.cut_of_find (single_located h.distinct _) hfind
  refine ⟨{ m with
    children := m.children.prune (located s.address)
    usedIDs := m.usedIDs.eraseAll ((s :: below.items).map (·.id))
    modified := true }, ?_, rfl, ?_⟩
  · rw [removeNested_eq hfind, connectionsOf_line h hline hkind hfind]
    show (m.removeItem s.address).map _ = _
    rw [removeItem_eq hfind]
    rfl
  · refine h.cut rfl rfl (fun id hid => hcut ▸ hid) ?_
    intro id hid hgone
    obtain ⟨u, hu, rfl⟩ := List.mem_map.mp hgone
    exact h.not_end (h.cut_line hline hkind hu) (ends_prune _ rfl hid)

theorem removeConnections_lines {lines removed : List ℕ} (h : Attached m) (fuel : ℕ)
    (hlines : ∀ a ∈ lines, a ∉ removed → ∃ line ∈ m.children.roots, line.isLine = true ∧ line.address = a) :
    ∃ m', removeConnections (removeNested (fuel + 1)) lines removed m = .ok m' ∧ Attached m' ∧
      m'.children = m.children.prune fun t => decide (t.address ∈ lines) && !decide (t.address ∈ removed) := by
  induction lines generalizing m removed with
  | nil => exact ⟨m, rfl, h, (Forest.prune_eq_self fun a _ => by simp).symm⟩
  | cons line lines ih =>
    rw [removeConnections]
    split
    · rename_i hremoved
      obtain ⟨m', hok, hattached, hchildren⟩ := ih h fun a ha hout => hlines a (List.mem_cons_of_mem _ ha) hout
      refine ⟨m', hok, hattached, hchildren.trans (Forest.prune_congr fun t _ => ?_)⟩
      by_cases heq : t.address = line
      · simp [heq, hremoved]
      · simp [heq]
    · rename_i hremoved
      obtain ⟨s, hroot, hkind, rfl⟩ := hlines line List.mem_cons_self hremoved
      obtain ⟨t, hok, hchildren, hattached⟩ := removeNested_line h (Forest.roots_subset hroot) hkind fuel
      have hrest : ∀ a ∈ lines, a ∉ removed ++ [s.address] →
          ∃ line ∈ t.children.roots, line.isLine = true ∧ line.address = a := by
        intro a ha hout
        rw [List.mem_append, not_or, List.mem_singleton] at hout
        obtain ⟨u, hu, hline, rfl⟩ := hlines a (List.mem_cons_of_mem _ ha) hout.1
        refine ⟨u, ?_, hline, rfl⟩
        rw [hchildren, Forest.roots_prune]
        exact List.mem_filter.mpr ⟨hu, by simpa [located] using hout.2⟩
      obtain ⟨m', hall, hdone, hleft⟩ := ih hattached hrest
      refine ⟨m', by rw [hok]; exact hall, hdone, ?_⟩
      rw [hleft, hchildren, Forest.prune_prune]
      apply Forest.prune_congr
      intro u _
      by_cases heq : u.address = s.address
      · simp [located, heq, hremoved]
      · simp [located, heq]

/-- The lines with an end in a tree. -/
def attachedTo (s : Shape) (below : Forest Shape) (line : Shape) : Bool :=
  (s :: below.items).any fun u => decide (u.id ∈ line.ends)

/-- Removing a shape takes its tree and the trees of the lines that end in it, and nothing else. -/
theorem removeShape_attached (h : Attached m) (hs : s ∈ m.items) :
    ∃ below m', m.children.find (located s.address) = some (s, below) ∧ m.removeShape s.address = .ok m' ∧ Attached m' ∧
      m'.children = m.children.prune fun t => located s.address t || attachedTo s below t := by
  obtain ⟨below, hfind⟩ := find_of_mem h.distinct hs
  have hlines : ∀ a ∈ m.connectionsOf s below, a ∉ ([] : List ℕ) →
      ∃ line ∈ m.children.roots, line.isLine = true ∧ line.address = a := by
    intro a ha _
    obtain ⟨line, hroot, ⟨u, -, hend⟩, rfl⟩ := mem_connectionsOf.mp ha
    exact ⟨line, hroot, Shape.isLine_of_ends hend, rfl⟩
  have hsize : ∃ fuel, m.items.length = fuel + 1 := Nat.exists_eq_succ_of_ne_zero (by
    have hpos := List.length_pos_of_mem hs
    omega)
  obtain ⟨fuel, hfuel⟩ := hsize
  obtain ⟨t, hok, hattached, hchildren⟩ := removeConnections_lines h fuel hlines
  have hpred : ∀ u ∈ m.items, (decide (u.address ∈ m.connectionsOf s below) && !decide (u.address ∈ ([] : List ℕ))) =
      attachedTo s below u := by
    intro u hu
    simp only [List.not_mem_nil, decide_false, Bool.not_false, Bool.and_true]
    rw [attachedTo, Bool.eq_iff_iff, decide_eq_true_eq, mem_connectionsOf, List.any_eq_true]
    simp only [decide_eq_true_eq]
    constructor
    · rintro ⟨line, hroot, hends, haddress⟩
      rwa [List.inj_on_of_nodup_map h.distinct (Forest.roots_subset hroot) hu haddress] at hends
    · rintro ⟨v, hv, hend⟩
      exact ⟨u, h.top u hu (Shape.isLine_of_ends hend), ⟨v, hv, hend⟩, rfl⟩
  rw [Forest.prune_congr hpred] at hchildren
  have hline : m.children.cut (attachedTo s below) ⊆ m.children.cut Shape.isLine := by
    apply Forest.cut_mono
    intro u _ hu
    obtain ⟨v, -, hend⟩ := List.any_eq_true.mp hu
    exact Shape.isLine_of_ends (of_decide_eq_true hend)
  have hstays : ∀ b ∈ m.children.cut (attachedTo s below), located s.address b = false := by
    intro b hb
    by_contra hlocated
    rw [Bool.not_eq_false] at hlocated
    have hsame : b.address = s.address := by simpa [located] using hlocated
    obtain rfl := List.inj_on_of_nodup_map h.distinct (Forest.cut_subset _ _ hb) hs hsame
    have hgone : ∀ c ∈ (m.children.prune Shape.isLine).items, located b.address c = false := by
      intro c hc
      by_contra hloc
      rw [Bool.not_eq_false] at hloc
      have hperm := (Forest.perm_cut Shape.isLine m.children).map (·.address)
      rw [List.map_append] at hperm
      have hnodup := hperm.nodup_iff.mp h.distinct
      exact (List.nodup_append.mp hnodup).2.2 _ (List.mem_map_of_mem (hline hb)) _ (List.mem_map_of_mem hc)
        (by simpa [located, eq_comm] using hloc)
    have htree := Forest.tree_subset_cut hfind (single_located h.distinct _) hgone
    have hcut : m.children.cut (attachedTo b below) ≠ [] := List.ne_nil_of_mem hb
    obtain ⟨u, hu, hattach⟩ : ∃ u ∈ m.items, attachedTo b below u = true := by
      by_contra hnone
      simp only [not_exists, not_and, Bool.not_eq_true] at hnone
      exact hcut (Forest.cut_eq_nil hnone)
    obtain ⟨v, hv, hend⟩ := List.any_eq_true.mp hattach
    have hend := of_decide_eq_true hend
    exact h.not_end (htree hv) (mem_ends.mpr ⟨u, h.top u hu (Shape.isLine_of_ends hend), hend⟩)
  have hfound := Forest.find_prune hfind hstays
  rw [← hchildren] at hfound
  have hcut := Forest.cut_of_find (single_located hattached.distinct _) hfound
  refine ⟨below, { t with
    children := t.children.prune (located s.address)
    usedIDs := t.usedIDs.eraseAll ((s :: (below.prune (attachedTo s below)).items).map (·.id))
    modified := true }, hfind, ?_, ?_, ?_⟩
  · rw [removeShape, hfuel, removeNested_eq hfind, hok]
    show (t.removeItem s.address).map _ = _
    rw [removeItem_eq hfound]
    rfl
  · refine hattached.cut rfl rfl (fun id hid => hcut ▸ hid) ?_
    intro id hid hgone
    rw [hcut] at hgone
    obtain ⟨v, hv, rfl⟩ := List.mem_map.mp hgone
    obtain ⟨line, hroot, hend⟩ := mem_ends.mp (ends_prune _ rfl hid)
    rw [hchildren, Forest.roots_prune] at hroot
    have hv : v ∈ s :: below.items :=
      List.mem_cons.mpr ((List.mem_cons.mp hv).imp_right fun hv => (Forest.items_prune_sublist _ _).subset hv)
    have hattach : attachedTo s below line = true := List.any_eq_true.mpr ⟨v, hv, decide_eq_true hend⟩
    simpa [hattach] using (List.mem_filter.mp hroot).2
  · show t.children.prune (located s.address) = _
    rw [hchildren, Forest.prune_prune]
    exact Forest.prune_congr fun u _ => Bool.or_comm _ _

end Removal

section Addition

variable {m m' : DiagramManager} {n : NewShape} {used : UsedIDs} {id : ℤ} {parent : Option ℕ}

theorem mem_assignAll {shapes : List Shape} {t : Shape} (h : t ∈ used.assignAll shapes) :
    ∃ x ∈ shapes, ∃ id, t = { x with id := id } := by
  induction shapes generalizing used with
  | nil => simp [UsedIDs.assignAll] at h
  | cons s shapes ih =>
    rcases List.mem_cons.mp h with rfl | h
    · exact ⟨s, List.mem_cons_self, _, rfl⟩
    · obtain ⟨x, hx, hid⟩ := ih h
      exact ⟨x, List.mem_cons_of_mem _ hx, hid⟩

theorem not_mem_assignAll {shapes : List Shape} (hused : id ∈ used) (hids : ∀ s ∈ shapes, s.id ≠ id) :
    id ∉ (used.assignAll shapes).map (·.id) := by
  induction shapes generalizing used with
  | nil => simp [UsedIDs.assignAll]
  | cons s shapes ih =>
    rw [UsedIDs.assignAll, List.map_cons, List.mem_cons, not_or]
    refine ⟨?_, ih (UsedIDs.mem_indexed.mpr (.inr hused)) fun t ht => hids t (List.mem_cons_of_mem _ ht)⟩
    rw [UsedIDs.assignedId]
    split
    · rintro rfl
      exact used.getNewId_not_mem hused
    · exact (hids s List.mem_cons_self).symm

/-- A shape keeps all but its id when it is initialised. -/
theorem identify_cases (used : UsedIDs) (h : (addresses n.items).Nodup) {x : Shape} (hx : x ∈ n.items) :
    ∃ id, identify (used.assignAll n.initialised) x = { x with id := id } ∧
      (id = x.id ∨ id ∈ (used.assignAll n.initialised).map (·.id)) := by
  rw [identify]
  cases hfind : (used.assignAll n.initialised).find? fun t => t.address = x.address with
  | none => exact ⟨x.id, rfl, .inl rfl⟩
  | some t =>
    have ht := List.mem_of_find?_eq_some hfind
    have haddress : t.address = x.address := by simpa using List.find?_some hfind
    obtain ⟨y, hy, id, rfl⟩ := mem_assignAll ht
    obtain rfl := List.inj_on_of_nodup_map h (initialised_subset hy) hx haddress
    exact ⟨id, rfl, .inr (List.mem_map_of_mem ht)⟩

theorem mem_tree_items {s : Shape} : s ∈ (n.tree used).items ↔
    ∃ x ∈ n.items, identify (used.assignAll n.initialised) x = s := by
  rw [tree, Forest.items_map, Forest.items_single, List.mem_map]
  rfl

theorem not_mem_tree (h : (addresses n.items).Nodup) (hused : id ∈ used) (hids : ∀ s ∈ n.items, s.id ≠ id) :
    id ∉ (n.tree used).items.map (·.id) := by
  intro hmem
  obtain ⟨s, hs, rfl⟩ := List.mem_map.mp hmem
  obtain ⟨x, hx, rfl⟩ := mem_tree_items.mp hs
  obtain ⟨i, heq, hi⟩ := identify_cases used h hx
  rw [heq] at hused hids
  rcases hi with rfl | hi
  · exact hids x hx rfl
  · exact not_mem_assignAll hused (fun t ht => hids t (initialised_subset ht)) hi

theorem Carried.mem_used (h : m.Carried id) : id ∈ m.usedIDs := by
  obtain ⟨-, t, -, -, hlookup⟩ := h
  exact AList.lookup_isSome.mp (by rw [hlookup]; rfl)

theorem Carried.addItem (h : m.Carried id) (hd : (addresses m.items).Nodup) (hfresh : (addresses n.items).Nodup)
    (hids : ∀ s ∈ n.items, s.id ≠ id) (hadd : m.addItem n parent = .ok m') : m'.Carried id := by
  have hused := h.mem_used
  obtain ⟨hperm, hindex⟩ := addItem_items hd hadd
  obtain ⟨hcount, t, ht, hid, hlookup⟩ := h
  refine ⟨?_, t, ?_, hid, ?_⟩
  · rw [(hperm.map _).count_eq, List.map_append, List.count_append,
      List.count_eq_zero_of_not_mem (not_mem_tree hfresh hused hids), hcount]
  · cases parent with
    | none =>
      obtain rfl := Except.ok.inj hadd
      show t ∈ ((m.children.append (n.tree m.usedIDs)).prune Shape.isLine).items
      rw [Forest.prune_append, Forest.items_append]
      exact List.mem_append_left _ ht
    | some p =>
      rw [DiagramManager.addItem] at hadd
      split at hadd
      · obtain rfl := Except.ok.inj hadd
        exact Forest.prune_hang_subset _ _ _ _ ht
      · cases hadd
  · rw [hindex, UsedIDs.lookup_indexAll_of_not_mem
      (not_mem_assignAll hused fun s hs => hids s (initialised_subset hs))]
    exact hlookup

theorem addItem_roots (hadd : m.addItem n parent = .ok m') : m'.children.roots = m.children.roots ++
    if parent = none then [identify (m.usedIDs.assignAll n.initialised) n.shape] else [] := by
  cases parent with
  | none =>
    obtain rfl := Except.ok.inj hadd
    simp [tree, Forest.single, Forest.map]
  | some p =>
    rw [DiagramManager.addItem] at hadd
    split at hadd
    · obtain rfl := Except.ok.inj hadd
      simp [Forest.roots_hang]
    · cases hadd

/-- New shapes come with no lines under them, and lines come without a parent. -/
structure Joins (m : DiagramManager) (n : NewShape) (parent : Option ℕ) (ends : List ℤ) : Prop where
  fresh : m.Fresh n
  live : ∀ p ∈ parent, ∃ s ∈ m.items, s.address = p
  plain : ∀ s ∈ n.below.items, s.isLine = false
  top : n.shape.isLine = true → parent = none
  apart : ∀ s ∈ n.items, s.id ∉ m.ends ∧ s.id ∉ ends
  carried : ∀ id ∈ ends, m.Carried id

theorem joins_iff {ends : List ℤ} : m.Joins n parent ends ↔
    m.Fresh n ∧ (∀ p ∈ parent, ∃ s ∈ m.items, s.address = p) ∧ (∀ s ∈ n.below.items, s.isLine = false) ∧
      (n.shape.isLine = true → parent = none) ∧ (∀ s ∈ n.items, s.id ∉ m.ends ∧ s.id ∉ ends) ∧
      ∀ id ∈ ends, m.Carried id := by
  constructor
  · intro h
    exact ⟨h.fresh, h.live, h.plain, h.top, h.apart, h.carried⟩
  · rintro ⟨hfresh, hlive, hplain, htop, hapart, hcarried⟩
    exact ⟨hfresh, hlive, hplain, htop, hapart, hcarried⟩

instance (ends : List ℤ) : Decidable (m.Joins n parent ends) := decidable_of_iff _ joins_iff.symm

theorem Joins.addItem {ends : List ℤ} (h : m.Joins n parent ends) : ∃ m', m.addItem n parent = .ok m' := by
  cases parent with
  | none => exact ⟨_, rfl⟩
  | some p =>
    obtain ⟨s, hs, rfl⟩ := h.live p rfl
    rw [DiagramManager.addItem, if_pos (List.any_eq_true.mpr ⟨s, hs, by simp [located]⟩)]
    exact ⟨_, rfl⟩

theorem Joins.top_addItem {ends : List ℤ} (hn : m.Joins n parent ends) (h : Attached m)
    (hadd : m.addItem n parent = .ok m') {s : Shape} (hs : s ∈ m'.items) (hline : s.isLine = true) :
    s ∈ m'.children.roots := by
  rw [addItem_roots hadd]
  rcases List.mem_append.mp ((addItem_items h.distinct hadd).1.mem_iff.mp hs) with hs | hs
  · exact List.mem_append_left _ (h.top s hs hline)
  · apply List.mem_append_right
    obtain ⟨x, hx, rfl⟩ := mem_tree_items.mp hs
    obtain ⟨i, heq, -⟩ := identify_cases m.usedIDs hn.fresh.1 hx
    have hkind : x.isLine = true := by rwa [heq] at hline
    rcases List.mem_cons.mp hx with rfl | hx
    · rw [if_pos (hn.top hkind)]
      exact List.mem_singleton_self _
    · rw [hn.plain x hx] at hkind
      cases hkind

theorem Joins.distinct_addItem {ends : List ℤ} (hn : m.Joins n parent ends) (h : Attached m)
    (hadd : m.addItem n parent = .ok m') : (addresses m'.items).Nodup :=
  DiagramManager.distinct_addItem h.distinct hn.fresh hadd

theorem Attached.addItem (h : Attached m) (hn : m.Joins n parent n.shape.ends) (hadd : m.addItem n parent = .ok m') :
    Attached m' where
  distinct := hn.distinct_addItem h hadd
  top := fun _ hs hline => hn.top_addItem h hadd hs hline
  carried := by
    intro id hid
    obtain ⟨line, hroot, hend⟩ := mem_ends.mp hid
    rw [addItem_roots hadd] at hroot
    rcases List.mem_append.mp hroot with hroot | hroot
    · have hold := mem_ends.mpr ⟨line, hroot, hend⟩
      exact (h.carried id hold).addItem h.distinct hn.fresh.1 (fun s hs heq => (hn.apart s hs).1 (heq ▸ hold)) hadd
    · split at hroot
      · obtain rfl := List.mem_singleton.mp hroot
        obtain ⟨i, heq, -⟩ := identify_cases m.usedIDs hn.fresh.1 List.mem_cons_self
        rw [heq] at hend
        have hnew : id ∈ n.shape.ends := hend
        exact (hn.carried id hnew).addItem h.distinct hn.fresh.1
          (fun s hs heq => (hn.apart s hs).2 (heq ▸ hnew)) hadd
      · simp at hroot

theorem Attached.modify (h : Attached m) (modified : Bool) : Attached { m with modified := modified } :=
  ⟨h.distinct, h.top, h.carried⟩

theorem Attached.discard (h : Attached m) {ends : List ℤ} (hn : m.Joins n parent ends) : Attached (m.discard n) := by
  rw [DiagramManager.discard]
  split
  · refine ⟨h.distinct, h.top, fun id hid => ?_⟩
    have hused := (h.carried id hid).mem_used
    obtain ⟨hcount, t, ht, htid, hlookup⟩ := h.carried id hid
    have hids : ∀ s ∈ n.items, s.id ≠ id := fun s hs heq => (hn.apart s hs).1 (heq ▸ hid)
    refine ⟨hcount, t, ht, htid, ?_⟩
    rw [UsedIDs.lookup_eraseAll, if_neg (not_mem_tree hn.fresh.1 hused hids), UsedIDs.lookup_indexAll_of_not_mem
      (not_mem_assignAll hused fun s hs => hids s (initialised_subset hs))]
    exact hlookup
  · exact h

theorem Attached.addShape (h : Attached m) (hn : m.Joins n parent n.shape.ends) :
    ∃ m', m.addShape n parent = .ok m' ∧ Attached m' := by
  rw [DiagramManager.addShape]
  split
  · obtain ⟨t, ht⟩ := hn.addItem
    exact ⟨_, by rw [ht]; rfl, (h.addItem hn ht).modify true⟩
  · exact ⟨_, rfl, h.discard hn⟩

def setEnd (address : ℕ) (source target : ℤ) (s : Shape) : Shape :=
  if located address s then { s with kind := .line source target } else s

theorem setEnd_id (address : ℕ) (source target : ℤ) (s : Shape) : (setEnd address source target s).id = s.id := by
  rw [setEnd]
  split <;> rfl

theorem setEnd_address (address : ℕ) (source target : ℤ) (s : Shape) :
    (setEnd address source target s).address = s.address := by
  rw [setEnd]
  split <;> rfl

theorem setEnd_isLine {address : ℕ} {source target : ℤ} {s : Shape} (h : located address s = true → s.isLine = true) :
    (setEnd address source target s).isLine = s.isLine := by
  rw [setEnd]
  split
  · rename_i hlocated
    rw [h hlocated]
    rfl
  · rfl

/-- A line that is joined to two shapes: it is added without a parent and then told its ends. -/
theorem Attached.createConnection (h : Attached m) {source target : ℤ} (hline : n.shape.isLine = true)
    (hn : m.Joins n none ([source, target].filter fun id => id ≠ -1)) :
    ∃ m', m.createConnection source target n = .ok m' ∧ Attached m' := by
  rw [DiagramManager.createConnection]
  by_cases haccepted : m.accepts n none
  · obtain ⟨t, hadd⟩ := hn.addItem
    rw [if_pos haccepted, DiagramManager.addShape, if_pos haccepted, hadd]
    refine ⟨_, rfl, ?_⟩
    have hitems : (setEnds n.shape.address source target { t with modified := true }).items =
        t.items.map (setEnd n.shape.address source target) := Forest.items_map _ _
    have hroots : (setEnds n.shape.address source target { t with modified := true }).children.roots =
        t.children.roots.map (setEnd n.shape.address source target) := Forest.roots_map _ _
    have hdistinct := hn.distinct_addItem h hadd
    obtain ⟨i, heq, -⟩ := identify_cases m.usedIDs hn.fresh.1 (x := n.shape) List.mem_cons_self
    have hnew : identify (m.usedIDs.assignAll n.initialised) n.shape ∈ t.children.roots := by
      rw [addItem_roots hadd, if_pos rfl]
      exact List.mem_append_right _ (List.mem_singleton_self _)
    have honly : ∀ s ∈ t.items, located n.shape.address s = true → s.isLine = true := by
      intro s hs hlocated
      have hsame : s.address = n.shape.address := by simpa [located] using hlocated
      rw [List.inj_on_of_nodup_map hdistinct hs (Forest.roots_subset hnew) (by rw [heq]; exact hsame), heq]
      exact hline
    have hkept : ∀ id, t.Carried id →
        (setEnds n.shape.address source target { t with modified := true }).Carried id := by
      rintro id ⟨hcount, u, hu, hid, hlookup⟩
      refine ⟨?_, setEnd n.shape.address source target u, ?_, by rw [setEnd_id, hid], by rw [setEnd_address]; exact hlookup⟩
      · rw [hitems, List.map_map]
        convert hcount using 3
        exact funext fun s => setEnd_id _ _ _ s
      · show _ ∈ ((t.children.map (setEnd n.shape.address source target)).prune Shape.isLine).items
        rw [Forest.map_prune, Forest.prune_congr fun s hs => setEnd_isLine (honly s hs), Forest.items_map]
        exact List.mem_map_of_mem hu
    refine ⟨?_, ?_, ?_⟩
    · rw [hitems, addresses_map (setEnd_address _ _ _)]
      exact hdistinct
    · intro s hs hkind
      rw [hitems] at hs
      obtain ⟨x, hx, rfl⟩ := List.mem_map.mp hs
      rw [setEnd_isLine (honly x hx)] at hkind
      rw [hroots]
      exact List.mem_map_of_mem (hn.top_addItem h hadd hx hkind)
    · intro id hid
      obtain ⟨line, hroot, hend⟩ := mem_ends.mp hid
      rw [hroots] at hroot
      obtain ⟨x, hx, rfl⟩ := List.mem_map.mp hroot
      apply hkept
      by_cases hlocated : located n.shape.address x = true
      · rw [setEnd, if_pos hlocated] at hend
        have hmem : id ∈ [source, target].filter fun id => id ≠ -1 := hend
        exact (hn.carried id hmem).addItem h.distinct hn.fresh.1 (fun s hs heq => (hn.apart s hs).2 (heq ▸ hmem)) hadd
      · rw [setEnd, if_neg hlocated] at hend
        rw [addItem_roots hadd, if_pos rfl] at hx
        rcases List.mem_append.mp hx with hx | hx
        · have hold := mem_ends.mpr ⟨x, hx, hend⟩
          exact (h.carried id hold).addItem h.distinct hn.fresh.1 (fun s hs heq => (hn.apart s hs).1 (heq ▸ hold)) hadd
        · obtain rfl := List.mem_singleton.mp hx
          rw [heq] at hlocated
          exact absurd (by simp [located]) hlocated
  · rw [if_neg haccepted, DiagramManager.addShape, if_neg haccepted]
    exact ⟨_, rfl, h.discard hn⟩

end Addition

section RunsOfCalls

variable {m m' : DiagramManager}

theorem Attached.removeShapes (h : Attached m) (selection : List ℕ) :
    ∃ m', m.removeShapes selection = .ok m' ∧ Attached m' := by
  induction selection generalizing m with
  | nil => exact ⟨m, rfl, h⟩
  | cons address selection ih =>
    rw [DiagramManager.removeShapes]
    split
    · rename_i hlive
      obtain ⟨s, hs, hlocated⟩ := List.any_eq_true.mp hlive
      obtain rfl : s.address = address := by simpa [located] using hlocated
      obtain ⟨-, t, -, hok, hattached, -⟩ := removeShape_attached h hs
      obtain ⟨m', hall, hdone⟩ := ih hattached
      exact ⟨m', by rw [hok]; exact hall, hdone⟩
    · exact ih h

/-- What callers of the manager see to. -/
def Proper (m : DiagramManager) : Event → Prop
  | .addShape n parent => m.Joins n parent n.shape.ends
  | .addChild n parent => m.Joins n (some parent) n.shape.ends
  | .createConnection source target line =>
    line.shape.isLine = true ∧ m.Joins line none ([source, target].filter fun id => id ≠ -1)
  | .removeShape address => ∃ s ∈ m.items, s.address = address
  | .removeShapes _ => True
  | .removeChildren address =>
    ∃ found ∈ m.children.find (located address), ∀ s ∈ found.2.items, s.id ∉ m.ends
  | .clear => True

instance (m : DiagramManager) : ∀ e : Event, Decidable (m.Proper e)
  | .addShape _ _ => inferInstanceAs (Decidable (Joins _ _ _ _))
  | .addChild _ _ => inferInstanceAs (Decidable (Joins _ _ _ _))
  | .createConnection _ _ _ => inferInstanceAs (Decidable (_ ∧ _))
  | .removeShape address => inferInstanceAs (Decidable (∃ s ∈ m.items, s.address = address))
  | .removeShapes _ => .isTrue trivial
  | .removeChildren address => inferInstanceAs (Decidable
      (∃ found ∈ m.children.find (located address), ∀ s ∈ found.2.items, s.id ∉ m.ends))
  | .clear => .isTrue trivial

theorem Attached.removeChildren (h : Attached m) {address : ℕ} {found : Shape × Forest Shape}
    (hfind : m.children.find (located address) = some found) (hfree : ∀ s ∈ found.2.items, s.id ∉ m.ends) :
    ∃ m', m.removeChildren address = .ok m' ∧ Attached m' := by
  obtain ⟨s, below⟩ := found
  have hcut := Forest.cut_under hfind (p := fun s => below.roots.any (located s.address))
    (fun b hb => List.any_eq_true.mpr ⟨b, hb, by simp [located]⟩) (count_under h.distinct below)
  refine ⟨{ m with
    children := m.children.prune fun s => below.roots.any (located s.address)
    usedIDs := m.usedIDs.eraseAll (below.items.map (·.id)) }, by rw [DiagramManager.removeChildren, hfind], ?_⟩
  refine h.cut rfl rfl (fun id hid => hcut ▸ hid) fun id hid hgone => ?_
  rw [hcut] at hgone
  obtain ⟨u, hu, rfl⟩ := List.mem_map.mp hgone
  exact hfree u hu (ends_prune _ rfl hid)

/-- The step lemma of the connections: a proper call comes back, and leaves every end attached. -/
theorem step_attached (e : Event) (h : Attached m) (hproper : m.Proper e) : ∃ m', m.step e = some m' ∧ Attached m' := by
  have hdone : (∀ n ∈ e.shape, m.Fresh n) → (∃ m', m.perform e = .ok m' ∧ Attached m') →
      ∃ m', m.step e = some m' ∧ Attached m' := by
    rintro hfresh ⟨m', hperform, hattached⟩
    exact ⟨m', by rw [step, if_pos hfresh, hperform]; rfl, hattached⟩
  cases e with
  | addShape n parent =>
    apply hdone
    · rintro _ ⟨⟩
      exact hproper.fresh
    · exact h.addShape hproper
  | addChild n parent =>
    apply hdone
    · rintro _ ⟨⟩
      exact hproper.fresh
    · obtain ⟨t, ht⟩ := Joins.addItem hproper
      exact ⟨t, ht, h.addItem hproper ht⟩
  | createConnection source target line =>
    apply hdone
    · rintro _ ⟨⟩
      exact hproper.2.fresh
    · exact h.createConnection hproper.1 hproper.2
  | removeShape address =>
    obtain ⟨s, hs, rfl⟩ := hproper
    obtain ⟨-, t, -, hok, hattached, -⟩ := removeShape_attached h hs
    exact hdone (fun _ hn => by cases hn) ⟨t, hok, hattached⟩
  | removeShapes selection => exact hdone (fun _ hn => by cases hn) (h.removeShapes selection)
  | removeChildren address =>
    obtain ⟨found, hfind, hfree⟩ := hproper
    exact hdone (fun _ hn => by cases hn) (h.removeChildren hfind hfree)
  | clear =>
    refine hdone (fun _ hn => by cases hn) ⟨m.clear, rfl, ?_⟩
    exact ⟨attached_new.distinct, attached_new.top, attached_new.carried⟩

theorem attached_run {es : List Event} (h : Before step Proper new es) :
    (∃ m, run step new es = some m) ∧ Throughout step Attached new es := by
  obtain ⟨hrun, hthrough, -⟩ := run_of_before (P := Attached) (Q := fun _ _ _ => True) (C := Proper)
    (fun m e hm hproper => by
      obtain ⟨m', hstep, hattached⟩ := step_attached e hm hproper
      exact ⟨m', hstep, hattached, trivial⟩) attached_new es h
  exact ⟨hrun, hthrough⟩

end RunsOfCalls

end DiagramManager

end DbHandler.Shapes
