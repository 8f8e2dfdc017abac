import DbHandler.Shapes.Documents
import DbHandler.Shapes.Index

namespace DbHandler.Shapes

open Foundation

theorem Shape.deserializeObject_address (below : Forest Element) (s : Shape) :
    (s.deserializeObject below).address = s.address := rfl

namespace IndexedBy

open NewShape

variable {used more : UsedIDs} {shapes : List Shape}

theorem of_lookup (h : IndexedBy used shapes) (hlookup : ∀ id, more.lookup id = used.lookup id) :
    IndexedBy more shapes := by
  intro id hid target
  rw [hlookup]
  exact h id hid target

theorem map_of_mem (h : IndexedBy used shapes) {g : Shape → Shape} (hid : ∀ s ∈ shapes, (g s).id = s.id)
    (haddress : ∀ s ∈ shapes, (g s).address = s.address) : IndexedBy used (shapes.map g) := by
  intro id hne target
  rw [h id hne target]
  constructor
  · rintro ⟨s, hs, hsame⟩
    exact ⟨g s, List.mem_map_of_mem hs, by rwa [hid s hs, haddress s hs]⟩
  · rintro ⟨t, ht, hsame⟩
    obtain ⟨s, hs, rfl⟩ := List.mem_map.mp ht
    exact ⟨s, hs, by rwa [hid s hs, haddress s hs] at hsame⟩

end IndexedBy

namespace DiagramManager

open NewShape

/-- Where `AddItem` puts the trees of a new shape. -/
def attach (parent : Option ℕ) (g f : Forest Shape) : Forest Shape :=
  match parent with
  | none => f.append g
  | some p => f.hang (located p) g

section Attaching

variable {m m' : DiagramManager} {s : Shape} {parent : Option ℕ}

theorem tree_shape (used : UsedIDs) (s : Shape) :
    (NewShape.tree used { shape := s }) = .single { s with id := used.assignedId s } .nil := by
  simp [NewShape.tree, Forest.single, Forest.map, identify, initialised, UsedIDs.assignAll]

theorem addShape_shape (haccepted : m.accepts { shape := s } parent = true)
    (h : m.addShape { shape := s } parent = .ok m') :
    m' = { m with
      children := attach parent (.single { s with id := m.usedIDs.assignedId s } .nil) m.children
      usedIDs := m.usedIDs.indexed s
      modified := true } := by
  rw [addShape, if_pos haccepted] at h
  cases parent with
  | none =>
    rw [addItem, tree_shape] at h
    exact (Except.ok.inj h).symm
  | some p =>
    rw [addItem] at h
    split at h
    · rw [tree_shape] at h
      exact (Except.ok.inj h).symm
    · cases h

theorem items_attach {f g : Forest Shape} (hd : (addresses f.items).Nodup)
    (hparent : ∀ p ∈ parent, f.items.any (located p) = true) : (attach parent g f).items.Perm (f.items ++ g.items) := by
  cases parent with
  | none => exact (Forest.items_append f g) ▸ List.Perm.refl _
  | some p => exact Forest.items_hang (count_located hd (hparent p rfl))

theorem parent_of_addShape (haccepted : m.accepts { shape := s } parent = true)
    (h : m.addShape { shape := s } parent = .ok m') : ∀ p ∈ parent, m.items.any (located p) = true := by
  rintro p ⟨⟩
  rw [addShape, if_pos haccepted, addItem] at h
  split at h
  · assumption
  · cases h

end Attaching

end DiagramManager

namespace Loading

open NewShape DiagramManager

variable {create : Text → Option ShapeClass} {old : DiagramManager} {start : ℕ} {l l' : Loading} {m m' : DiagramManager}

/-- What holds while a document is read into a diagram: the index is exact, the shapes that were there are all as they
were, beside the new ones, or all gone. -/
structure Sound (old : DiagramManager) (start : ℕ) (l : Loading) : Prop where
  consistent : Consistent l.manager
  below : ∀ a ∈ addresses l.manager.items, a < l.next
  start_le : start ≤ l.next
  lines : ∀ a ∈ l.linesForUpdate, start ≤ a
  grids : ∀ a ∈ l.gridsForUpdate, start ≤ a
  kept : old.items ⊆ (l.manager.children.prune fun s => start ≤ s.address).items ∨
    ∀ s ∈ l.manager.items, start ≤ s.address

theorem Sound.initial (h : Consistent m) (hbelow : ∀ a ∈ addresses m.items, a < start) :
    Sound m start { manager := m, next := start } where
  consistent := h
  below := hbelow
  start_le := le_refl start
  lines := fun _ ha => (List.not_mem_nil ha).elim
  grids := fun _ ha => (List.not_mem_nil ha).elim
  kept := by
    left
    rw [Forest.prune_eq_self]
    · exact List.Subset.refl _
    · intro s hs
      simpa using hbelow s.address (List.mem_map_of_mem hs)

theorem Sound.abandon (h : Sound old start l) : Sound old start l.abandon where
  consistent := consistent_clear l.manager
  below := fun _ ha => (List.not_mem_nil ha).elim
  start_le := h.start_le
  lines := fun _ ha => (List.not_mem_nil ha).elim
  grids := fun _ ha => (List.not_mem_nil ha).elim
  kept := .inr fun _ hs => (List.not_mem_nil hs).elim

theorem prune_attach_subset (parent : Option ℕ) (q : Shape → Bool) (f g : Forest Shape) :
    (f.prune q).items ⊆ ((attach parent g f).prune q).items := by
  cases parent with
  | none =>
    rw [attach, Forest.prune_append, Forest.items_append]
    exact List.subset_append_left _ _
  | some p => exact Forest.prune_hang_subset (located p) q f g

/-- A change of shapes that came in with the document leaves the others as they were. -/
theorem subset_map {f : Forest Shape} {shapes : List Shape} {g : Shape → Shape}
    (haddress : ∀ s ∈ f.items, (g s).address = s.address) (hsame : ∀ s, s.address < start → g s = s)
    (h : shapes ⊆ (f.prune fun s => start ≤ s.address).items) :
    shapes ⊆ ((f.map g).prune fun s => start ≤ s.address).items := by
  have hprune : (f.prune fun s => start ≤ (g s).address) = f.prune fun s => start ≤ s.address := by
    apply Forest.prune_congr
    intro s hs
    rw [haddress s hs]
  rw [Forest.map_prune, hprune, Forest.items_map]
  intro s hs
  have hmem := h hs
  have hearly : s.address < start := by simpa using Forest.mem_prune hmem
  exact List.mem_map.mpr ⟨s, hmem, hsame s hearly⟩

/-- The shape that `AddShape` took, before its content is read. -/
theorem Sound.added (h : Sound old start l) {s : Shape} {parent : Option ℕ} (hs : s.address = l.next)
    (hunset : s.id = -1) (haccepted : l.manager.accepts { shape := s } parent = true)
    (hadd : l.manager.addShape { shape := s } parent = .ok m) :
    Sound old start { l with manager := m, next := l.next + 1 } ∧
      { s with id := l.manager.usedIDs.assignedId s } ∈ m.items := by
  have hfresh : l.manager.Fresh { shape := s } := by
    refine ⟨List.nodup_singleton _, ?_⟩
    intro a ha hmem
    obtain rfl : a = s.address := by simpa [NewShape.items, addresses] using ha
    have hlt := h.below _ hmem
    omega
  have hconsistent : Consistent m := by
    apply (addShape_consistent_iff h.consistent hfresh hadd).mpr
    rw [Clashless, if_pos haccepted]
    exact ⟨.inl hunset, trivial⟩
  have hm := addShape_shape haccepted hadd
  have hperm : m.items.Perm (l.manager.items ++ [{ s with id := l.manager.usedIDs.assignedId s }]) := by
    have hattach := items_attach (g := .single { s with id := l.manager.usedIDs.assignedId s } .nil)
      h.consistent.distinct (parent_of_addShape haccepted hadd)
    rw [hm]
    simpa [DiagramManager.items, Forest.items_single] using hattach
  refine ⟨⟨hconsistent, ?_, ?_, h.lines, h.grids, ?_⟩, hperm.mem_iff.mpr (by simp)⟩
  · intro a ha
    obtain ⟨t, ht, rfl⟩ := List.mem_map.mp ha
    rcases List.mem_append.mp (hperm.mem_iff.mp ht) with ht | ht
    · have hlt := h.below _ (List.mem_map_of_mem ht)
      show t.address < l.next + 1
      omega
    · obtain rfl := List.mem_singleton.mp ht
      show s.address < l.next + 1
      omega
  · have hle := h.start_le
    show start ≤ l.next + 1
    omega
  · rcases h.kept with hkept | hgone
    · left
      rw [hm]
      exact fun t ht => prune_attach_subset parent _ _ _ (hkept ht)
    · right
      intro t ht
      rcases List.mem_append.mp (hperm.mem_iff.mp ht) with ht | ht
      · exact hgone t ht
      · obtain rfl := List.mem_singleton.mp ht
        have hle := h.start_le
        show start ≤ s.address
        omega

/-- A change of one new shape that leaves its id and its address. -/
theorem Sound.change (h : Sound old start l) {t u : Shape} (ht : t ∈ l.manager.items) (hstart : start ≤ t.address)
    (hid : u.id = t.id) (haddress : u.address = t.address) {used : UsedIDs}
    (hused : ∀ id, used.lookup id = l.manager.usedIDs.lookup id) :
    Sound old start { l with manager := { l.manager with
      children := l.manager.children.map fun s => if located t.address s then u else s
      usedIDs := used } } := by
  have hat : ∀ s ∈ l.manager.items, located t.address s = true → s = t := by
    intro s hs hlocated
    exact List.inj_on_of_nodup_map h.consistent.distinct hs ht (by simpa [located] using hlocated)
  have hids : ∀ s ∈ l.manager.items, (if located t.address s then u else s).id = s.id := by
    intro s hs
    split
    · rw [hat s hs ‹_›, hid]
    · rfl
  have haddresses : ∀ s ∈ l.manager.items, (if located t.address s then u else s).address = s.address := by
    intro s hs
    split
    · rw [hat s hs ‹_›, haddress]
    · rfl
  have hsame : addresses (l.manager.items.map fun s => if located t.address s then u else s) =
      addresses l.manager.items := by
    rw [addresses, List.map_map]
    exact List.map_congr_left haddresses
  refine ⟨⟨?_, ?_⟩, ?_, h.start_le, h.lines, h.grids, ?_⟩
  · rw [DiagramManager.items, Forest.items_map]
    exact hsame ▸ h.consistent.distinct
  · rw [DiagramManager.items, Forest.items_map]
    exact (h.consistent.indexed.of_lookup hused).map_of_mem hids haddresses
  · intro a ha
    rw [DiagramManager.items, Forest.items_map] at ha
    exact h.below a (hsame ▸ ha)
  · rcases h.kept with hkept | hgone
    · left
      apply subset_map haddresses _ hkept
      intro s hs
      apply if_neg
      simp only [located, decide_eq_true_eq]
      omega
    · right
      intro s hs
      rw [DiagramManager.items, Forest.items_map] at hs
      obtain ⟨r, hr, rfl⟩ := List.mem_map.mp hs
      rw [haddresses r hr]
      exact hgone r hr

theorem Sound.readObject (h : Sound old start l) {t : Shape} (ht : t ∈ l.manager.items) (hset : t.id ≠ -1)
    (hstart : start ≤ t.address) (below : Forest Element) : Sound old start (l.readObject t.address t below) := by
  have hused (id : ℤ) : AList.lookup id (if t.id = (t.deserializeObject below).id then l.manager.usedIDs
      else l.manager.usedIDs.insert t.id (some t.address)) = l.manager.usedIDs.lookup id := by
    split
    · rfl
    · by_cases hid : id = t.id
      · rw [hid, AList.lookup_insert]
        exact ((h.consistent.indexed t.id hset _).mpr ⟨t, ht, rfl, rfl⟩).symm
      · rw [AList.lookup_insert_ne hid]
  have hchange := h.change (u := { t.deserializeObject below with id := t.id }) ht hstart rfl rfl hused
  refine ⟨hchange.consistent, hchange.below, h.start_le, ?_, ?_, hchange.kept⟩
  · intro a ha
    simp only [Loading.readObject] at ha
    split at ha
    · rcases List.mem_append.mp ha with ha | ha
      · exact h.lines a ha
      · obtain rfl := List.mem_singleton.mp ha
        exact hstart
    · exact h.lines a ha
  · intro a ha
    simp only [Loading.readObject] at ha
    split at ha
    · rcases List.mem_append.mp ha with ha | ha
      · exact h.grids a ha
      · obtain rfl := List.mem_singleton.mp ha
        exact hstart
    · exact h.grids a ha

theorem acceptable_cases {e : Element} {parent : Option ℕ} {s : Shape} (h : l.acceptable create e parent = some s) :
    ∃ cls, create (typeOf e) = some cls ∧ s = l.newObject (typeOf e) cls ∧
      l.manager.accepts { shape := s } parent = true := by
  obtain ⟨hs, haccepted⟩ := Option.filter_eq_some_iff.mp h
  obtain ⟨cls, hcls, rfl⟩ := Option.map_eq_some_iff.mp hs
  exact ⟨cls, hcls, rfl, haccepted⟩

theorem Sound.addObject (h : Sound old start l) {e : Element} {parent : Option ℕ} {s : Shape}
    (hs : l.acceptable create e parent = some s) {below : Forest Element}
    (hadd : l.addObject s below parent = .ok l') : Sound old start l' := by
  obtain ⟨cls, -, rfl, haccepted⟩ := acceptable_cases hs
  rw [Loading.addObject] at hadd
  cases hshape : l.manager.addShape { shape := l.newObject (typeOf e) cls } parent with
  | error fault =>
    rw [hshape] at hadd
    cases hadd
  | ok m =>
    rw [hshape] at hadd
    obtain rfl := Except.ok.inj hadd
    obtain ⟨hadded, hmem⟩ := h.added rfl rfl haccepted hshape
    exact hadded.readObject hmem (l.manager.usedIDs.assignedId_ne (l.newObject (typeOf e) cls)) h.start_le below

theorem Sound.load (h : Sound old start l) {document : Forest Element} {parent : Option ℕ}
    (hload : load create document parent l = .ok l') : Sound old start l' := by
  induction document generalizing l l' parent with
  | nil => exact Except.ok.inj hload ▸ h
  | node e below next ihb ihn =>
    rw [Loading.load] at hload
    split at hload
    · split at hload
      · exact Except.ok.inj hload ▸ h.abandon
      · rename_i s hs
        obtain ⟨t, hadd, hload⟩ := Faults.bind_ok hload
        obtain ⟨u, hbelow, hload⟩ := Faults.bind_ok hload
        exact ihn (ihb (h.addObject hs hadd) hbelow) hload
    · exact ihn h hload

end Loading

namespace DiagramManager

open NewShape Loading

variable {create : Text → Option ShapeClass} {old m m' : DiagramManager} {start next : ℕ}

/-- The part of `Sound` that is about the diagram alone. -/
structure Beside (old : DiagramManager) (start next : ℕ) (m : DiagramManager) : Prop where
  consistent : Consistent m
  below : ∀ a ∈ addresses m.items, a < next
  kept : old.items ⊆ (m.children.prune fun s => start ≤ s.address).items ∨ ∀ s ∈ m.items, start ≤ s.address

theorem Beside.setEnds (h : Beside old start next m) {line : ℕ} (hline : start ≤ line) (source target : ℤ) :
    Beside old start next (setEnds line source target m) := by
  have hsame : addresses (DiagramManager.setEnds line source target m).items = addresses m.items := by
    rw [setEnds_items]
    exact addresses_map (fun s => by split <;> rfl) _
  refine ⟨(setEnds_consistent_iff source target).mpr h.consistent, fun a ha => h.below a (hsame ▸ ha), ?_⟩
  rcases h.kept with hkept | hgone
  · left
    apply subset_map (fun s _ => by split <;> rfl) _ hkept
    intro s hs
    apply if_neg
    simp only [located, decide_eq_true_eq]
    omega
  · right
    intro s hs
    rw [setEnds_items] at hs
    obtain ⟨r, hr, rfl⟩ := List.mem_map.mp hs
    have hle := hgone r hr
    split <;> exact hle

theorem Beside.removeItem (h : Beside old start next m) {line : ℕ} (hline : start ≤ line)
    (hremove : m.removeItem line = .ok m') : Beside old start next m' := by
  obtain ⟨s, below, hfind, hperm, -⟩ := removeItem_items h.consistent.distinct hremove
  have hsub : m'.items ⊆ m.items := fun t ht => hperm.mem_iff.mpr (List.mem_append_right _ ht)
  refine ⟨h.consistent.removeItem hremove, ?_, ?_⟩
  · intro a ha
    obtain ⟨t, ht, rfl⟩ := List.mem_map.mp ha
    exact h.below _ (List.mem_map_of_mem (hsub ht))
  · rcases h.kept with hkept | hgone
    · left
      have hchildren : m'.children = m.children.prune (located line) := by
        rw [DiagramManager.removeItem, hfind] at hremove
        exact Except.ok.inj hremove ▸ rfl
      rw [hchildren, Forest.prune_prune]
      rw [Forest.prune_congr (q := fun s => decide (start ≤ s.address))]
      · exact hkept
      · intro t _
        by_cases hlocated : t.address = line
        · simp [located, hlocated, hline]
        · simp [located, hlocated]
    · exact .inr fun t ht => hgone t (hsub ht)

theorem Beside.updateConnection (h : Beside old start next m) {idPairs : List (ℤ × ℤ)} {line : ℕ}
    (hline : start ≤ line) (hupdate : updateConnection idPairs m line = .ok m') : Beside old start next m' := by
  rw [Loading.updateConnection] at hupdate
  split at hupdate
  · split at hupdate
    · exact Except.ok.inj hupdate ▸ h.setEnds hline _ _
    · exact (h.setEnds hline _ _).removeItem hline hupdate
  · cases hupdate

theorem Beside.updateGrid (h : Beside old start next m) {idPairs : List (ℤ × ℤ)} {grid : ℕ} (hgrid : start ≤ grid)
    (hupdate : updateGrid idPairs m grid = .ok m') : Beside old start next m' := by
  rw [Loading.updateGrid] at hupdate
  split at hupdate
  · obtain rfl := Except.ok.inj hupdate
    refine ⟨⟨?_, ?_⟩, ?_, ?_⟩
    · rw [DiagramManager.items, Forest.items_map, addresses_map fun s => by split <;> rfl]
      exact h.consistent.distinct
    · rw [DiagramManager.items, Forest.items_map]
      exact h.consistent.indexed.map_of_mem (fun s _ => by split <;> rfl) fun s _ => by split <;> rfl
    · intro a ha
      rw [DiagramManager.items, Forest.items_map, addresses_map fun s => by split <;> rfl] at ha
      exact h.below a ha
    · rcases h.kept with hkept | hgone
      · left
        apply subset_map (fun s _ => by split <;> rfl) _ hkept
        intro s hs
        apply if_neg
        simp only [located, decide_eq_true_eq]
        omega
      · right
        intro s hs
        rw [DiagramManager.items, Forest.items_map] at hs
        obtain ⟨r, hr, rfl⟩ := List.mem_map.mp hs
        have hle := hgone r hr
        split <;> exact hle
  · cases hupdate

theorem Beside.updateAll {update : DiagramManager → ℕ → Except Fault DiagramManager}
    (hupdate : ∀ m a m', Beside old start next m → start ≤ a → update m a = .ok m' → Beside old start next m')
    {shapes : List ℕ} (h : Beside old start next m) (hshapes : ∀ a ∈ shapes, start ≤ a)
    (hall : shapes.foldlM update m = .ok m') : Beside old start next m' := by
  induction shapes generalizing m with
  | nil => exact Except.ok.inj hall ▸ h
  | cons a shapes ih =>
    rw [List.foldlM_cons] at hall
    obtain ⟨t, ht, hall⟩ := Faults.bind_ok hall
    simp only [List.mem_cons, forall_eq_or_imp] at hshapes
    exact ih (hupdate m a t h hshapes.1 ht) hshapes.2 hall

theorem deserializeObjects_beside (h : Consistent m) (hbelow : ∀ a ∈ addresses m.items, a < start)
    {document : Forest Element} (hload : deserializeObjects create document m start = .ok (m', next)) :
    Beside m start next m' := by
  rw [deserializeObjects] at hload
  obtain ⟨l, hl, hload⟩ := Faults.bind_ok hload
  obtain ⟨t, hlines, hload⟩ := Faults.bind_ok hload
  have hsound := (Sound.initial h hbelow).load hl
  cases hgrids : l.gridsForUpdate.foldlM (updateGrid l.idPairs) t with
  | error fault =>
    rw [hgrids] at hload
    cases hload
  | ok u =>
    rw [hgrids] at hload
    obtain ⟨rfl, rfl⟩ := Prod.mk.inj (Except.ok.inj hload)
    have hloaded : Beside m start l.next l.manager := ⟨hsound.consistent, hsound.below, hsound.kept⟩
    have hconnected := hloaded.updateAll (fun _ _ _ h ha hupdate => h.updateConnection ha hupdate) hsound.lines hlines
    exact hconnected.updateAll (fun _ _ _ h ha hupdate => h.updateGrid ha hupdate) hsound.grids hgrids

theorem deserializeFromXml_consistent (h : Consistent m) (hbelow : ∀ a ∈ addresses m.items, a < start)
    {document : Forest Element} (hload : deserializeFromXml create document m start = .ok (m', next)) :
    Beside m start next m' := by
  have hinitial := Sound.initial h hbelow
  have hsame : Beside m start start m := ⟨hinitial.consistent, hinitial.below, hinitial.kept⟩
  cases document with
  | nil =>
    obtain ⟨rfl, rfl⟩ := Prod.mk.inj (Except.ok.inj hload)
    exact hsame
  | node e below _ =>
    rw [deserializeFromXml] at hload
    split at hload
    · cases hobjects : deserializeObjects create below m start with
      | error fault =>
        rw [hobjects] at hload
        cases hload
      | ok loaded =>
        rw [hobjects] at hload
        obtain ⟨rfl, rfl⟩ := Prod.mk.inj (Except.ok.inj hload)
        have hbeside := deserializeObjects_beside h hbelow hobjects
        exact ⟨hbeside.consistent.modify false, hbeside.below, hbeside.kept⟩
    · obtain ⟨rfl, rfl⟩ := Prod.mk.inj (Except.ok.inj hload)
      exact hsame

def someClasses (className : Text) : Option ShapeClass :=
  if className = ['L'] then some .line
  else if className = ['G'] then some .grid
  else if className = ['T'] then some .other
  else none

/-- A document with one table, which comes without an id. -/
def someDocument : Forest Element := .single { name := rootName } (.single (Shape.objectElement ['T']) .nil)

def withTable : DiagramManager :=
  { new with
    children := .single { address := 1, id := 1, className := ['T'] } .nil
    usedIDs := rootOnly.insert 1 (some 1) }

end DiagramManager

end DbHandler.Shapes
