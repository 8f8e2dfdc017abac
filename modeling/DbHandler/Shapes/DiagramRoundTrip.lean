import DbHandler.Shapes.ObjectRoundTrip
import DbHandler.Shapes.Connections

namespace DbHandler.Shapes

open Foundation PropertyIO

def Shape.isGrid (s : Shape) : Bool :=
  match s.kind with
  | .grid _ => true
  | _ => false

def Shape.cells (s : Shape) : List ℤ :=
  match s.kind with
  | .grid cells => cells
  | _ => []

theorem Shape.objectElement_name (className : Text) : (objectElement className).name = objectName := rfl

namespace Loading

open NewShape DiagramManager

variable {create : Text → Option ShapeClass} {l : Loading} {s : Shape} {parent : Option ℕ}

def withChildren (children : Forest Shape) (l : Loading) : Loading :=
  { l with manager := { l.manager with children := children } }

/-- The new shape for a saved one, and what is noted down about it. -/
def register (l : Loading) (s : Shape) : Shape × Loading :=
  ({ address := l.next, id := l.manager.usedIDs.getNewId, className := s.className, kind := s.kind },
    { l with
      manager := { l.manager with
        usedIDs := l.manager.usedIDs.insert l.manager.usedIDs.getNewId (some l.next)
        modified := true }
      next := l.next + 1
      idPairs := if l.manager.usedIDs.getNewId = s.id then l.idPairs
        else l.idPairs ++ [(s.id, l.manager.usedIDs.getNewId)]
      linesForUpdate := if s.isLine then l.linesForUpdate ++ [l.next] else l.linesForUpdate
      gridsForUpdate := if s.isGrid then l.gridsForUpdate ++ [l.next] else l.gridsForUpdate })

/-- The state after the shapes of a saved forest have been read. -/
def restored (parent : Option ℕ) (f : Forest Shape) (l : Loading) : Loading :=
  (f.mapAccum register l).2.withChildren (attach parent (f.mapAccum register l).1 l.manager.children)

theorem mapAccum_withChildren (children : Forest Shape) (f : Forest Shape) (l : Loading) :
    f.mapAccum register (l.withChildren children) =
      ((f.mapAccum register l).1, (f.mapAccum register l).2.withChildren children) := by
  induction f generalizing l with
  | nil => rfl
  | node s below next ihb ihn =>
    have hregister : register (l.withChildren children) s = ((register l s).1, (register l s).2.withChildren children) :=
      rfl
    simp only [Forest.mapAccum, hregister, ihb, ihn]

theorem withChildren_withChildren (f g : Forest Shape) (l : Loading) :
    (l.withChildren f).withChildren g = l.withChildren g := rfl

theorem addresses_thread (shapes : List Shape) (l : Loading) :
    addresses (Forest.thread register l shapes).1 = List.range' l.next shapes.length ∧
      (Forest.thread register l shapes).2.next = l.next + shapes.length := by
  induction shapes generalizing l with
  | nil => exact ⟨rfl, rfl⟩
  | cons s shapes ih =>
    obtain ⟨haddresses, hnext⟩ := ih (register l s).2
    rw [addresses] at haddresses
    rw [Forest.thread, addresses, List.map_cons, haddresses, hnext, List.length_cons, List.range'_succ]
    refine ⟨rfl, ?_⟩
    show l.next + 1 + shapes.length = _
    omega

theorem le_address {f : Forest Shape} {t : Shape} (ht : t ∈ (f.mapAccum register l).1.items) : l.next ≤ t.address := by
  have hthread : (Forest.thread register l f.items).1 = (f.mapAccum register l).1.items :=
    congrArg Prod.fst (Forest.thread_items l f)
  rw [← hthread] at ht
  have hmem : t.address ∈ addresses (Forest.thread register l f.items).1 := List.mem_map_of_mem ht
  rw [(addresses_thread f.items l).1] at hmem
  exact (List.mem_range'_1.mp hmem).1

/-- The class of a saved shape is known, and the diagram takes it. -/
structure Restorable (create : Text → Option ShapeClass) (m : DiagramManager) (s : Shape) : Prop where
  serialized : s.serialized = true
  known : create s.className = some s.kind.cls
  accepted : m.isShapeAccepted s.className = true
  id_fits : FitsLong s.id
  kind_fits : s.kind.Fits

theorem acceptable_saved (h : Restorable create l.manager s)
    (htop : parent = none → l.manager.isTopShapeAccepted s.className = true) :
    l.acceptable create (Shape.objectElement s.className) parent = some (l.newObject s.className s.kind.cls) := by
  have htype : typeOf (Shape.objectElement s.className) = s.className := rfl
  rw [acceptable, htype, h.known, Option.map_some]
  apply Option.filter_eq_some_iff.mpr
  refine ⟨rfl, ?_⟩
  rw [accepts, newObject, h.accepted, Bool.true_and, Bool.or_eq_true]
  cases parent with
  | none => exact .inr (htop rfl)
  | some p => exact .inl rfl

theorem blank_isLine (k : Kind) (s t : Shape) (hs : s.kind = k) (ht : t.kind = k.cls.blank) : t.isLine = s.isLine := by
  rw [Shape.isLine, Shape.isLine, hs, ht]
  cases k <;> rfl

theorem map_attach_single (parent : Option ℕ) {c : Forest Shape} {t u : Shape} (hfresh : ∀ s ∈ c.items, s.address ≠ t.address)
    (haddress : u.address = t.address) :
    (attach parent (.single t .nil) c).map (fun s => if located t.address s then u else s) =
      attach parent (.single u .nil) c := by
  have hsame : c.map (fun s => if located t.address s then u else s) = c := by
    have hid : c.map (fun s => if located t.address s then u else s) = c.map fun s => s := by
      apply Forest.map_congr
      intro s hs
      exact if_neg (by simpa [located] using hfresh s hs)
    rw [hid, Forest.map_id]
  have hsingle : (Forest.single t .nil).map (fun s => if located t.address s then u else s) = .single u .nil := by
    simp [Forest.single, Forest.map, located]
  cases parent with
  | none => rw [attach, attach, Forest.map_append, hsame, hsingle]
  | some p =>
    rw [attach, attach, Forest.map_hang (q := located p), hsame, hsingle]
    intro s _
    split
    · rename_i hlocated
      have hs : s.address = t.address := by simpa [located] using hlocated
      rw [located, located, haddress, hs]
    · rfl

def createdFor (l : Loading) (s : Shape) : Shape where
  address := l.next
  id := l.manager.usedIDs.getNewId
  className := s.className
  kind := s.kind.cls.blank

theorem addObject_saved (h : Restorable create l.manager s)
    (htop : parent = none → l.manager.isTopShapeAccepted s.className = true)
    (hparent : ∀ p ∈ parent, l.manager.items.any (located p) = true)
    (hfresh : ∀ t ∈ l.manager.items, t.address ≠ l.next) (below : Forest Element)
    (hbelow : ∀ e ∈ below.roots, e.name ≠ Property.propertyName) :
    l.addObject (l.newObject s.className s.kind.cls) ((Serializable.serialize s.properties).append below) parent =
      .ok ((register l s).2.withChildren (attach parent (.single (register l s).1 .nil) l.manager.children)) := by
  have haccepted : l.manager.accepts { shape := l.newObject s.className s.kind.cls } parent = true :=
    (Option.filter_eq_some_iff.mp (acceptable_saved h htop)).2
  have hid : l.manager.usedIDs.assignedId (l.newObject s.className s.kind.cls) = l.manager.usedIDs.getNewId := if_pos rfl
  have hadd : l.manager.addShape { shape := l.newObject s.className s.kind.cls } parent = .ok { l.manager with
      children := attach parent (.single (l.createdFor s) .nil) l.manager.children
      usedIDs := l.manager.usedIDs.insert l.manager.usedIDs.getNewId (some l.next)
      modified := true } := by
    rw [addShape, if_pos haccepted]
    cases parent with
    | none =>
      rw [addItem, tree_shape, hid]
      rfl
    | some p =>
      rw [addItem, if_pos (hparent p rfl), tree_shape, hid]
      rfl
  have hread : (l.createdFor s).deserializeObject ((Serializable.serialize s.properties).append below) =
      { l.createdFor s with id := s.id, kind := s.kind } :=
    Shape.deserializeObject_serialize rfl h.id_fits h.kind_fits hbelow
  have hmap := map_attach_single parent (t := l.createdFor s) (u := (register l s).1) hfresh rfl
  have hgrid : (match (l.createdFor s).kind with
      | .grid _ => l.gridsForUpdate ++ [l.next]
      | _ => l.gridsForUpdate) = if s.isGrid then l.gridsForUpdate ++ [l.next] else l.gridsForUpdate := by
    rw [createdFor, Shape.isGrid]
    cases s.kind <;> rfl
  have hcreated : { l.newObject s.className s.kind.cls with
      id := l.manager.usedIDs.assignedId (l.newObject s.className s.kind.cls) } = l.createdFor s := by
    rw [hid]
    rfl
  rw [Loading.addObject, hadd, hcreated, Except.map, readObject, hread]
  have hused : (if (l.createdFor s).id = s.id then l.manager.usedIDs.insert l.manager.usedIDs.getNewId (some l.next)
      else (l.manager.usedIDs.insert l.manager.usedIDs.getNewId (some l.next)).insert (l.createdFor s).id (some l.next)) =
        l.manager.usedIDs.insert l.manager.usedIDs.getNewId (some l.next) := by
    split
    · rfl
    · exact AList.insert_insert (l.manager.usedIDs)
  have hline : (l.createdFor s).isLine = s.isLine := blank_isLine s.kind s _ rfl rfl
  refine congrArg Except.ok ?_
  rw [withChildren, ← hmap, hline]
  simp only [Loading.mk.injEq, DiagramManager.mk.injEq]
  exact ⟨⟨rfl, hused, rfl, rfl, rfl⟩, rfl, rfl, rfl, hgrid⟩

theorem load_append {f g : Forest Element} (hf : ∀ e ∈ f.roots, e.name ≠ Shape.objectName) (parent : Option ℕ)
    (l : Loading) : load create (f.append g) parent l = load create g parent l := by
  induction f with
  | nil => rfl
  | node e below next _ ih =>
    simp only [Forest.roots_node, List.mem_cons, forall_eq_or_imp] at hf
    rw [Forest.append, load, if_neg hf.1]
    exact ih hf.2

theorem name_of_serialize (properties : List Property) : ∀ e ∈ (Serializable.serialize properties).roots,
    e.name = Property.propertyName := by
  induction properties with
  | nil => exact fun _ he => (List.not_mem_nil he).elim
  | cons p properties ih =>
    intro e he
    cases hwritten : p.written with
    | false =>
      rw [Serializable.serialize_skip hwritten] at he
      exact ih e he
    | true =>
      obtain ⟨content, below, hserialize, -⟩ := Serializable.serialize_cons properties hwritten
      rw [hserialize, Forest.roots_node, List.mem_cons] at he
      rcases he with rfl | he
      · rfl
      · exact ih e he

theorem name_of_serializeObjects (f : Forest Shape) : ∀ e ∈ (serializeObjects f).roots, e.name = Shape.objectName := by
  induction f with
  | nil => exact fun _ he => (List.not_mem_nil he).elim
  | node s below next _ ih =>
    intro e he
    rw [serializeObjects] at he
    split at he
    · rcases List.mem_cons.mp he with rfl | he
      · rfl
      · exact ih e he
    · exact ih e he

theorem propertyName_ne_objectName : Property.propertyName ≠ Shape.objectName := by decide

theorem attach_under {c g : Forest Shape} {t : Shape} (hfresh : ∀ s ∈ c.items, s.address ≠ t.address) :
    attach (some t.address) g (attach parent (.single t .nil) c) = attach parent (.single t g) c := by
  have hsingle : (Forest.single t .nil).hang (located t.address) g = .single t g := by
    simp [Forest.single, Forest.hang, Forest.append, located]
  have hnone : ∀ s ∈ c.items, located t.address s = false := by
    intro s hs
    simpa [located] using hfresh s hs
  cases parent with
  | none => rw [attach, attach, attach, Forest.hang_append, Forest.hang_eq_self hnone, hsingle]
  | some p => rw [attach, attach, attach, Forest.hang_hang hnone, hsingle]

theorem attach_behind {c f g : Forest Shape} (hparent : ∀ p ∈ parent, ∀ s ∈ f.items, s.address ≠ p) :
    attach parent g (attach parent f c) = attach parent (f.append g) c := by
  cases parent with
  | none => exact Forest.append_assoc c f g
  | some p =>
    apply Forest.hang_append_hang
    intro s hs
    simpa [located] using hparent p rfl s hs

theorem subset_attach (parent : Option ℕ) (g c : Forest Shape) : c.items ⊆ (attach parent g c).items := by
  have hsub := prune_attach_subset parent (fun _ => false) c g
  rwa [Forest.prune_eq_self (fun _ _ => rfl), Forest.prune_eq_self (fun _ _ => rfl)] at hsub

theorem any_subset {c f : List Shape} (h : c ⊆ f) {p : ℕ} (hp : c.any (located p) = true) : f.any (located p) = true := by
  obtain ⟨s, hs, hlocated⟩ := List.any_eq_true.mp hp
  exact List.any_eq_true.mpr ⟨s, h hs, hlocated⟩

theorem Restorable.of_accepted {m m' : DiagramManager} (h : Restorable create m s)
    (haccepted : m'.acceptedShapes = m.acceptedShapes) : Restorable create m' s where
  serialized := h.serialized
  known := h.known
  accepted := by
    rw [isShapeAccepted, haccepted]
    exact h.accepted
  id_fits := h.id_fits
  kind_fits := h.kind_fits

theorem accepted_mapAccum (f : Forest Shape) (l : Loading) :
    (f.mapAccum register l).2.manager.acceptedShapes = l.manager.acceptedShapes ∧
      (f.mapAccum register l).2.manager.acceptedTopShapes = l.manager.acceptedTopShapes := by
  induction f generalizing l with
  | nil => exact ⟨rfl, rfl⟩
  | node s below next ihb ihn =>
    obtain ⟨hb, hbt⟩ := ihb (register l s).2
    obtain ⟨hn, hnt⟩ := ihn (below.mapAccum register (register l s).2).2
    exact ⟨hn.trans hb, hnt.trans hbt⟩

/-- The shapes under a node and those behind it come to where the whole forest comes to. -/
theorem restored_node (s : Shape) (below next : Forest Shape) (l : Loading)
    (hfresh : ∀ t ∈ l.manager.items, t.address ≠ l.next) (hparent : ∀ p ∈ parent, p < l.next) :
    restored parent next (restored (some l.next) below
      ((register l s).2.withChildren (attach parent (.single (register l s).1 .nil) l.manager.children))) =
        restored parent (.node s below next) l := by
  have hunder : attach (some l.next) (below.mapAccum register (register l s).2).1
      (attach parent (.single (register l s).1 .nil) l.manager.children) =
        attach parent (.single (register l s).1 (below.mapAccum register (register l s).2).1) l.manager.children :=
    attach_under (t := (register l s).1) hfresh
  have hlate : ∀ p ∈ parent, ∀ t ∈ (Forest.single (register l s).1
      (below.mapAccum register (register l s).2).1).items, t.address ≠ p := by
    intro p hp t ht
    have hlt := hparent p hp
    rw [Forest.items_single, List.mem_cons] at ht
    rcases ht with rfl | ht
    · show l.next ≠ p
      omega
    · have hle : l.next + 1 ≤ t.address := le_address ht
      omega
  have hbelow : restored (some l.next) below
      ((register l s).2.withChildren (attach parent (.single (register l s).1 .nil) l.manager.children)) =
        (below.mapAccum register (register l s).2).2.withChildren
          (attach parent (.single (register l s).1 (below.mapAccum register (register l s).2).1) l.manager.children) := by
    rw [restored, mapAccum_withChildren]
    exact congrArg (withChildren · (below.mapAccum register (register l s).2).2) hunder
  rw [hbelow, restored, mapAccum_withChildren, restored, Forest.mapAccum]
  exact congrArg (withChildren · (next.mapAccum register (below.mapAccum register (register l s).2).2).2)
    (attach_behind hlate)

variable {old : DiagramManager} {start : ℕ}

/-- Reading the document of a saved forest. -/
theorem load_saved {f : Forest Shape} (hsound : Sound old start l) (h : ∀ s ∈ f.items, Restorable create l.manager s)
    (htop : parent = none → ∀ s ∈ f.roots, l.manager.isTopShapeAccepted s.className = true)
    (hparent : ∀ p ∈ parent, l.manager.items.any (located p) = true) :
    load create (serializeObjects f) parent l = .ok (restored parent f l) := by
  induction f generalizing l parent with
  | nil =>
    cases parent with
    | none =>
      rw [serializeObjects, load, restored, Forest.mapAccum, attach, Forest.append_nil]
      rfl
    | some p =>
      rw [serializeObjects, load, restored, Forest.mapAccum, attach, Forest.hang_nil]
      rfl
  | node s below next ihb ihn =>
    simp only [Forest.items_node, List.mem_cons, List.mem_append, Forest.roots_node, forall_eq_or_imp] at h htop
    obtain ⟨hs, hrest⟩ := h
    have hfresh : ∀ t ∈ l.manager.items, t.address ≠ l.next := by
      intro t ht
      have hlt := hsound.below t.address (List.mem_map_of_mem ht)
      omega
    have hbefore : ∀ p ∈ parent, p < l.next := by
      intro p hp
      obtain ⟨t, ht, hlocated⟩ := List.any_eq_true.mp (hparent p hp)
      obtain rfl : t.address = p := by simpa [located] using hlocated
      exact hsound.below t.address (List.mem_map_of_mem ht)
    have hacceptable := acceptable_saved hs fun hnone => (htop hnone).1
    have hadd := addObject_saved hs (fun hnone => (htop hnone).1) hparent hfresh (serializeObjects below)
      fun e he hname => propertyName_ne_objectName (hname.symm.trans (name_of_serializeObjects below e he))
    have hsound_new := hsound.addObject hacceptable hadd
    have hnew : (register l s).1 ∈ (attach parent (.single (register l s).1 .nil) l.manager.children).items :=
      (items_attach hsound.consistent.distinct hparent).mem_iff.mpr (by simp [Forest.items_single])
    have hload := @ihb _ (some l.next) hsound_new (fun t ht => (hrest t (.inl ht)).of_accepted rfl)
      (fun hsome => by cases hsome)
      (by rintro p ⟨⟩; exact List.any_eq_true.mpr ⟨_, hnew, by simp [located, register]⟩)
    have hsound_below := hsound_new.load hload
    have haccepted := accepted_mapAccum below
      ((register l s).2.withChildren (attach parent (.single (register l s).1 .nil) l.manager.children))
    have hkept : l.manager.items ⊆ (restored (some l.next) below ((register l s).2.withChildren
        (attach parent (.single (register l s).1 .nil) l.manager.children))).manager.items := by
      intro t ht
      exact subset_attach (some l.next) _ _ (subset_attach parent _ _ ht)
    have hnext := @ihn _ parent hsound_below (fun t ht => (hrest t (.inr ht)).of_accepted haccepted.1)
      (fun hnone t ht => by
        have htaken := (htop hnone).2 t ht
        rw [isTopShapeAccepted] at htaken ⊢
        rw [restored]
        exact (congrArg (fun taken => isAccepted taken t.className) haccepted.2).trans htaken)
      (fun p hp => any_subset hkept (hparent p hp))
    rw [serializeObjects, if_pos hs.serialized, load, if_pos (Shape.objectElement_name s.className), hacceptable]
    show (l.addObject _ _ parent).bind _ = _
    rw [hadd]
    show (load create ((Serializable.serialize s.properties).append (serializeObjects below)) (some l.next) _).bind _ = _
    rw [load_append fun e he hname => propertyName_ne_objectName ((name_of_serialize _ e he).symm.trans hname), hload]
    show load create (serializeObjects next) parent _ = _
    rw [hnext, restored_node s below next l hfresh hbefore]

section Numbers

/-- The new id of a shape that is saved: its place in the document, from 1 on. -/
def position (ids : List ℤ) (id : ℤ) : ℤ := if id ∈ ids then ids.idxOf id + 1 else id

def copied (start : ℕ) (ids : List ℤ) (s : Shape) : Shape where
  address := start + ids.idxOf s.id
  id := position ids s.id
  className := s.className
  kind := s.kind

theorem getNewId_of_filled {used : UsedIDs} {n : ℕ} (h : ∀ id, id ∈ used ↔ id = -1 ∨ 1 ≤ id ∧ id ≤ n) :
    used.getNewId = n + 1 := by
  have hpos := used.getNewId_pos
  have hfree : ¬(used.getNewId = -1 ∨ 1 ≤ used.getNewId ∧ used.getNewId ≤ n) :=
    fun hmem => used.getNewId_not_mem ((h _).mpr hmem)
  by_contra hne
  have htaken := (h (n + 1)).mp (UsedIDs.mem_of_lt_getNewId (by omega) (by omega))
  omega

/-- In an empty diagram the ids count on from 1, and the addresses beside them. -/
theorem thread_filled {start : ℕ} (before : List ℤ) {shapes : List Shape}
    (hused : ∀ id, id ∈ l.manager.usedIDs ↔ id = -1 ∨ 1 ≤ id ∧ id ≤ before.length)
    (hnext : l.next = start + before.length) (hnodup : (before ++ shapes.map (·.id)).Nodup) :
    (Forest.thread register l shapes).1 = shapes.map (copied start (before ++ shapes.map (·.id))) := by
  induction shapes generalizing l before with
  | nil => rfl
  | cons s shapes ih =>
    have hids : before ++ (s :: shapes).map (·.id) = (before ++ [s.id]) ++ shapes.map (·.id) := by simp
    have hout : s.id ∉ before := by
      intro hmem
      exact (List.nodup_append.mp hnodup).2.2 _ hmem _ (by simp) rfl
    have hidx : (before ++ (s :: shapes).map (·.id)).idxOf s.id = before.length := by
      rw [List.map_cons, List.idxOf_append_of_notMem hout, List.idxOf_cons_self, Nat.add_zero]
    have hnew := getNewId_of_filled hused
    have hfirst : (register l s).1 = copied start (before ++ (s :: shapes).map (·.id)) s := by
      have hmem : s.id ∈ before ++ (s :: shapes).map (·.id) := List.mem_append_right _ List.mem_cons_self
      rw [register, copied, position, if_pos hmem, hidx, hnew, hnext]
    have hrest := ih (l := (register l s).2) (before ++ [s.id])
      (by
        intro id
        show id ∈ l.manager.usedIDs.insert l.manager.usedIDs.getNewId (some l.next) ↔ _
        rw [AList.mem_insert, hused, hnew, List.length_append, List.length_singleton]
        push_cast
        omega)
      (by
        show l.next + 1 = _
        rw [List.length_append, List.length_singleton]
        omega)
      (by rwa [← hids])
    rw [Forest.thread, List.map_cons, hfirst, hrest, hids]

theorem thread_lists (shapes : List Shape) (l : Loading) :
    (Forest.thread register l shapes).2.linesForUpdate =
        l.linesForUpdate ++ addresses ((Forest.thread register l shapes).1.filter Shape.isLine) ∧
      (Forest.thread register l shapes).2.gridsForUpdate =
        l.gridsForUpdate ++ addresses ((Forest.thread register l shapes).1.filter Shape.isGrid) := by
  induction shapes generalizing l with
  | nil => exact ⟨(List.append_nil _).symm, (List.append_nil _).symm⟩
  | cons s shapes ih =>
    obtain ⟨hlines, hgrids⟩ := ih (register l s).2
    have hline : (register l s).1.isLine = s.isLine := rfl
    have hgrid : (register l s).1.isGrid = s.isGrid := rfl
    rw [Forest.thread, hlines, hgrids]
    constructor
    · show (if s.isLine then l.linesForUpdate ++ [l.next] else l.linesForUpdate) ++ _ = _
      cases hcase : s.isLine with
      | true =>
        rw [List.filter_cons_of_pos (hline.trans hcase), if_pos rfl]
        exact List.append_assoc _ _ _
      | false =>
        rw [List.filter_cons_of_neg (by rw [hline, hcase]; exact Bool.false_ne_true), if_neg Bool.false_ne_true]
    · show (if s.isGrid then l.gridsForUpdate ++ [l.next] else l.gridsForUpdate) ++ _ = _
      cases hcase : s.isGrid with
      | true =>
        rw [List.filter_cons_of_pos (hgrid.trans hcase), if_pos rfl]
        exact List.append_assoc _ _ _
      | false =>
        rw [List.filter_cons_of_neg (by rw [hgrid, hcase]; exact Bool.false_ne_true), if_neg Bool.false_ne_true]

theorem thread_idPairs (shapes : List Shape) (l : Loading) : (Forest.thread register l shapes).2.idPairs =
    l.idPairs ++ ((shapes.map (·.id)).zip ((Forest.thread register l shapes).1.map (·.id))).filter
      fun pair => pair.2 ≠ pair.1 := by
  induction shapes generalizing l with
  | nil => exact (List.append_nil _).symm
  | cons s shapes ih =>
    rw [Forest.thread, ih (register l s).2, List.map_cons, List.map_cons, List.zip_cons_cons, List.filter_cons]
    have hid : (register l s).1.id = l.manager.usedIDs.getNewId := rfl
    have hpairs : (register l s).2.idPairs = if l.manager.usedIDs.getNewId = s.id then l.idPairs
      else l.idPairs ++ [(s.id, l.manager.usedIDs.getNewId)] := rfl
    rw [hid, hpairs]
    by_cases hsame : l.manager.usedIDs.getNewId = s.id <;> simp [hsame]

theorem thread_used (shapes : List Shape) (l : Loading) (id : ℤ) :
    id ∈ (Forest.thread register l shapes).2.manager.usedIDs ↔
      id ∈ l.manager.usedIDs ∨ id ∈ (Forest.thread register l shapes).1.map (·.id) := by
  induction shapes generalizing l with
  | nil => simp [Forest.thread]
  | cons s shapes ih =>
    rw [Forest.thread, ih, List.map_cons, List.mem_cons]
    show id ∈ l.manager.usedIDs.insert l.manager.usedIDs.getNewId (some l.next) ∨ _ ↔
      _ ∨ id = l.manager.usedIDs.getNewId ∨ _
    rw [AList.mem_insert]
    tauto

theorem mem_rootOnly (id : ℤ) : id ∈ rootOnly ↔ id = -1 := by
  rw [AList.mem_keys, rootOnly]
  exact List.mem_singleton

/-- The shapes that are read into an empty diagram. -/
theorem mapAccum_clear (m : DiagramManager) (start : ℕ) {f : Forest Shape} (hnodup : (f.items.map (·.id)).Nodup) :
    (f.mapAccum register { manager := m.clear, next := start }).1 = f.map (copied start (f.items.map (·.id))) := by
  apply Forest.ext_of_skeleton
  · rw [Forest.skeleton_mapAccum, Forest.skeleton_map]
  · have hthread : (Forest.thread register { manager := m.clear, next := start } f.items).1 =
        (f.mapAccum register { manager := m.clear, next := start }).1.items :=
      congrArg Prod.fst (Forest.thread_items _ f)
    rw [← hthread, Forest.items_map]
    apply thread_filled []
    · intro id
      show id ∈ rootOnly ↔ _
      rw [mem_rootOnly, List.length_nil]
      omega
    · rfl
    · exact hnodup

end Numbers

end Loading

end DbHandler.Shapes
