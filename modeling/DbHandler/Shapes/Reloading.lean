import DbHandler.Shapes.DiagramRoundTrip
import Mathlib.Data.List.Basic

namespace DbHandler.Shapes

open Foundation

namespace Loading

open NewShape DiagramManager

section Pairs

variable {ids : List ℤ} {idPairs : List (ℤ × ℤ)} {cells : List ℤ}

/-- The pairs of old and new ids that are noted down when shapes with these ids are read into an empty diagram. -/
def pairsOf (ids : List ℤ) : List (ℤ × ℤ) :=
  (ids.map fun id => (id, position ids id)).filter fun pair => pair.2 ≠ pair.1

theorem foldl_renamed {id : ℤ} (h : id ∉ idPairs.map (·.1)) (new : ℤ) :
    idPairs.foldl (fun new pair => if pair.1 = id then pair.2 else new) new = new := by
  induction idPairs with
  | nil => rfl
  | cons pair idPairs ih =>
    rw [List.map_cons, List.mem_cons, not_or] at h
    rw [List.foldl_cons, if_neg (Ne.symm h.1)]
    exact ih h.2

theorem renamed_of_mem {id new : ℤ} (hnodup : (idPairs.map (·.1)).Nodup) (h : (id, new) ∈ idPairs) :
    renamed idPairs id = new := by
  have hany (old : ℤ) : idPairs.foldl (fun new pair => if pair.1 = id then pair.2 else new) old = new := by
    induction idPairs generalizing old with
    | nil => cases h
    | cons pair idPairs ih =>
      obtain ⟨hout, hrest⟩ := List.nodup_cons.mp hnodup
      rw [List.foldl_cons]
      rcases List.mem_cons.mp h with rfl | h
      · rw [if_pos rfl]
        exact foldl_renamed hout new
      · exact ih hrest h _
  exact hany id

theorem pairsOf_fst (ids : List ℤ) : ((pairsOf ids).map (·.1)).Sublist ids := by
  have hsub := (List.filter_sublist (p := fun pair : ℤ × ℤ => decide (pair.2 ≠ pair.1))
    (l := ids.map fun id => (id, position ids id))).map (·.1)
  rwa [List.map_map, show ((fun pair : ℤ × ℤ => pair.1) ∘ fun id => (id, position ids id)) = id from rfl,
    List.map_id] at hsub

/-- Looking an old id up in the pairs gives the place of the shape in the document. -/
theorem renamed_pairsOf (hnodup : ids.Nodup) (id : ℤ) : renamed (pairsOf ids) id = position ids id := by
  by_cases hpair : (id, position ids id) ∈ pairsOf ids
  · exact renamed_of_mem (hnodup.sublist (pairsOf_fst ids)) hpair
  · have hsame : position ids id = id := by
      by_cases hmem : id ∈ ids
      · by_contra hne
        exact hpair (List.mem_filter.mpr ⟨List.mem_map_of_mem hmem, by simpa using hne⟩)
      · exact if_neg hmem
    rw [hsame]
    apply foldl_renamed
    intro hmem
    obtain ⟨pair, hin, hfst⟩ := List.mem_map.mp hmem
    obtain ⟨hin, hne⟩ := List.mem_filter.mp hin
    obtain ⟨old, -, rfl⟩ := List.mem_map.mp hin
    obtain rfl : old = id := hfst
    simp [hsame] at hne

theorem set_idxOf {a b : ℤ} (hcount : cells.count a ≤ 1) :
    (if a ∈ cells then cells.set (cells.idxOf a) b else cells) = cells.map fun c => if c = a then b else c := by
  induction cells with
  | nil => rfl
  | cons c cells ih =>
    rw [List.count_cons] at hcount
    by_cases hc : c = a
    · subst hc
      rw [beq_self_eq_true, if_pos rfl] at hcount
      have hout : c ∉ cells := List.count_eq_zero.mp (by omega)
      have hrest : (cells.map fun d => if d = c then b else d) = cells.map id := by
        apply List.map_congr_left
        intro d hd
        exact if_neg fun heq : d = c => hout (heq ▸ hd)
      rw [if_pos List.mem_cons_self, List.idxOf_cons_self, List.set_cons_zero, List.map_cons, if_pos rfl, hrest,
        List.map_id]
    · have hrest := ih (by omega)
      rw [List.map_cons, if_neg hc, ← hrest]
      by_cases hmem : a ∈ cells
      · rw [if_pos (List.mem_cons_of_mem c hmem), if_pos hmem, List.idxOf_cons_ne _ hc, List.set_cons_succ]
      · rw [if_neg hmem, if_neg]
        rw [List.mem_cons, not_or]
        exact ⟨fun heq => hc heq.symm, hmem⟩

/-- Replacing old ids by new ones, one pair after another, is renaming all at once where no new id is an old one that
is still to come. -/
theorem replaceCells_eq (hcount : ∀ pair ∈ idPairs, cells.count pair.1 ≤ 1)
    (hpairs : idPairs.Pairwise fun p q => p.1 ≠ q.1 ∧ p.2 ≠ q.1) :
    replaceCells idPairs cells = cells.map (renamed idPairs) := by
  induction idPairs generalizing cells with
  | nil => exact (List.map_id cells).symm
  | cons pair idPairs ih =>
    obtain ⟨hapart, hrest⟩ := List.pairwise_cons.mp hpairs
    simp only [List.mem_cons, forall_eq_or_imp] at hcount
    have hless : ∀ q ∈ idPairs, (cells.map fun c => if c = pair.1 then pair.2 else c).count q.1 ≤ 1 := by
      intro q hq
      refine le_trans ?_ (hcount.2 q hq)
      rw [List.count_eq_countP, List.count_eq_countP, List.countP_map]
      apply List.countP_mono_left
      intro c _ hc
      simp only [Function.comp_apply, beq_iff_eq] at hc ⊢
      split at hc
      · exact absurd hc (hapart q hq).2
      · exact hc
    have hout (id : ℤ) (h : ∀ q ∈ idPairs, id ≠ q.1) : id ∉ idPairs.map (·.1) := by
      intro hmem
      obtain ⟨q, hq, heq⟩ := List.mem_map.mp hmem
      exact h q hq heq.symm
    have hstep : replaceCells (pair :: idPairs) cells =
        replaceCells idPairs (cells.map fun c => if c = pair.1 then pair.2 else c) :=
      congrArg (replaceCells idPairs) (set_idxOf hcount.1)
    rw [hstep, ih hless hrest, List.map_map]
    apply List.map_congr_left
    intro c _
    rw [Function.comp_apply, renamed, renamed, List.foldl_cons]
    by_cases hc : c = pair.1
    · rw [if_pos hc, if_pos hc.symm, foldl_renamed (hout _ fun q hq => (hapart q hq).2), hc,
        foldl_renamed (hout _ fun q hq => (hapart q hq).1)]
    · rw [if_neg hc, if_neg (Ne.symm hc)]

theorem idxOf_lt {n : ℤ} (hascending : ids.Pairwise (· < ·)) (habove : ∀ id ∈ ids, n < id) {id : ℤ} (h : id ∈ ids) :
    n + ids.idxOf id < id := by
  induction ids generalizing n with
  | nil => cases h
  | cons first ids ih =>
    obtain ⟨hfirst, hrest⟩ := List.pairwise_cons.mp hascending
    simp only [List.mem_cons, forall_eq_or_imp] at habove
    by_cases heq : first = id
    · subst heq
      rw [List.idxOf_cons_self]
      have hlt := habove.1
      omega
    · have hmem : id ∈ ids := (List.mem_cons.mp h).resolve_left (Ne.symm heq)
      have hlt := ih (n := n + 1) hrest (fun later hlater => by
        have hmore := hfirst later hlater
        have hone := habove.1
        omega) hmem
      rw [List.idxOf_cons_ne _ heq]
      push_cast
      omega

theorem pairsOf_apart (hascending : ids.Pairwise (· < ·)) (hpositive : ∀ id ∈ ids, 0 < id) :
    (pairsOf ids).Pairwise fun p q => p.1 ≠ q.1 ∧ p.2 ≠ q.1 := by
  apply List.Pairwise.filter
  rw [List.pairwise_map]
  refine List.Pairwise.imp_of_mem ?_ hascending
  intro a b ha _ hlt
  have hplace := idxOf_lt hascending hpositive ha
  rw [position, if_pos ha]
  constructor <;> omega

end Pairs

section Updates

variable {m m' : DiagramManager} {used : UsedIDs} {idPairs : List (ℤ × ℤ)}

def retarget (idPairs : List (ℤ × ℤ)) (s : Shape) : Shape :=
  match s.kind with
  | .line source target => { s with kind := .line (renamed idPairs source) (renamed idPairs target) }
  | _ => s

def regrid (idPairs : List (ℤ × ℤ)) (used : UsedIDs) (s : Shape) : Shape :=
  match s.kind with
  | .grid cells => { s with kind := .grid ((replaceCells idPairs cells).filter fun id => (used.lookup id).isSome) }
  | _ => s

theorem retarget_address (idPairs : List (ℤ × ℤ)) (s : Shape) : (retarget idPairs s).address = s.address := by
  rw [retarget]
  split <;> rfl

theorem regrid_address (idPairs : List (ℤ × ℤ)) (used : UsedIDs) (s : Shape) : (regrid idPairs used s).address = s.address := by
  rw [regrid]
  split <;> rfl

/-- Both ends of the line lead to shapes once they are renamed. -/
def Resolved (idPairs : List (ℤ × ℤ)) (used : UsedIDs) (s : Shape) : Prop :=
  ∃ source target, s.kind = .line source target ∧ renamed idPairs source ∈ used ∧ renamed idPairs target ∈ used

theorem map_at {g h : Shape → Shape} {s : Shape} (hd : (addresses m.items).Nodup) (hs : s ∈ m.items) (hsame : g s = h s) :
    (m.children.map fun t => if located s.address t then g t else t) =
      m.children.map fun t => if located s.address t then h t else t := by
  apply Forest.map_congr
  intro t ht
  split
  · rename_i hlocated
    obtain rfl : t = s := List.inj_on_of_nodup_map hd ht hs (by simpa [located] using hlocated)
    exact hsame
  · rfl

theorem updateConnection_resolved {s : Shape} (hd : (addresses m.items).Nodup) (hused : m.usedIDs = used)
    (hs : s ∈ m.items) (h : Resolved idPairs used s) : updateConnection idPairs m s.address =
      .ok { m with children := m.children.map fun t => if located s.address t then retarget idPairs t else t } := by
  obtain ⟨source, target, hkind, hsource, htarget⟩ := h
  obtain ⟨below, hfind⟩ := find_of_mem hd hs
  have hpresent : (m.getItem (renamed idPairs source)).isSome ∧ (m.getItem (renamed idPairs target)).isSome := by
    rw [getItem, getItem, hused, AList.lookup_isSome, AList.lookup_isSome]
    exact ⟨hsource, htarget⟩
  obtain ⟨address, id, className, kind, serialized⟩ := s
  obtain rfl : kind = .line source target := hkind
  rw [updateConnection, hfind]
  show (if _ then _ else _) = _
  rw [if_pos hpresent, setEnds, map_at hd hs (g := retarget idPairs)
    (h := fun t => { t with kind := .line (renamed idPairs source) (renamed idPairs target) }) rfl]

theorem updateGrid_eq {s : Shape} (hd : (addresses m.items).Nodup) (hused : m.usedIDs = used) (hs : s ∈ m.items)
    (h : s.isGrid = true) : updateGrid idPairs m s.address =
      .ok { m with children := m.children.map fun t => if located s.address t then regrid idPairs used t else t } := by
  obtain ⟨below, hfind⟩ := find_of_mem hd hs
  obtain ⟨address, id, className, kind, serialized⟩ := s
  cases kind with
  | line source target => cases h
  | other => cases h
  | grid cells =>
    rw [updateGrid, hfind]
    show Except.ok _ = _
    rw [map_at hd hs (g := regrid idPairs used) (h := fun t => { t with
      kind := .grid ((replaceCells idPairs cells).filter fun id => (used.lookup id).isSome) }) rfl]
    subst hused
    rfl

/-- Where each update changes the shape at its address only, all of them together change the shapes that are listed. -/
theorem foldlM_update {update : DiagramManager → ℕ → Except Fault DiagramManager} {g : Shape → Shape}
    {P : Shape → Prop} (haddress : ∀ s, (g s).address = s.address)
    (hupdate : ∀ (m : DiagramManager) (s : Shape), (addresses m.items).Nodup → m.usedIDs = used → s ∈ m.items → P s →
      update m s.address = .ok { m with children := m.children.map fun t => if located s.address t then g t else t })
    {shapes : List ℕ} (hnodup : shapes.Nodup) (hd : (addresses m.items).Nodup) (hused : m.usedIDs = used)
    (hshapes : ∀ a ∈ shapes, ∃ s ∈ m.items, P s ∧ s.address = a) :
    shapes.foldlM update m =
      .ok { m with children := m.children.map fun t => if t.address ∈ shapes then g t else t } := by
  induction shapes generalizing m with
  | nil =>
    have hsame : (m.children.map fun t => if t.address ∈ ([] : List ℕ) then g t else t) = m.children := by
      refine Eq.trans (Forest.map_congr fun t _ => ?_) m.children.map_id
      exact if_neg List.not_mem_nil
    rw [hsame]
    rfl
  | cons a shapes ih =>
    obtain ⟨hout, hrest⟩ := List.nodup_cons.mp hnodup
    obtain ⟨s, hs, hP, rfl⟩ := hshapes a List.mem_cons_self
    have hfirst := hupdate m s hd hused hs hP
    have hkeep : ∀ t : Shape, (if located s.address t then g t else t).address = t.address := by
      intro t
      split
      · exact haddress t
      · rfl
    have hd_next : (addresses (m.children.map fun t => if located s.address t then g t else t).items).Nodup := by
      rw [Forest.items_map, addresses_map hkeep]
      exact hd
    have hnext := ih (m := { m with
        children := m.children.map fun t => if located s.address t then g t else t }) hrest hd_next hused (by
      intro b hb
      obtain ⟨t, ht, hPt, rfl⟩ := hshapes b (List.mem_cons_of_mem _ hb)
      refine ⟨t, ?_, hPt, rfl⟩
      rw [DiagramManager.items, Forest.items_map]
      refine List.mem_map.mpr ⟨t, ht, if_neg ?_⟩
      simp only [located, decide_eq_true_eq]
      exact fun heq => hout (heq ▸ hb))
    rw [List.foldlM_cons, hfirst]
    show shapes.foldlM update _ = _
    rw [hnext]
    have hmaps : ((m.children.map fun t => if located s.address t then g t else t).map fun t =>
        if t.address ∈ shapes then g t else t) = m.children.map fun t => if t.address ∈ s.address :: shapes then g t else t := by
      rw [Forest.map_map]
      apply Forest.map_congr
      intro t _
      by_cases hlocated : t.address = s.address
      · simp [located, hlocated, haddress, hout]
      · simp [located, hlocated]
    rw [hmaps]

/-- The same where the list holds the addresses of the shapes that meet `p`, and `g` leaves the others alone. -/
theorem foldlM_update_filter {update : DiagramManager → ℕ → Except Fault DiagramManager} {g : Shape → Shape}
    {P : Shape → Prop} {p : Shape → Bool} (haddress : ∀ s, (g s).address = s.address)
    (hupdate : ∀ (m : DiagramManager) (s : Shape), (addresses m.items).Nodup → m.usedIDs = used → s ∈ m.items → P s →
      update m s.address = .ok { m with children := m.children.map fun t => if located s.address t then g t else t })
    (hothers : ∀ s, p s = false → g s = s) (hd : (addresses m.items).Nodup) (hused : m.usedIDs = used)
    (hP : ∀ s ∈ m.items, p s = true → P s) :
    (addresses (m.items.filter p)).foldlM update m = .ok { m with children := m.children.map g } := by
  have hnodup : (addresses (m.items.filter p)).Nodup := hd.sublist (List.filter_sublist.map _)
  rw [foldlM_update haddress hupdate hnodup hd hused]
  · have hmap : (m.children.map fun t => if t.address ∈ addresses (m.items.filter p) then g t else t) =
        m.children.map g := by
      apply Forest.map_congr
      intro t ht
      cases hp : p t with
      | true => exact if_pos (List.mem_map_of_mem (List.mem_filter.mpr ⟨ht, hp⟩))
      | false =>
        rw [hothers t hp]
        exact ite_self t
    rw [hmap]
  · intro a ha
    obtain ⟨s, hs, rfl⟩ := List.mem_map.mp ha
    obtain ⟨hs, hp⟩ := List.mem_filter.mp hs
    exact ⟨s, hs, hP s hs hp, rfl⟩

theorem retarget_of_not_line {s : Shape} (h : s.isLine = false) : retarget idPairs s = s := by
  rw [retarget]
  cases hkind : s.kind with
  | line source target =>
    rw [Shape.isLine, hkind] at h
    cases h
  | grid cells => rfl
  | other => rfl

theorem regrid_of_not_grid {s : Shape} (h : s.isGrid = false) : regrid idPairs used s = s := by
  rw [regrid]
  cases hkind : s.kind with
  | line source target => rfl
  | grid cells =>
    rw [Shape.isGrid, hkind] at h
    cases h
  | other => rfl

theorem retarget_isGrid (s : Shape) : (retarget idPairs s).isGrid = s.isGrid := by
  rw [retarget]
  split
  · rename_i source target hkind
    rw [Shape.isGrid, Shape.isGrid, hkind]
  · rfl

end Updates

end Loading

/-- A saved shape as it is read back into an empty diagram: it has its place in the document for its id, and so have the
shapes that it names. -/
def Shape.placed (start : ℕ) (ids : List ℤ) (s : Shape) : Shape where
  address := start + ids.idxOf s.id
  id := Loading.position ids s.id
  className := s.className
  kind := match s.kind with
    | .line source target => .line (Loading.position ids source) (Loading.position ids target)
    | .grid cells => .grid (cells.map (Loading.position ids))
    | .other => .other

namespace DiagramManager

open NewShape Loading

variable {create : Text → Option ShapeClass} {m : DiagramManager}

/-- What a document holds of a diagram. -/
def saved (m : DiagramManager) : Forest Shape := m.children.prune fun s => !s.serialized

def savedIds (m : DiagramManager) : List ℤ := m.saved.items.map (·.id)

theorem serializeObjects_saved (f : Forest Shape) :
    serializeObjects (f.prune fun s => !s.serialized) = serializeObjects f := by
  induction f with
  | nil => rfl
  | node s below next ihb ihn =>
    cases hserialized : s.serialized <;> simp [Forest.prune, serializeObjects, hserialized, ihb, ihn]

/-- The classes are known and taken, the ids are distinct and set, lines and grids name shapes that are saved with them;
where a grid has cells the ids ascend in the document. -/
structure Savable (create : Text → Option ShapeClass) (m : DiagramManager) : Prop where
  known : ∀ s ∈ m.saved.items, create s.className = some s.kind.cls
  accepted : ∀ s ∈ m.saved.items, m.isShapeAccepted s.className = true
  top : ∀ s ∈ m.saved.roots, m.isTopShapeAccepted s.className = true
  fits : ∀ s ∈ m.saved.items, PropertyIO.FitsLong s.id ∧ s.kind.Fits
  distinct : m.savedIds.Nodup
  set : -1 ∉ m.savedIds
  ends : ∀ s ∈ m.saved.items, ∀ id ∈ s.ends, id ∈ m.savedIds
  cells : ∀ s ∈ m.saved.items, s.cells.Nodup ∧ ∀ id ∈ s.cells, id ∈ m.savedIds
  ascending : (∃ s ∈ m.saved.items, s.cells ≠ []) → m.savedIds.Pairwise (· < ·) ∧ ∀ id ∈ m.savedIds, 0 < id

theorem Savable.restorable (h : Savable create m) : ∀ s ∈ m.saved.items, Restorable create m.clear s := by
  intro s hs
  refine ⟨?_, h.known s hs, h.accepted s hs, (h.fits s hs).1, (h.fits s hs).2⟩
  simpa using Forest.mem_prune hs

/-- The state when all shapes have been read and no end or cell has been renamed yet. -/
def read (m : DiagramManager) (start : ℕ) : Loading := restored none m.saved { manager := m.clear, next := start }

section Reading

variable {start : ℕ}

theorem read_children (h : m.savedIds.Nodup) (start : ℕ) :
    (m.read start).manager.children = m.saved.map (copied start m.savedIds) :=
  mapAccum_clear m start h

theorem read_items (h : m.savedIds.Nodup) (start : ℕ) :
    (m.read start).manager.items = m.saved.items.map (copied start m.savedIds) := by
  rw [items, read_children h, Forest.items_map]

theorem thread_read (h : m.savedIds.Nodup) (start : ℕ) :
    Forest.thread register { manager := m.clear, next := start } m.saved.items =
      ((m.read start).manager.items, (m.saved.mapAccum register { manager := m.clear, next := start }).2) := by
  have hread : (m.saved.mapAccum register { manager := m.clear, next := start }).1 =
      m.saved.map (copied start m.savedIds) := mapAccum_clear m start h
  rw [Forest.thread_items, read_items h, hread, Forest.items_map]

theorem read_idPairs (h : m.savedIds.Nodup) (start : ℕ) : (m.read start).idPairs = pairsOf m.savedIds := by
  have hpairs := thread_idPairs m.saved.items { manager := m.clear, next := start }
  rw [thread_read h, List.nil_append, read_items h, List.map_map] at hpairs
  refine hpairs.trans ?_
  rw [pairsOf, List.map_prod_left_eq_zip]
  have hids : m.saved.items.map ((fun s : Shape => s.id) ∘ copied start m.savedIds) =
      m.savedIds.map (position m.savedIds) := by
    rw [savedIds, List.map_map]
    rfl
  rw [hids]
  rfl

theorem read_lines (h : m.savedIds.Nodup) (start : ℕ) :
    (m.read start).linesForUpdate = addresses ((m.read start).manager.items.filter Shape.isLine) := by
  have hlines := (thread_lists m.saved.items { manager := m.clear, next := start }).1
  rw [thread_read h, List.nil_append] at hlines
  exact hlines

theorem read_grids (h : m.savedIds.Nodup) (start : ℕ) :
    (m.read start).gridsForUpdate = addresses ((m.read start).manager.items.filter Shape.isGrid) := by
  have hgrids := (thread_lists m.saved.items { manager := m.clear, next := start }).2
  rw [thread_read h, List.nil_append] at hgrids
  exact hgrids

theorem read_used (h : m.savedIds.Nodup) (start : ℕ) (id : ℤ) : id ∈ (m.read start).manager.usedIDs ↔
    id = -1 ∨ id ∈ m.savedIds.map (position m.savedIds) := by
  have hused := thread_used m.saved.items { manager := m.clear, next := start } id
  rw [thread_read h, read_items h, List.map_map] at hused
  refine hused.trans ?_
  have hids : m.saved.items.map ((fun s : Shape => s.id) ∘ copied start m.savedIds) =
      m.savedIds.map (position m.savedIds) := by
    rw [savedIds, List.map_map]
    rfl
  rw [hids]
  exact or_congr_left (mem_rootOnly id)

theorem read_next (h : m.savedIds.Nodup) (start : ℕ) : (m.read start).next = start + m.savedIds.length := by
  have hnext := (addresses_thread m.saved.items { manager := m.clear, next := start }).2
  rw [thread_read h] at hnext
  refine hnext.trans ?_
  rw [savedIds, List.length_map]

theorem read_distinct (h : m.savedIds.Nodup) (start : ℕ) : (addresses (m.read start).manager.items).Nodup := by
  have haddresses := (addresses_thread m.saved.items { manager := m.clear, next := start }).1
  rw [thread_read h] at haddresses
  rw [haddresses]
  exact List.nodup_range'

theorem position_used (h : m.Savable create) (start : ℕ) {id : ℤ} (hid : id = -1 ∨ id ∈ m.savedIds) :
    position m.savedIds id ∈ (m.read start).manager.usedIDs := by
  rw [read_used h.distinct]
  rcases hid with rfl | hid
  · exact .inl (if_neg h.set)
  · exact .inr (List.mem_map_of_mem hid)

/-- Every line that is read finds both its ends. -/
theorem resolved_read (h : m.Savable create) (start : ℕ) {s : Shape} (hs : s ∈ (m.read start).manager.items)
    (hline : s.isLine = true) : Resolved (pairsOf m.savedIds) (m.read start).manager.usedIDs s := by
  rw [read_items h.distinct] at hs
  obtain ⟨t, ht, rfl⟩ := List.mem_map.mp hs
  cases hkind : t.kind with
  | grid cells =>
    rw [Shape.isLine, copied, hkind] at hline
    cases hline
  | other =>
    rw [Shape.isLine, copied, hkind] at hline
    cases hline
  | line source target =>
    have hend (id : ℤ) (hid : id = source ∨ id = target) : id = -1 ∨ id ∈ m.savedIds := by
      by_cases hset : id = -1
      · exact .inl hset
      · right
        apply h.ends t ht
        rw [Shape.ends, hkind]
        apply List.mem_filter.mpr
        refine ⟨?_, by simpa using hset⟩
        rcases hid with rfl | rfl <;> simp
    refine ⟨source, target, hkind, ?_, ?_⟩
    · rw [renamed_pairsOf h.distinct]
      exact position_used h start (hend source (.inl rfl))
    · rw [renamed_pairsOf h.distinct]
      exact position_used h start (hend target (.inr rfl))

/-- What the updates make of a shape that was read is the shape in its place. -/
theorem updated_eq_placed (h : m.Savable create) {start : ℕ} {s : Shape} (hs : s ∈ m.saved.items) :
    regrid (pairsOf m.savedIds) (m.read start).manager.usedIDs
      (retarget (pairsOf m.savedIds) (copied start m.savedIds s)) = s.placed start m.savedIds := by
  cases hkind : s.kind with
  | line source target =>
    simp only [retarget, regrid, copied, Shape.placed, hkind, renamed_pairsOf h.distinct]
  | other => simp only [retarget, regrid, copied, Shape.placed, hkind]
  | grid cells =>
    have hcells : s.cells = cells := by rw [Shape.cells, hkind]
    obtain ⟨hnodup, hsaved⟩ := h.cells s hs
    rw [hcells] at hnodup hsaved
    have hrenamed : replaceCells (pairsOf m.savedIds) cells = cells.map (position m.savedIds) := by
      by_cases hempty : cells = []
      · rw [hempty, List.map_nil]
        have hnone (pairs : List (ℤ × ℤ)) : replaceCells pairs [] = [] := by
          induction pairs with
          | nil => rfl
          | cons pair pairs ih => exact ih
        exact hnone _
      · obtain ⟨hascending, hpositive⟩ := h.ascending ⟨s, hs, by rwa [hcells]⟩
        rw [replaceCells_eq (fun pair _ => List.nodup_iff_count_le_one.mp hnodup pair.1)
          (pairsOf_apart hascending hpositive)]
        exact List.map_congr_left fun id _ => renamed_pairsOf h.distinct id
    have hpresent : (cells.map (position m.savedIds)).filter
        (fun id => ((m.read start).manager.usedIDs.lookup id).isSome) = cells.map (position m.savedIds) := by
      apply List.filter_eq_self.mpr
      intro id hid
      obtain ⟨old, hold, rfl⟩ := List.mem_map.mp hid
      exact AList.lookup_isSome.mpr (position_used h start (.inr (hsaved old hold)))
    simp only [retarget, regrid, copied, Shape.placed, hkind, hrenamed, hpresent]

end Reading

theorem Savable.load (h : m.Savable create) (start : ℕ) :
    Loading.load create (serializeObjects m.children) none { manager := m.clear, next := start } = .ok (m.read start) := by
  rw [← serializeObjects_saved]
  exact load_saved (Sound.initial (consistent_clear m) fun a ha => (List.not_mem_nil ha).elim) h.restorable
    (fun _ => h.top) fun p hp => by cases hp

/-- The diagram that a saved one is read back as. -/
def reloaded (m : DiagramManager) (start : ℕ) : DiagramManager :=
  { (m.read start).manager with children := m.saved.map (Shape.placed start m.savedIds), modified := false }

theorem Savable.deserializeFromXml (h : m.Savable create) (start : ℕ) :
    DiagramManager.deserializeFromXml create m.serializeToXml m.clear start =
      .ok (m.reloaded start, start + m.savedIds.length) := by
  have hdistinct := read_distinct h.distinct start
  have hlines := foldlM_update_filter (m := (m.read start).manager)
    (retarget_address (pairsOf m.savedIds)) (fun _ _ => updateConnection_resolved)
    (fun _ => retarget_of_not_line) hdistinct rfl fun s hs => resolved_read h start hs
  have hitems : ((m.read start).manager.children.map (retarget (pairsOf m.savedIds))).items =
      (m.read start).manager.items.map (retarget (pairsOf m.savedIds)) := Forest.items_map _ _
  have hretargeted : (addresses ((m.read start).manager.children.map (retarget (pairsOf m.savedIds))).items).Nodup := by
    rw [hitems, addresses_map (retarget_address _)]
    exact hdistinct
  have hgrids := foldlM_update_filter (m := { (m.read start).manager with
      children := (m.read start).manager.children.map (retarget (pairsOf m.savedIds)) })
   
    (regrid_address (pairsOf m.savedIds) (m.read start).manager.usedIDs)
    (fun _ _ => updateGrid_eq) (fun _ => regrid_of_not_grid) hretargeted rfl fun _ _ hgrid => hgrid
  have hlist : addresses (((m.read start).manager.children.map (retarget (pairsOf m.savedIds))).items.filter
      Shape.isGrid) = (m.read start).gridsForUpdate := by
    rw [read_grids h.distinct, hitems, List.filter_map, addresses_map (retarget_address _)]
    exact congrArg addresses (List.filter_congr fun s _ => retarget_isGrid s)
  have hplaced : ((m.read start).manager.children.map (retarget (pairsOf m.savedIds))).map
      (regrid (pairsOf m.savedIds) (m.read start).manager.usedIDs) = m.saved.map (Shape.placed start m.savedIds) := by
    rw [read_children h.distinct, Forest.map_map, Forest.map_map]
    exact Forest.map_congr fun s hs => updated_eq_placed h hs
  rw [serializeToXml, Forest.single, DiagramManager.deserializeFromXml, if_pos rfl, deserializeObjects, h.load start]
  show Except.map _ (((m.read start).linesForUpdate.foldlM (updateConnection (m.read start).idPairs)
    (m.read start).manager).bind _) = _
  rw [read_lines h.distinct, read_idPairs h.distinct, hlines]
  show Except.map _ (Except.map _ ((m.read start).gridsForUpdate.foldlM (updateGrid (pairsOf m.savedIds)) _)) = _
  rw [← hlist]
  refine (congrArg (fun loaded => Except.map _ (Except.map _ loaded)) hgrids).trans ?_
  rw [hplaced, read_next h.distinct]
  rfl

/-- A grid with two tables in its cells, a label that is not saved, and a line between two of them. -/
def someDiagram : DiagramManager :=
  { new with
    children := .node { address := 1, id := 3, className := ['G'], kind := .grid [9, 7] }
      (.node { address := 2, id := 7, className := ['T'] } .nil
        (.node { address := 3, id := 9, className := ['T'] } .nil .nil))
      (.node { address := 4, id := 10, className := ['T'], serialized := false } .nil
        (.node { address := 5, id := 12, className := ['L'], kind := .line 9 3 } .nil .nil)) }

theorem someDiagram_savable : someDiagram.Savable someClasses where
  known := by decide
  accepted := by decide
  top := by decide
  fits := by decide
  distinct := by decide
  set := by decide
  ends := by decide
  cells := by decide
  ascending := fun _ => by decide

section Again

variable {ids : List ℤ} {start : ℕ}

def counted (n : ℕ) : List ℤ := (List.range n).map fun i : ℕ => (i : ℤ) + 1

theorem length_counted (n : ℕ) : (counted n).length = n := by simp [counted]

theorem getElem_counted {n i : ℕ} (h : i < (counted n).length) : (counted n)[i] = (i : ℤ) + 1 := by simp [counted]

theorem mem_counted {n : ℕ} {id : ℤ} : id ∈ counted n ↔ 0 < id ∧ id ≤ n := by
  rw [counted, List.mem_map]
  constructor
  · rintro ⟨i, hi, rfl⟩
    have hlt := List.mem_range.mp hi
    omega
  · rintro ⟨hpos, hle⟩
    refine ⟨(id - 1).toNat, List.mem_range.mpr ?_, ?_⟩ <;> omega

theorem counted_ascending (n : ℕ) : (counted n).Pairwise (· < ·) := by
  rw [counted, List.pairwise_map]
  apply List.Pairwise.imp _ List.pairwise_lt_range
  intro i j hlt
  omega

theorem counted_nodup (n : ℕ) : (counted n).Nodup := (counted_ascending n).imp fun hlt => ne_of_lt hlt

theorem map_position (h : ids.Nodup) : ids.map (position ids) = counted ids.length := by
  apply List.ext_getElem (by rw [List.length_map, length_counted])
  intro i hi hj
  rw [List.length_map] at hi
  rw [List.getElem_map, getElem_counted hj, position, if_pos (List.getElem_mem hi), h.idxOf_getElem i hi]

/-- Where the ids count from 1 on in the document already, they stay. -/
theorem position_counted (n : ℕ) (id : ℤ) : position (counted n) id = id := by
  rw [position]
  split
  · rename_i hmem
    obtain ⟨i, hi, hget⟩ := List.getElem_of_mem hmem
    rw [← hget, (counted_nodup n).idxOf_getElem i hi, getElem_counted hi]
  · rfl

theorem cls_placed (start : ℕ) (ids : List ℤ) (s : Shape) : (s.placed start ids).kind.cls = s.kind.cls := by
  rw [Shape.placed]
  cases s.kind <;> rfl

theorem reloaded_saved (m : DiagramManager) (start : ℕ) :
    (m.reloaded start).saved = m.saved.map (Shape.placed start m.savedIds) := by
  apply Forest.prune_eq_self
  intro s hs
  rw [reloaded, Forest.items_map] at hs
  obtain ⟨t, -, rfl⟩ := List.mem_map.mp hs
  rfl

theorem reloaded_savedIds (h : m.savedIds.Nodup) (start : ℕ) :
    (m.reloaded start).savedIds = counted m.savedIds.length := by
  rw [← map_position h, savedIds, reloaded_saved, Forest.items_map, List.map_map, savedIds, List.map_map]
  rfl

theorem mem_reloaded {s : Shape} (hs : s ∈ (m.reloaded start).saved.items) :
    ∃ t ∈ m.saved.items, t.placed start m.savedIds = s := by
  rw [reloaded_saved, Forest.items_map] at hs
  exact List.mem_map.mp hs

theorem position_mem (h : m.savedIds.Nodup) {id : ℤ} (hid : id ∈ m.savedIds) :
    position m.savedIds id ∈ counted m.savedIds.length := by
  rw [← map_position h]
  exact List.mem_map_of_mem hid

/-- An end of a line is not set, or it is the place of a shape. -/
theorem Savable.position_end (h : m.Savable create) {s : Shape} (hs : s ∈ m.saved.items) {source target : ℤ}
    (hkind : s.kind = .line source target) {id : ℤ} (hid : id = source ∨ id = target) :
    position m.savedIds id = -1 ∨ position m.savedIds id ∈ counted m.savedIds.length := by
  by_cases hset : id = -1
  · left
    rw [hset]
    exact if_neg h.set
  · right
    apply position_mem h.distinct
    apply h.ends s hs
    rw [Shape.ends, hkind]
    apply List.mem_filter.mpr
    refine ⟨?_, by simpa using hset⟩
    rcases hid with rfl | rfl <;> simp

theorem Savable.reloaded (h : m.Savable create) (hmany : m.savedIds.length < 2 ^ 31) (start : ℕ) :
    (m.reloaded start).Savable create := by
  have hids := reloaded_savedIds h.distinct start
  have hbound {id : ℤ} (hid : id ∈ counted m.savedIds.length) : PropertyIO.FitsInt id := by
    obtain ⟨hpos, hle⟩ := mem_counted.mp hid
    constructor <;> omega
  have haccepted := accepted_mapAccum m.saved { manager := m.clear, next := start }
  refine ⟨?_, ?_, ?_, ?_, ?_, ?_, ?_, ?_, ?_⟩
  · intro s hs
    obtain ⟨t, ht, rfl⟩ := mem_reloaded hs
    rw [cls_placed]
    exact h.known t ht
  · intro s hs
    obtain ⟨t, ht, rfl⟩ := mem_reloaded hs
    exact (congrArg (fun taken => isAccepted taken t.className) haccepted.1).trans (h.accepted t ht)
  · intro s hs
    rw [reloaded_saved, Forest.roots_map] at hs
    obtain ⟨t, ht, rfl⟩ := List.mem_map.mp hs
    exact (congrArg (fun taken => isAccepted taken t.className) haccepted.2).trans (h.top t ht)
  · intro s hs
    obtain ⟨t, ht, rfl⟩ := mem_reloaded hs
    refine ⟨(hbound (position_mem h.distinct (List.mem_map_of_mem ht))).toLong, ?_⟩
    rw [Shape.placed]
    cases hkind : t.kind with
    | line source target =>
      have hend {id : ℤ} (hid : id = source ∨ id = target) : PropertyIO.FitsLong (position m.savedIds id) := by
        rcases h.position_end ht hkind hid with hunset | hplace
        · rw [hunset]
          decide
        · exact (hbound hplace).toLong
      exact ⟨hend (.inl rfl), hend (.inr rfl)⟩
    | grid cells =>
      intro id hid
      obtain ⟨old, hold, rfl⟩ := List.mem_map.mp hid
      apply hbound
      apply position_mem h.distinct
      apply (h.cells t ht).2
      rwa [Shape.cells, hkind]
    | other => trivial
  · rw [hids]
    exact counted_nodup _
  · rw [hids, mem_counted]
    omega
  · intro s hs id hid
    obtain ⟨t, ht, rfl⟩ := mem_reloaded hs
    have hset := Shape.ends_ne hid
    rw [hids]
    cases hkind : t.kind with
    | line source target =>
      simp only [Shape.ends, Shape.placed, hkind, List.mem_filter, List.mem_cons, List.not_mem_nil, or_false] at hid
      rcases hid.1 with rfl | rfl
      · exact (h.position_end ht hkind (.inl rfl)).resolve_left hset
      · exact (h.position_end ht hkind (.inr rfl)).resolve_left hset
    | grid cells => simp [Shape.ends, Shape.placed, hkind] at hid
    | other => simp [Shape.ends, Shape.placed, hkind] at hid
  · intro s hs
    obtain ⟨t, ht, rfl⟩ := mem_reloaded hs
    rw [hids]
    obtain ⟨hnodup, hsaved⟩ := h.cells t ht
    cases hkind : t.kind with
    | line source target => simp [Shape.cells, Shape.placed, hkind]
    | other => simp [Shape.cells, Shape.placed, hkind]
    | grid cells =>
      have hcells : t.cells = cells := by rw [Shape.cells, hkind]
      rw [hcells] at hnodup hsaved
      have hplaced : (t.placed start m.savedIds).cells = cells.map (position m.savedIds) := by
        rw [Shape.cells, Shape.placed, hkind]
      rw [hplaced]
      constructor
      · apply List.Nodup.map_on _ hnodup
        intro a ha b hb heq
        rw [position, position, if_pos (hsaved a ha), if_pos (hsaved b hb)] at heq
        exact (List.idxOf_inj (hsaved a ha)).mp (by omega)
      · intro id hid
        obtain ⟨old, hold, rfl⟩ := List.mem_map.mp hid
        exact position_mem h.distinct (hsaved old hold)
  · intro _
    rw [hids]
    exact ⟨counted_ascending _, fun id hid => (mem_counted.mp hid).1⟩

theorem serializeObjects_map {g : Shape → Shape} {f : Forest Shape} (hclass : ∀ s ∈ f.items, (g s).className = s.className)
    (hproperties : ∀ s ∈ f.items, (g s).properties = s.properties)
    (hserialized : ∀ s ∈ f.items, (g s).serialized = s.serialized) : serializeObjects (f.map g) = serializeObjects f := by
  induction f with
  | nil => rfl
  | node s below next ihb ihn =>
    simp only [Forest.items_node, List.mem_cons, List.mem_append, forall_eq_or_imp] at hclass hproperties hserialized
    have hbelow := ihb (fun t ht => hclass.2 t (.inl ht)) (fun t ht => hproperties.2 t (.inl ht))
      fun t ht => hserialized.2 t (.inl ht)
    have hnext := ihn (fun t ht => hclass.2 t (.inr ht)) (fun t ht => hproperties.2 t (.inr ht))
      fun t ht => hserialized.2 t (.inr ht)
    rw [Forest.map, serializeObjects, serializeObjects, hclass.1, hproperties.1, hserialized.1, hbelow, hnext]

theorem properties_placed (start n : ℕ) (s : Shape) : (s.placed start (counted n)).properties = s.properties := by
  rw [Shape.properties, Shape.properties, Shape.placed]
  simp only [position_counted]
  cases s.kind with
  | line source target => rfl
  | grid cells =>
    have hcells : cells.map (position (counted n)) = cells.map id := List.map_congr_left fun id _ => position_counted n id
    rw [List.map_id] at hcells
    simp only [hcells]
  | other => rfl

end Again

end DiagramManager

end DbHandler.Shapes
