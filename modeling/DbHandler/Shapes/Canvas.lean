import DbHandler.Shapes.CanvasHistory

namespace DbHandler.Shapes

open Foundation Foundation.Runs

/-- A canvas whose history keeps documents; no shape is being drawn or edited in place. -/
structure Canvas where
  history : CanvasHistory (Forest Element) := {}
  manager : DiagramManager
  next : ℕ := 0

/-- What a user does: a change of any kind, behind which the canvas saves its state, and the two ways through the history. -/
inductive CanvasEvent
  | changed (m : DiagramManager)
  | undo
  | redo

namespace DiagramManager

open Loading

variable {create : Text → Option ShapeClass} {m : DiagramManager}

/-- What is saved of a diagram, with the shapes numbered through. -/
def numbered (m : DiagramManager) : Forest Shape := m.saved.map (Shape.placed 0 m.savedIds)

theorem savable_clear : m.clear.Savable create where
  known := fun _ hs => (List.not_mem_nil hs).elim
  accepted := fun _ hs => (List.not_mem_nil hs).elim
  top := fun _ hs => (List.not_mem_nil hs).elim
  fits := fun _ hs => (List.not_mem_nil hs).elim
  distinct := List.nodup_nil
  set := List.not_mem_nil
  ends := fun _ hs => (List.not_mem_nil hs).elim
  cells := fun _ hs => (List.not_mem_nil hs).elim
  ascending := by
    rintro ⟨s, hs, -⟩
    exact (List.not_mem_nil hs).elim

theorem idxOf_counted (n : ℕ) {i : ℕ} (h : i < n) : (counted n).idxOf ((i : ℤ) + 1) = i := by
  have hi : i < (counted n).length := by rwa [length_counted]
  have hget := (counted_nodup n).idxOf_getElem i hi
  rwa [getElem_counted hi] at hget

theorem placed_placed (start : ℕ) {s : Shape} (hs : s ∈ m.saved.items) :
    (s.placed start m.savedIds).placed 0 (counted m.savedIds.length) = s.placed 0 m.savedIds := by
  have hmem : s.id ∈ m.savedIds := List.mem_map_of_mem hs
  have haddress : (counted m.savedIds.length).idxOf (position m.savedIds s.id) = m.savedIds.idxOf s.id := by
    rw [position, if_pos hmem]
    exact idxOf_counted _ (List.idxOf_lt_length_of_mem hmem)
  have hkept : (position (counted m.savedIds.length)) = id := funext fun _ => position_counted _ _
  simp only [Shape.placed, haddress, hkept, id_eq]
  cases s.kind with
  | line source target => rfl
  | grid cells => simp only [List.map_id]
  | other => rfl

/-- Reading a diagram back numbers its shapes anew, and that is all. -/
theorem numbered_reloaded (h : m.savedIds.Nodup) (start : ℕ) : (m.reloaded start).numbered = m.numbered := by
  rw [numbered, reloaded_savedIds h, reloaded_saved, Forest.map_map]
  exact Forest.map_congr fun s hs => placed_placed start hs

end DiagramManager

namespace Canvas

variable (create : Text → Option ShapeClass)

/-- The flag is put back that serializing resets. -/
def saveCanvasState (c : Canvas) : Option Canvas :=
  (c.history.saveCanvasState c.manager.serializeToXml).map fun history => { c with history := history }

/-- `wxSFCanvasState::Restore` of the document that the history moved to, if it moved to one. -/
def restore (c : Canvas) (moved : CanvasHistory (Forest Element) × Option (Forest Element)) : Option Canvas :=
  match moved.2 with
  | none => some { c with history := moved.1 }
  | some document =>
    (c.manager.clear.deserializeFromXml create document c.next).toOption.map fun loaded =>
      { history := moved.1, manager := { loaded.1 with modified := true }, next := loaded.2 }

def undo (c : Canvas) : Option Canvas := c.history.restoreOlderState.bind (c.restore create)

def redo (c : Canvas) : Option Canvas := c.history.restoreNewerState.bind (c.restore create)

def step (c : Canvas) : CanvasEvent → Option Canvas
  | .changed m => { c with manager := m }.saveCanvasState
  | .undo => c.undo create
  | .redo => c.redo create

/-- The constructor saves the first state. -/
def opened (m : DiagramManager) : Option Canvas := { manager := m : Canvas }.saveCanvasState

end Canvas

/-- What the user is to see: the versions of the diagram, and the one that is shown. -/
structure Session where
  versions : Timeline DiagramManager
  shown : DiagramManager

namespace Session

def opened (m : DiagramManager) : Session := ⟨.here [] m [], m⟩

def goTo (w : Session) (versions : Timeline DiagramManager) : Session := ⟨versions, versions.present.getD w.shown⟩

def step (w : Session) : CanvasEvent → Session
  | .changed m => ⟨w.versions.save 25 m, m⟩
  | .undo => w.goTo w.versions.undo
  | .redo => w.goTo w.versions.redo

def after (w : Session) (events : List CanvasEvent) : Session := events.foldl step w

/-- Changes, then steps back, then steps forward again. -/
def backAndForth (ms : List DiagramManager) (back forward : ℕ) : List CanvasEvent :=
  ms.map .changed ++ (List.replicate back .undo ++ List.replicate forward .redo)

variable {w : Session}

/-- The version that is shown is the present one, if there is one. -/
def Current (w : Session) : Prop := ∀ v, w.versions.present = some v → w.shown = v

theorem Current.step (h : w.Current) (e : CanvasEvent) : (w.step e).Current := by
  have hmoved (t : Timeline DiagramManager) : (w.goTo t).Current := by
    intro v hv
    rw [goTo, show t.present = some v from hv]
    rfl
  cases e with
  | changed m =>
    intro v hv
    have hpresent : some m = some v := (Timeline.present_save m).symm.trans hv
    exact Option.some.inj hpresent
  | undo => exact hmoved _
  | redo => exact hmoved _

theorem Current.after (h : w.Current) (events : List CanvasEvent) : (w.after events).Current := by
  induction events generalizing w with
  | nil => exact h
  | cons e events ih => exact ih (h.step e)

theorem current_opened (m : DiagramManager) : (opened m).Current := fun _ hv => Option.some.inj hv

theorem after_append (w : Session) (events later : List CanvasEvent) :
    w.after (events ++ later) = (w.after events).after later := List.foldl_append

theorem after_changed (w : Session) (ms : List DiagramManager) :
    (w.after (ms.map .changed)).versions = ms.foldl (fun t m => t.save 25 m) w.versions := by
  induction ms generalizing w with
  | nil => rfl
  | cons m ms ih => exact ih (w.step (.changed m))

theorem after_undo (w : Session) (k : ℕ) :
    (w.after (List.replicate k .undo)).versions = (Timeline.undo^[k]) w.versions := by
  induction k generalizing w with
  | zero => rfl
  | succ k ih => exact ih (w.step .undo)

theorem after_redo (w : Session) (k : ℕ) :
    (w.after (List.replicate k .redo)).versions = (Timeline.redo^[k]) w.versions := by
  induction k generalizing w with
  | zero => rfl
  | succ k ih => exact ih (w.step .redo)

/-- After some changes, steps back and no more steps forward, what is shown is as many changes old as steps are left. -/
theorem shown_after (first : DiagramManager) (ms : List DiagramManager) (hmany : ms.length < 25) {j k : ℕ} (hj : j ≤ k)
    (hk : k ≤ ms.length) :
    (first :: ms)[ms.length - (k - j)]? = some ((opened first).after (backAndForth ms k j)).shown := by
  obtain ⟨older, now, newer, hsaved, hall⟩ := Timeline.saveAll [] first [] ms (by simpa using hmany)
  have hreverse : now :: older = (first :: ms).reverse := by rw [hall, List.reverse_cons]
  have hlength : (now :: older).length = ms.length + 1 := by rw [hreverse, List.length_reverse, List.length_cons]
  have hlt : ms.length - (k - j) < (first :: ms).length := by
    rw [List.length_cons]
    omega
  rw [List.getElem?_eq_getElem hlt, Option.some.injEq]
  apply Eq.symm
  apply (current_opened first).after
  rw [backAndForth, after_append, after_append, after_redo, after_undo, after_changed]
  show ((Timeline.redo^[j]) ((Timeline.undo^[k]) (ms.foldl (fun t m => t.save 25 m) (.here [] first [])))).present = _
  rw [hsaved, Timeline.redo_undo_iterate older now newer hj (by omega), Timeline.undo_iterate older now newer (by omega)]
  congr 1
  simp only [hreverse, List.getElem_reverse, List.length_cons]
  congr 1

end Session

namespace Canvas

open DiagramManager Loading

variable {create : Text → Option ShapeClass} {first m : DiagramManager} {c c' : Canvas} {w : Session}

/-- A diagram that can be saved and read back on a canvas that was opened with another one. -/
structure Fits (create : Text → Option ShapeClass) (first m : DiagramManager) : Prop where
  savable : m.Savable create
  accepted : m.acceptedShapes = first.acceptedShapes
  top : m.acceptedTopShapes = first.acceptedTopShapes

structure Shows (create : Text → Option ShapeClass) (first : DiagramManager) (c : Canvas) (w : Session) : Prop where
  valid : c.history.Valid
  depth : c.history.historyDepth = 25
  represents : c.history.Represents (w.versions.map serializeToXml)
  versions : ∀ v ∈ w.versions.versions, Fits create first v
  accepted : c.manager.acceptedShapes = first.acceptedShapes
  top : c.manager.acceptedTopShapes = first.acceptedTopShapes
  numbered : c.manager.numbered = w.shown.numbered

theorem shows_saved (hvalid : c.history.Valid) (hdepth : c.history.historyDepth = 25) {t : Timeline DiagramManager}
    (hrep : c.history.Represents (t.map serializeToXml)) (hversions : ∀ v ∈ t.versions, Fits create first v)
    (hfits : Fits create first c.manager) :
    ∃ c', c.saveCanvasState = some c' ∧ Shows create first c' ⟨t.save 25 c.manager, c.manager⟩ := by
  obtain ⟨history, hsave, hkept, hvalid', hrep'⟩ :=
    CanvasHistory.saveCanvasState_refines hvalid hrep (by rw [hdepth]; exact Nat.succ_pos 24) c.manager.serializeToXml
  refine ⟨{ c with history := history }, by rw [saveCanvasState, hsave]; rfl, ?_⟩
  constructor
  · exact hvalid'
  · exact hkept.trans hdepth
  · rwa [hdepth, ← Timeline.map_save] at hrep'
  · intro v hv
    rcases Timeline.mem_save hv with rfl | hv
    · exact hfits
    · exact hversions v hv
  · exact hfits.accepted
  · exact hfits.top
  · rfl

theorem shows_opened (hfirst : Fits create first first) :
    ∃ c, opened first = some c ∧ Shows create first c (Session.opened first) :=
  shows_saved (c := { manager := first }) (t := .off []) CanvasHistory.refines_new.valid rfl ⟨rfl, rfl⟩
    (fun _ hv => (List.not_mem_nil hv).elim) hfirst

theorem Fits.restores (h : Fits create first m) (hc : c.manager.acceptedShapes = first.acceptedShapes)
    (hctop : c.manager.acceptedTopShapes = first.acceptedTopShapes) :
    c.manager.clear.deserializeFromXml create m.serializeToXml c.next =
      .ok (({ m with modified := c.manager.modified } : DiagramManager).reloaded c.next, c.next + m.savedIds.length) := by
  have hclear : c.manager.clear = ({ m with modified := c.manager.modified } : DiagramManager).clear := by
    simp only [DiagramManager.clear, hc, hctop, h.accepted, h.top]
  have hsavable : ({ m with modified := c.manager.modified } : DiagramManager).Savable create :=
    ⟨h.savable.known, h.savable.accepted, h.savable.top, h.savable.fits, h.savable.distinct, h.savable.set, h.savable.ends,
      h.savable.cells, h.savable.ascending⟩
  rw [hclear]
  exact hsavable.deserializeFromXml c.next

/-- The history has moved to another place, and the document there is read. -/
theorem shows_restored (hs : Shows create first c w) {history : CanvasHistory (Forest Element)} (hvalid : history.Valid)
    (hdepth : history.historyDepth = 25) {t : Timeline DiagramManager} (hrep : history.Represents (t.map serializeToXml))
    (hversions : ∀ v ∈ t.versions, v ∈ w.versions.versions) :
    ∃ c', c.restore create (history, (t.map serializeToXml).present) = some c' ∧ Shows create first c' (w.goTo t) := by
  have hall (v : DiagramManager) (hv : v ∈ t.versions) : Fits create first v := hs.versions v (hversions v hv)
  cases hpresent : t.present with
  | none =>
    refine ⟨{ c with history := history }, ?_, hvalid, hdepth, hrep, hall, hs.accepted, hs.top, ?_⟩
    · rw [restore, Timeline.present_map, hpresent]
      rfl
    · rw [Session.goTo, hpresent]
      exact hs.numbered
  | some v =>
    have hv := hall v (Timeline.present_mem hpresent)
    have hread := hv.restores hs.accepted hs.top
    refine ⟨{ history := history
              manager := { ({ v with modified := c.manager.modified } : DiagramManager).reloaded c.next with modified := true }
              next := c.next + v.savedIds.length }, ?_, hvalid, hdepth, hrep, hall, ?_, ?_, ?_⟩
    · rw [restore, Timeline.present_map, hpresent]
      show (Except.toOption _).map _ = _
      rw [hread]
      rfl
    · exact (accepted_mapAccum v.saved _).1.trans hv.accepted
    · exact (accepted_mapAccum v.saved _).2.trans hv.top
    · rw [Session.goTo, hpresent]
      exact numbered_reloaded (m := { v with modified := c.manager.modified }) hv.savable.distinct c.next

theorem step_shows (hs : Shows create first c w) {e : CanvasEvent} (he : ∀ m, e = .changed m → Fits create first m) :
    ∃ c', c.step create e = some c' ∧ Shows create first c' (w.step e) := by
  cases e with
  | changed m =>
    exact shows_saved (c := { c with manager := m }) hs.valid hs.depth hs.represents hs.versions (he m rfl)
  | undo =>
    obtain ⟨history, restored, hundo, hkept, hvalid, hrep, rfl⟩ :=
      CanvasHistory.restoreOlderState_refines hs.valid hs.represents
    rw [← Timeline.map_undo] at hrep
    obtain ⟨c', hrestore, hc'⟩ := shows_restored hs hvalid (hkept.trans hs.depth) hrep fun v => Timeline.mem_undo.mp
    refine ⟨c', ?_, hc'⟩
    rw [step, undo, hundo, ← Timeline.map_undo]
    exact hrestore
  | redo =>
    obtain ⟨history, restored, hredo, hkept, hvalid, hrep, rfl⟩ :=
      CanvasHistory.restoreNewerState_refines hs.valid hs.represents
    rw [← Timeline.map_redo] at hrep
    obtain ⟨c', hrestore, hc'⟩ := shows_restored hs hvalid (hkept.trans hs.depth) hrep fun v => Timeline.mem_redo.mp
    refine ⟨c', ?_, hc'⟩
    rw [step, redo, hredo, ← Timeline.map_redo]
    exact hrestore

theorem run_shows (hs : Shows create first c w) {events : List CanvasEvent}
    (hevents : ∀ m, .changed m ∈ events → Fits create first m) :
    ∃ c', run (step create) c events = some c' ∧ Shows create first c' (w.after events) := by
  induction events generalizing c w with
  | nil => exact ⟨c, rfl, hs⟩
  | cons e events ih =>
    have hfirst : ∀ m, e = .changed m → Fits create first m := by
      intro m hm
      apply hevents
      rw [hm]
      exact List.mem_cons_self
    obtain ⟨c₁, hstep, hc₁⟩ := step_shows hs hfirst
    obtain ⟨c₂, hrun, hc₂⟩ := ih hc₁ fun m hm => hevents m (List.mem_cons_of_mem e hm)
    refine ⟨c₂, ?_, hc₂⟩
    rw [run_cons, hstep]
    exact hrun

end Canvas

end DbHandler.Shapes
