import DbHandler.Foundation.Timeline
import DbHandler.Shapes.Reloading
import Mathlib.Data.List.DropRight

namespace DbHandler.Shapes

open Foundation Foundation.Runs

variable {δ : Type*}

/-- `wxSFCanvasState`: the buffer holds a document, or a copy of the diagram where the history clones. -/
structure CanvasState (δ : Type*) where
  address : ℕ
  dataBuffer : δ
  deriving DecidableEq, Repr

structure CanvasHistory (δ : Type*) where
  canvasStates : List (CanvasState δ) := []
  currentCanvasState : Option ℕ := none
  historyDepth : ℕ := 25
  next : ℕ := 0
  deriving DecidableEq, Repr

inductive HistoryCall (δ : Type*)
  | saveCanvasState (d : δ)
  | restoreOlderState
  | restoreNewerState
  | clear
  | setHistoryDepth (depth : ℕ)
  deriving DecidableEq, Repr

namespace CanvasHistory

/-- The last state is deleted until it is the current one; none is a call through a null pointer. -/
def deleteNewer (current : ℕ) (states : List (CanvasState δ)) : Option (List (CanvasState δ)) :=
  if states.rdropWhile (·.address ≠ current) = [] then none else some (states.rdropWhile (·.address ≠ current))

def newState (d : δ) (h : CanvasHistory δ) : CanvasState δ where
  address := h.next
  dataBuffer := d

/-- The new state becomes the last one and the current one, and the history bounds are checked. -/
def appendState (d : δ) (h : CanvasHistory δ) (states : List (CanvasState δ)) : CanvasHistory δ :=
  { h with
    canvasStates :=
      if h.historyDepth < (states ++ [h.newState d]).length then (states ++ [h.newState d]).tail
      else states ++ [h.newState d]
    currentCanvasState := some h.next
    next := h.next + 1 }

def saveCanvasState (d : δ) (h : CanvasHistory δ) : Option (CanvasHistory δ) :=
  match h.currentCanvasState with
  | none => some (h.appendState d h.canvasStates)
  | some current => (deleteNewer current h.canvasStates).map (h.appendState d)

def moveTo (h : CanvasHistory δ) (found : Option (CanvasState δ)) : CanvasHistory δ × Option δ :=
  ({ h with currentCanvasState := found.map (·.address) }, found.map (·.dataBuffer))

/-- `RestoreOlderState`, with the document that is restored. -/
def restoreOlderState (h : CanvasHistory δ) : Option (CanvasHistory δ × Option δ) :=
  match h.currentCanvasState with
  | none => some (h, none)
  | some current =>
    match h.canvasStates.findIdx? (·.address = current) with
    | none => none
    | some 0 => some (h.moveTo none)
    | some (i + 1) => some (h.moveTo h.canvasStates[i]?)

def restoreNewerState (h : CanvasHistory δ) : Option (CanvasHistory δ × Option δ) :=
  match h.currentCanvasState with
  | none => some (h, none)
  | some current => (h.canvasStates.findIdx? (·.address = current)).map fun i => h.moveTo h.canvasStates[i + 1]?

def canUndo (h : CanvasHistory δ) : Option Bool :=
  match h.currentCanvasState with
  | none => some false
  | some current => h.canvasStates.head?.map fun s => s.address ≠ current

def canRedo (h : CanvasHistory δ) : Option Bool :=
  match h.currentCanvasState with
  | none => some false
  | some current => h.canvasStates.getLast?.map fun s => s.address ≠ current

def clear (h : CanvasHistory δ) : CanvasHistory δ := { h with canvasStates := [], currentCanvasState := none }

def setHistoryDepth (depth : ℕ) (h : CanvasHistory δ) : CanvasHistory δ := { h with historyDepth := depth }

/-- The history after a call, with the document that is restored. -/
def call (h : CanvasHistory δ) : HistoryCall δ → Option (CanvasHistory δ × Option δ)
  | .saveCanvasState d => (h.saveCanvasState d).map fun h => (h, none)
  | .restoreOlderState => h.restoreOlderState
  | .restoreNewerState => h.restoreNewerState
  | .clear => some (h.clear, none)
  | .setHistoryDepth depth => some (h.setHistoryDepth depth, none)

/-- The history after calls, with all documents that are restored on the way. -/
def calls : CanvasHistory δ → List (HistoryCall δ) → Option (CanvasHistory δ × List δ)
  | h, [] => some (h, [])
  | h, c :: cs => (h.call c).bind fun r => (r.1.calls cs).map fun rest => (rest.1, r.2.toList ++ rest.2)

section Refinement

variable {h h' : CanvasHistory δ} {t : Timeline δ} {before after : List (CanvasState δ)} {s : CanvasState δ}

structure Valid (h : CanvasHistory δ) : Prop where
  distinct : (h.canvasStates.map (·.address)).Nodup
  below : ∀ a ∈ h.canvasStates.map (·.address), a < h.next

/-- The states are those of the timeline, and the current one is where the timeline stands. -/
def Represents (h : CanvasHistory δ) : Timeline δ → Prop
  | .off kept => h.currentCanvasState = none ∧ h.canvasStates.map (·.dataBuffer) = kept
  | .here older now newer => ∃ before s after, h.canvasStates = before ++ s :: after ∧
      h.currentCanvasState = some s.address ∧ before.map (·.dataBuffer) = older.reverse ∧ s.dataBuffer = now ∧
      after.map (·.dataBuffer) = newer

theorem distinct_split (hdistinct : ((before ++ s :: after).map (·.address)).Nodup) :
    (∀ r ∈ before, r.address ≠ s.address) ∧ ∀ r ∈ after, r.address ≠ s.address := by
  rw [List.map_append, List.map_cons, List.nodup_append, List.nodup_cons] at hdistinct
  constructor
  · exact fun r hr => hdistinct.2.2 _ (List.mem_map_of_mem hr) _ List.mem_cons_self
  · intro r hr heq
    exact hdistinct.2.1.1 (heq ▸ List.mem_map_of_mem hr)

theorem deleteNewer_eq (hdistinct : ((before ++ s :: after).map (·.address)).Nodup) :
    deleteNewer s.address (before ++ s :: after) = some (before ++ [s]) := by
  have hafter := (distinct_split hdistinct).2
  have hdrop : (before ++ s :: after).rdropWhile (·.address ≠ s.address) = before ++ [s] := by
    rw [List.rdropWhile, List.reverse_append, List.reverse_cons, List.append_assoc, List.dropWhile_append_of_pos]
    · simp
    · intro r hr
      simpa using hafter r (List.mem_reverse.mp hr)
  rw [deleteNewer, hdrop, if_neg (by simp)]

theorem findIdx_eq (hdistinct : ((before ++ s :: after).map (·.address)).Nodup) :
    (before ++ s :: after).findIdx? (·.address = s.address) = some before.length := by
  have hbefore := (distinct_split hdistinct).1
  rw [List.findIdx?_append, List.findIdx?_eq_none_iff.mpr (by simpa using hbefore)]
  simp [List.findIdx?_cons]

/-- The new state behind the states that are left when the newer ones are deleted. -/
theorem appendState_refines {states : List (CanvasState δ)} {older : List δ} (d : δ)
    (hstates : states.map (·.dataBuffer) = older.reverse) (hroom : 0 < h.historyDepth)
    (hdistinct : (states.map (·.address)).Nodup) (hbelow : ∀ a ∈ states.map (·.address), a < h.next) :
    (h.appendState d states).Valid ∧
      (h.appendState d states).Represents (.here (Timeline.bounded h.historyDepth older) d []) := by
  have hlength : states.length = older.length := by simpa using congrArg List.length hstates
  have hall : ((states ++ [h.newState d]).map (·.address)).Nodup := by
    rw [List.map_append, List.nodup_append]
    refine ⟨hdistinct, List.nodup_singleton _, ?_⟩
    intro a ha b hb
    obtain rfl : b = h.next := List.mem_singleton.mp hb
    exact ne_of_lt (hbelow a ha)
  have hless : ∀ a ∈ (states ++ [h.newState d]).map (·.address), a < h.next + 1 := by
    intro a ha
    rw [List.map_append, List.mem_append] at ha
    rcases ha with ha | ha
    · have hlt := hbelow a ha
      omega
    · obtain rfl : a = h.next := List.mem_singleton.mp ha
      exact Nat.lt_succ_self h.next
  rw [appendState]
  by_cases hfull : h.historyDepth < (states ++ [h.newState d]).length
  · simp only [if_pos hfull]
    rw [List.length_append, List.length_singleton] at hfull
    have hne : states ≠ [] := by
      rintro rfl
      rw [List.length_nil] at hfull
      omega
    have hsub := (List.tail_sublist (states ++ [h.newState d])).map (fun s => s.address)
    refine ⟨⟨hall.sublist hsub, fun a ha => hless a (hsub.subset ha)⟩, ?_⟩
    rw [Timeline.bounded, if_pos (by omega)]
    refine ⟨states.tail, h.newState d, [], List.tail_append_of_ne_nil hne, rfl, ?_, rfl, rfl⟩
    rw [List.map_tail, hstates, List.tail_reverse]
  · simp only [if_neg hfull]
    rw [List.length_append, List.length_singleton] at hfull
    refine ⟨⟨hall, hless⟩, ?_⟩
    rw [Timeline.bounded, if_neg (by omega)]
    exact ⟨states, h.newState d, [], rfl, rfl, hstates, rfl, rfl⟩

theorem saveCanvasState_refines (hvalid : h.Valid) (ht : h.Represents t) (hdepth : 0 < h.historyDepth) (d : δ) :
    ∃ h', h.saveCanvasState d = some h' ∧ h'.historyDepth = h.historyDepth ∧ h'.Valid ∧
      h'.Represents (t.save h.historyDepth d) := by
  cases t with
  | off kept =>
    obtain ⟨hcurrent, rfl⟩ := ht
    refine ⟨h.appendState d h.canvasStates, by rw [saveCanvasState, hcurrent], rfl, ?_⟩
    exact appendState_refines d (List.reverse_reverse _).symm hdepth hvalid.distinct hvalid.below
  | here older now newer =>
    obtain ⟨before, s, after, hstates, hcurrent, holder, rfl, -⟩ := ht
    have hdistinct := hvalid.distinct
    rw [hstates] at hdistinct
    have hsplit : h.canvasStates = (before ++ [s]) ++ after := by
      rw [hstates, List.append_assoc, List.singleton_append]
    have hsub : ((before ++ [s]).map (·.address)).Sublist (h.canvasStates.map (·.address)) := by
      rw [hsplit]
      exact (List.sublist_append_left _ _).map _
    refine ⟨h.appendState d (before ++ [s]), ?_, rfl, ?_⟩
    · rw [saveCanvasState, hcurrent, hstates]
      show (deleteNewer s.address _).map _ = _
      rw [deleteNewer_eq hdistinct, Option.map_some]
    · apply appendState_refines d _ hdepth (hvalid.distinct.sublist hsub) fun a ha => hvalid.below a (hsub.subset ha)
      rw [List.map_append, holder, List.map_singleton, List.reverse_cons]

theorem Valid.moveTo (hvalid : h.Valid) (found : Option (CanvasState δ)) : (h.moveTo found).1.Valid :=
  ⟨hvalid.distinct, hvalid.below⟩

theorem restoreOlderState_refines (hvalid : h.Valid) (ht : h.Represents t) :
    ∃ h' restored, h.restoreOlderState = some (h', restored) ∧ h'.historyDepth = h.historyDepth ∧ h'.Valid ∧
      h'.Represents t.undo ∧ restored = t.undo.present := by
  cases t with
  | off kept => exact ⟨h, none, by rw [restoreOlderState, ht.1], rfl, hvalid, ht, rfl⟩
  | here older now newer =>
    obtain ⟨before, s, after, hstates, hcurrent, holder, rfl, rfl⟩ := ht
    have hdistinct := hvalid.distinct
    rw [hstates] at hdistinct
    have hfind := findIdx_eq hdistinct
    rcases List.eq_nil_or_concat before with rfl | ⟨rest, r, rfl⟩
    · obtain rfl : older = [] := List.reverse_eq_nil_iff.mp holder.symm
      refine ⟨(h.moveTo none).1, none, ?_, rfl, hvalid.moveTo none, ⟨rfl, ?_⟩, rfl⟩
      · rw [restoreOlderState, hcurrent, hstates]
        simp only [hfind, List.length_nil]
        rfl
      · exact congrArg (List.map (·.dataBuffer)) hstates
    · rw [List.concat_eq_append] at holder hstates hfind
      have hreverse : older = r.dataBuffer :: (rest.map (·.dataBuffer)).reverse := by
        have hback := congrArg List.reverse holder
        simpa using hback.symm
      subst hreverse
      have hget : (rest ++ [r] ++ s :: after)[rest.length]? = some r := by simp
      refine ⟨(h.moveTo (some r)).1, some r.dataBuffer, ?_, rfl, hvalid.moveTo (some r), ?_, rfl⟩
      · rw [restoreOlderState, hcurrent, hstates]
        simp only [hfind, List.length_append, List.length_singleton, hget]
        rfl
      · refine ⟨rest, r, s :: after, ?_, rfl, (List.reverse_reverse _).symm, rfl, rfl⟩
        rw [List.append_assoc, List.singleton_append] at hstates
        exact hstates

theorem restoreNewerState_refines (hvalid : h.Valid) (ht : h.Represents t) :
    ∃ h' restored, h.restoreNewerState = some (h', restored) ∧ h'.historyDepth = h.historyDepth ∧ h'.Valid ∧
      h'.Represents t.redo ∧ restored = t.redo.present := by
  cases t with
  | off kept => exact ⟨h, none, by rw [restoreNewerState, ht.1], rfl, hvalid, ht, rfl⟩
  | here older now newer =>
    obtain ⟨before, s, after, hstates, hcurrent, holder, rfl, rfl⟩ := ht
    have hdistinct := hvalid.distinct
    rw [hstates] at hdistinct
    have hfind := findIdx_eq hdistinct
    cases after with
    | nil =>
      refine ⟨(h.moveTo none).1, none, ?_, rfl, hvalid.moveTo none, ⟨rfl, ?_⟩, rfl⟩
      · have hget : (before ++ [s])[before.length + 1]? = none := by simp
        rw [restoreNewerState, hcurrent, hstates]
        simp only [hfind, Option.map_some, hget]
        rfl
      · show h.canvasStates.map _ = _
        rw [hstates, List.map_append, holder]
        rfl
    | cons r after =>
      refine ⟨(h.moveTo (some r)).1, some r.dataBuffer, ?_, rfl, hvalid.moveTo (some r), ?_, rfl⟩
      · have hget : (before ++ s :: r :: after)[before.length + 1]? = some r := by simp
        rw [restoreNewerState, hcurrent, hstates]
        simp only [hfind, Option.map_some, hget]
        rfl
      · refine ⟨before ++ [s], r, after, ?_, rfl, ?_, rfl, rfl⟩
        · rw [List.append_assoc, List.singleton_append]
          exact hstates
        · rw [List.map_append, holder, List.map_singleton, List.reverse_cons]

theorem canUndo_refines (hvalid : h.Valid) (ht : h.Represents t) : h.canUndo = some t.canUndo := by
  cases t with
  | off kept => rw [canUndo, ht.1, Timeline.canUndo]
  | here older now newer =>
    obtain ⟨before, s, after, hstates, hcurrent, holder, rfl, rfl⟩ := ht
    have hdistinct := hvalid.distinct
    rw [hstates] at hdistinct
    rw [canUndo, hcurrent, hstates, Timeline.canUndo]
    cases before with
    | nil =>
      obtain rfl : older = [] := List.reverse_eq_nil_iff.mp holder.symm
      simp
    | cons r before =>
      have hne := (distinct_split hdistinct).1 r List.mem_cons_self
      have hsome : older ≠ [] := by
        rintro rfl
        simp at holder
      simp [hne, List.isEmpty_eq_false_iff.mpr hsome]

theorem canRedo_refines (hvalid : h.Valid) (ht : h.Represents t) : h.canRedo = some t.canRedo := by
  cases t with
  | off kept => rw [canRedo, ht.1, Timeline.canRedo]
  | here older now newer =>
    obtain ⟨before, s, after, hstates, hcurrent, holder, rfl, rfl⟩ := ht
    have hdistinct := hvalid.distinct
    rw [hstates] at hdistinct
    rcases List.eq_nil_or_concat after with rfl | ⟨rest, r, rfl⟩
    · rw [canRedo, hcurrent, hstates, Timeline.canRedo]
      simp
    · have hne := (distinct_split hdistinct).2 r (by simp)
      have hlast : h.canvasStates.getLast? = some r := by
        rw [hstates, List.concat_eq_append, ← List.cons_append, ← List.append_assoc, List.getLast?_concat]
      rw [canRedo, hcurrent, Timeline.canRedo]
      simp [hlast, hne]

theorem length_refines (ht : h.Represents t) : h.canvasStates.length = t.versions.length := by
  cases t with
  | off kept => rw [Timeline.versions, ← ht.2, List.length_map]
  | here older now newer =>
    obtain ⟨before, s, after, hstates, -, holder, -, hnewer⟩ := ht
    have hbefore : before.length = older.length := by simpa using congrArg List.length holder
    rw [hstates, Timeline.versions, ← hnewer]
    simp [hbefore]

theorem clear_refines : h.clear.Valid ∧ h.clear.Represents (.off []) :=
  ⟨⟨List.nodup_nil, fun _ ha => (List.not_mem_nil ha).elim⟩, rfl, rfl⟩

/-- What a history stands for: a timeline of documents, and how many of them it may hold. -/
structure Past (δ : Type*) where
  depth : ℕ := 25
  timeline : Timeline δ := .off []

namespace Past

def call (p : Past δ) : HistoryCall δ → Past δ
  | .saveCanvasState d => { p with timeline := p.timeline.save p.depth d }
  | .restoreOlderState => { p with timeline := p.timeline.undo }
  | .restoreNewerState => { p with timeline := p.timeline.redo }
  | .clear => { p with timeline := .off [] }
  | .setHistoryDepth depth => { p with depth := depth }

/-- What a call shows: going back or forward shows the document that is then present. -/
def shows (p : Past δ) : HistoryCall δ → Option δ
  | .restoreOlderState => p.timeline.undo.present
  | .restoreNewerState => p.timeline.redo.present
  | _ => none

def calls : Past δ → List (HistoryCall δ) → Past δ × List δ
  | p, [] => (p, [])
  | p, c :: cs => (((p.call c).calls cs).1, (p.shows c).toList ++ ((p.call c).calls cs).2)

end Past

structure Refines (h : CanvasHistory δ) (p : Past δ) : Prop where
  valid : h.Valid
  depth : h.historyDepth = p.depth
  room : 0 < p.depth
  represents : h.Represents p.timeline

theorem call_refines {p : Past δ} (hp : h.Refines p) {c : HistoryCall δ} (hc : ∀ n, c = .setHistoryDepth n → 0 < n) :
    ∃ h', h.call c = some (h', p.shows c) ∧ h'.Refines (p.call c) := by
  have hroom : 0 < h.historyDepth := hp.depth ▸ hp.room
  cases c with
  | saveCanvasState d =>
    obtain ⟨h', hsave, hdepth, hvalid, hrep⟩ := saveCanvasState_refines hp.valid hp.represents hroom d
    refine ⟨h', by rw [call, hsave]; rfl, hvalid, hdepth.trans hp.depth, hp.room, ?_⟩
    rw [hp.depth] at hrep
    exact hrep
  | restoreOlderState =>
    obtain ⟨h', restored, hundo, hdepth, hvalid, hrep, rfl⟩ := restoreOlderState_refines hp.valid hp.represents
    exact ⟨h', hundo, hvalid, hdepth.trans hp.depth, hp.room, hrep⟩
  | restoreNewerState =>
    obtain ⟨h', restored, hredo, hdepth, hvalid, hrep, rfl⟩ := restoreNewerState_refines hp.valid hp.represents
    exact ⟨h', hredo, hvalid, hdepth.trans hp.depth, hp.room, hrep⟩
  | clear => exact ⟨h.clear, rfl, clear_refines.1, hp.depth, hp.room, clear_refines.2⟩
  | setHistoryDepth n =>
    have hvalid : (h.setHistoryDepth n).Valid := ⟨hp.valid.distinct, hp.valid.below⟩
    have hrep : (h.setHistoryDepth n).Represents p.timeline := by
      have hsame := hp.represents
      cases ht : p.timeline with
      | off kept => rwa [ht] at hsame
      | here older now newer => rwa [ht] at hsame
    exact ⟨h.setHistoryDepth n, rfl, hvalid, rfl, hc n rfl, hrep⟩

theorem calls_refines {p : Past δ} (hp : h.Refines p) {cs : List (HistoryCall δ)}
    (hdepths : ∀ n, .setHistoryDepth n ∈ cs → 0 < n) :
    ∃ h', h.calls cs = some (h', (p.calls cs).2) ∧ h'.Refines (p.calls cs).1 := by
  induction cs generalizing h p with
  | nil => exact ⟨h, rfl, hp⟩
  | cons c cs ih =>
    have hfirst : ∀ n, c = .setHistoryDepth n → 0 < n := by
      intro n hn
      apply hdepths n
      rw [hn]
      exact List.mem_cons_self
    obtain ⟨h₁, hcall, h₁p⟩ := call_refines hp hfirst
    obtain ⟨h₂, hrest, h₂p⟩ := ih h₁p fun n hn => hdepths n (List.mem_cons_of_mem c hn)
    refine ⟨h₂, ?_, h₂p⟩
    rw [calls, hcall, Option.bind_some, hrest]
    rfl

theorem refines_new : ({} : CanvasHistory δ).Refines {} :=
  ⟨⟨List.nodup_nil, fun _ ha => (List.not_mem_nil ha).elim⟩, rfl, Nat.succ_pos 24, rfl, rfl⟩

end Refinement

/-- However a history is called, it never goes through a null pointer or a deleted state. What it restores and what it offers
to undo and redo is what its timeline has: a save drops the newer documents, and the oldest one where there are too many;
going back behind the oldest or forward behind the newest leaves no place to go on from until the next save. -/
theorem calls_timeline (cs : List (HistoryCall δ)) (hdepths : ∀ n, .setHistoryDepth n ∈ cs → 0 < n) :
    ∃ h, calls {} cs = some (h, (Past.calls {} cs).2) ∧
      h.canvasStates.length = (Past.calls {} cs).1.timeline.versions.length ∧
      h.canUndo = some (Past.calls {} cs).1.timeline.canUndo ∧ h.canRedo = some (Past.calls {} cs).1.timeline.canRedo := by
  obtain ⟨h, hcalls, hp⟩ := calls_refines refines_new hdepths
  exact ⟨h, hcalls, length_refines hp.represents, canUndo_refines hp.valid hp.represents,
    canRedo_refines hp.valid hp.represents⟩

/-- Three saves of which only two are kept, and a step too far back. -/
def someCalls : List (HistoryCall ℕ) :=
  [.setHistoryDepth 2, .saveCanvasState 5, .saveCanvasState 6, .saveCanvasState 7, .restoreOlderState, .restoreOlderState,
    .restoreNewerState, .saveCanvasState 8]

theorem calls_timeline_someCalls : ∃ h, calls {} someCalls = some (h, (Past.calls {} someCalls).2) ∧
    h.canvasStates.length = (Past.calls {} someCalls).1.timeline.versions.length ∧
    h.canUndo = some (Past.calls {} someCalls).1.timeline.canUndo ∧
    h.canRedo = some (Past.calls {} someCalls).1.timeline.canRedo :=
  calls_timeline someCalls (by simp [someCalls])

end CanvasHistory

end DbHandler.Shapes
