import DbHandler.TableData.EditView

namespace DbHandler.TableData.EditView

variable {isImage : Foundation.Encoding.Bytes → Bool}

theorem placed_append (rows : List (List Entry)) (row : List Entry) :
    placed isImage (rows ++ [row]) = placed isImage rows ++ [(rows.length, displayCells isImage 0 row)] := by
  simp [placed, List.mapIdx_append]

/-- Every row of the execution is shown, and the cursor is behind the last one. -/
def Delivered (isImage : Foundation.Encoding.Bytes → Bool) (c : ℕ) (s : EditView) : Prop :=
  s.shownOf c = placed isImage (s.fetchedOf c) ∧ s.processed = (s.fetchedOf c).length

/-- Every row but the last, `row`, is shown. -/
def Outstanding (isImage : Foundation.Encoding.Bytes → Bool) (c : ℕ) (row : List Entry) (s : EditView) : Prop :=
  s.displaying = true ∧ ∃ rows, s.fetchedOf c = rows ++ [row] ∧ s.shownOf c = placed isImage rows ∧
    s.processed = rows.length

structure Retrieving (c : ℕ) (w : Worker) (s : EditView) : Prop where
  idle : s.threadHandler = .idle
  events : s.threadEvents = 0
  kept : w.destroyRequested = false
  unfinished : ¬ s.Completed c

def Posted (c : ℕ) (s : EditView) : Prop :=
  (∃ errorMsg, s.queue = [.complete c errorMsg] ∧ ¬ s.Completed c ∧ (c ∈ s.failed → errorMsg ≠ [])) ∨
    (s.queue = [] ∧ s.Completed c)

def AtPhase (isImage : Foundation.Encoding.Bytes → Bool) (c : ℕ) (w : Worker) (s : EditView) : Phase → Prop
  | .starting | .locking | .fetching => s.Retrieving c w ∧ s.queue = [] ∧ s.Delivered isImage c ∧ c ∉ s.failed
  | .posting row => s.Retrieving c w ∧ s.queue = [] ∧ s.Outstanding isImage c row ∧ c ∉ s.failed
  | .waiting => s.Retrieving c w ∧ c ∉ s.failed ∧
      ((∃ row, s.queue = [.display c row] ∧ s.Outstanding isImage c row) ∨ (s.queue = [] ∧ s.Delivered isImage c))
  | .finalizing | .completing =>
    s.Retrieving c w ∧ s.queue = [] ∧ s.Delivered isImage c ∧ (c ∈ s.failed → w.errorMsg ≠ [])
  | .notifying => s.threadHandler = .idle ∧ s.threadEvents = 0 ∧ s.Delivered isImage c ∧ s.Posted c
  | .ending => s.Delivered isImage c ∧ s.Posted c

def Stage (isImage : Foundation.Encoding.Bytes → Bool) (c : ℕ) (s : EditView) : Prop :=
  (s.workers = [] ∧ s.handler = none ∧ s.Delivered isImage c ∧ s.Posted c) ∨
    ∃ w, s.workers = [w] ∧ w.execution = c ∧ s.handler = some c ∧ s.AtPhase isImage c w w.phase

structure Fresh (e : ℕ) (s : EditView) : Prop where
  fetched : s.fetchedOf e = []
  shown : s.shownOf e = []
  cancelled : e ∉ s.cancelled
  failed : e ∉ s.failed
  completed : ¬ s.Completed e

/-- The execution `c` is the last one; those before it are over. -/
structure Standing (isImage : Foundation.Encoding.Bytes → Bool) (c : ℕ) (s : EditView) : Prop where
  running : s.crashed = false
  started : s.started = c + 1
  room : s.processed ≤ s.gridRows
  rows : ∀ r ∈ s.shown, r.gridRow < s.gridRows
  fresh : ∀ e, c < e → s.Fresh e
  past : ∀ e < c, s.shownOf e = placed isImage (s.fetchedOf e) ∧ s.Completed e
  errors : ∀ e ∈ s.failed, ∀ errorMsg, (e, errorMsg) ∈ s.completed → errorMsg ≠ []
  executing : s.queryExecuting = true ↔ c ∉ s.cancelled ∧ ¬ s.Completed c
  stage : s.Stage isImage c

/-- The parts that a step may change without touching what has happened. -/
theorem Standing.reframe {c : ℕ} {s : EditView} (h : s.Standing isImage c) (handler : Option ℕ) (displaying : Bool)
    (threadHandler : ThreadHandler) (workers : List Worker) (queue : List Message) (threadEvents : ℕ)
    (hstage : Stage isImage c
      ⟨handler, s.queryExecuting, s.processed, s.gridRows, displaying, threadHandler, workers, queue, threadEvents,
        s.started, s.crashed, s.fetched, s.shown, s.completed, s.cancelled, s.failed⟩) :
    Standing isImage c
      ⟨handler, s.queryExecuting, s.processed, s.gridRows, displaying, threadHandler, workers, queue, threadEvents,
        s.started, s.crashed, s.fetched, s.shown, s.completed, s.cancelled, s.failed⟩ where
  running := h.running
  started := h.started
  room := h.room
  rows := h.rows
  fresh := fun e he => ⟨(h.fresh e he).fetched, (h.fresh e he).shown, (h.fresh e he).cancelled,
    (h.fresh e he).failed, (h.fresh e he).completed⟩
  past := h.past
  errors := h.errors
  executing := h.executing
  stage := hstage

theorem standing_onCreate : (onCreate true).Standing isImage 0 where
  running := rfl
  started := rfl
  room := le_refl 0
  rows := by simp [onCreate, start]
  fresh := fun e _ => ⟨rfl, rfl, by simp [onCreate, start], by simp [onCreate, start], by simp [Completed, onCreate, start]⟩
  past := fun e he => absurd he (Nat.not_lt_zero e)
  errors := by simp [onCreate, start]
  executing := by simp [onCreate, start, Completed]
  stage := by
    refine .inr ⟨_, rfl, rfl, rfl, ⟨rfl, rfl, rfl, by simp [onCreate, start, Completed]⟩, rfl, ⟨rfl, rfl⟩, ?_⟩
    simp [onCreate, start]

theorem setWorker_one {w v : Worker} {s : EditView} (hw : s.workers = [w]) (hv : v.execution = w.execution) :
    s.setWorker v = { s with workers := [v] } := by
  simp [setWorker, hw, hv]

theorem Standing.worker {c e : ℕ} {s : EditView} {w : Worker} (h : s.Standing isImage c)
    (hfind : s.workers.find? (·.execution = e) = some w) :
    s.workers = [w] ∧ w.execution = c ∧ s.handler = some c ∧ s.AtPhase isImage c w w.phase := by
  obtain ⟨hnone, -⟩ | ⟨v, hv, hc, hh, hat⟩ := h.stage
  · rw [hnone] at hfind
    cases hfind
  · rw [hv, List.find?_singleton] at hfind
    split at hfind
    · cases hfind
      exact ⟨hv, hc, hh, hat⟩
    · cases hfind

section Worker

variable {c : ℕ} {s : EditView} {w : Worker}

theorem Retrieving.transfer {v : Worker} {t : EditView} (h : s.Retrieving c w)
    (hv : v.destroyRequested = w.destroyRequested) (hidle : t.threadHandler = s.threadHandler)
    (hevents : t.threadEvents = s.threadEvents) (hcompleted : t.completed = s.completed) : t.Retrieving c v where
  idle := hidle.trans h.idle
  events := hevents.trans h.events
  kept := hv.trans h.kept
  unfinished := by
    rw [Completed, hcompleted]
    exact h.unfinished

theorem AtPhase.transfer {p : Phase} {v : Worker} (h : s.AtPhase isImage c w p)
    (hv : v.destroyRequested = w.destroyRequested) (herror : v.errorMsg = w.errorMsg) (workers : List Worker)
    (queryExecuting : Bool) (cancelled : List ℕ) :
    AtPhase isImage c v
      { s with workers := workers, queryExecuting := queryExecuting, cancelled := cancelled } p := by
  cases p with
  | starting | locking | fetching => exact ⟨h.1.transfer hv rfl rfl rfl, h.2⟩
  | posting row => exact ⟨h.1.transfer hv rfl rfl rfl, h.2⟩
  | waiting => exact ⟨h.1.transfer hv rfl rfl rfl, h.2⟩
  | finalizing | completing =>
    obtain ⟨hr, hq, hd, hf⟩ := h
    exact ⟨hr.transfer hv rfl rfl rfl, hq, hd, fun hmem => herror ▸ hf hmem⟩
  | notifying => exact h
  | ending => exact h

/-- A step of the worker that changes nothing but the worker. -/
theorem Standing.setWorker (h : s.Standing isImage c) (hw : s.workers = [w]) (hc : w.execution = c)
    (hh : s.handler = some c) {v : Worker} (hv : v.execution = w.execution) (hat : s.AtPhase isImage c v v.phase) :
    (s.setWorker v).Standing isImage c := by
  rw [setWorker_one hw hv]
  exact h.reframe _ _ _ _ _ _ (.inr ⟨v, rfl, hv.trans hc, hh, hat.transfer rfl rfl _ _ _⟩)

theorem Standing.leave (h : s.Standing isImage c) (hw : s.workers = [w]) (hc : w.execution = c)
    (hh : s.handler = some c) (hat : s.AtPhase isImage c w .fetching) :
    Standing isImage c { s.setWorker { w with phase := .finalizing } with displaying := false } := by
  obtain ⟨hr, hq, hd, hf⟩ := hat
  rw [setWorker_one hw (v := { w with phase := .finalizing }) rfl]
  refine h.reframe _ _ _ _ _ _ (.inr ⟨_, rfl, hc, hh, ?_⟩)
  exact ⟨hr.transfer rfl rfl rfl rfl, hq, hd, fun hmem => absurd hmem hf⟩

theorem Standing.post (h : s.Standing isImage c) (hw : s.workers = [w]) (hc : w.execution = c)
    (hh : s.handler = some c) {row : List Entry} (hat : s.AtPhase isImage c w (.posting row)) :
    Standing isImage c
      { s.setWorker { w with phase := .waiting } with queue := s.queue ++ [.display w.execution row] } := by
  obtain ⟨hr, hq, ho, hf⟩ := hat
  rw [setWorker_one hw (v := { w with phase := .waiting }) rfl]
  refine h.reframe _ _ _ _ _ _ (.inr ⟨_, rfl, hc, hh, ?_⟩)
  refine ⟨hr.transfer rfl rfl rfl rfl, hf, .inl ⟨row, ?_, ho⟩⟩
  rw [hq, hc]
  rfl

theorem Standing.complete (h : s.Standing isImage c) (hw : s.workers = [w]) (hc : w.execution = c)
    (hh : s.handler = some c) (hat : s.AtPhase isImage c w .completing) :
    Standing isImage c
      { s.setWorker { w with phase := .notifying } with queue := s.queue ++ [.complete w.execution w.errorMsg] } := by
  obtain ⟨hr, hq, hd, hf⟩ := hat
  rw [setWorker_one hw (v := { w with phase := .notifying }) rfl]
  refine h.reframe _ _ _ _ _ _ (.inr ⟨_, rfl, hc, hh, hr.idle, hr.events, hd, .inl ⟨w.errorMsg, ?_, hr.unfinished, hf⟩⟩)
  rw [hq, hc]
  rfl

theorem Standing.notify (h : s.Standing isImage c) (hw : s.workers = [w]) (hc : w.execution = c)
    (hh : s.handler = some c) (hat : s.AtPhase isImage c w .notifying) :
    Standing isImage c { s.setWorker { w with phase := .ending } with threadEvents := s.threadEvents + 1 } := by
  obtain ⟨-, -, hd, hp⟩ := hat
  rw [setWorker_one hw (v := { w with phase := .ending }) rfl]
  exact h.reframe _ _ _ _ _ _ (.inr ⟨_, rfl, hc, hh, hd, hp⟩)

theorem Standing.destroy (h : s.Standing isImage c) (hw : s.workers = [w])
    (hat : s.AtPhase isImage c w .ending) :
    Standing isImage c { s with workers := s.workers.filter (·.execution ≠ w.execution), handler := none } := by
  obtain ⟨hd, hp⟩ := hat
  have hnone : s.workers.filter (·.execution ≠ w.execution) = [] := by simp [hw]
  rw [hnone]
  exact h.reframe _ _ _ _ _ _ (.inl ⟨rfl, rfl, hd, hp⟩)

theorem fetchedOf_append (e d : ℕ) (row : List Entry) (s : EditView) :
    fetchedOf e { s with fetched := s.fetched ++ [(d, row)] } =
      if d = e then s.fetchedOf e ++ [row] else s.fetchedOf e := by
  by_cases h : d = e <;> simp [fetchedOf, h]

theorem Standing.fetchRow (h : s.Standing isImage c) (hw : s.workers = [w]) (hc : w.execution = c)
    (hh : s.handler = some c) {row : List Entry} (hat : s.AtPhase isImage c w .fetching) :
    Standing isImage c { s.setWorker { w with phase := .posting row } with
      displaying := true, fetched := s.fetched ++ [(w.execution, row)] } := by
  obtain ⟨hr, hq, ⟨hshown, hcursor⟩, hf⟩ := hat
  rw [setWorker_one hw (v := { w with phase := .posting row }) rfl, hc]
  have hother : ∀ e, e ≠ c → fetchedOf e { s with fetched := s.fetched ++ [(c, row)] } = s.fetchedOf e := by
    intro e he
    rw [fetchedOf_append, if_neg he.symm]
  exact {
    running := h.running
    started := h.started
    room := h.room
    rows := h.rows
    fresh := fun e he => ⟨(hother e (by omega)).trans (h.fresh e he).fetched, (h.fresh e he).shown,
      (h.fresh e he).cancelled, (h.fresh e he).failed, (h.fresh e he).completed⟩
    past := fun e he => ⟨(h.past e he).1.trans (congrArg _ (hother e (by omega)).symm), (h.past e he).2⟩
    errors := h.errors
    executing := h.executing
    stage := by
      refine .inr ⟨_, rfl, rfl, hh, hr.transfer rfl rfl rfl rfl, hq, ⟨rfl, s.fetchedOf c, ?_, hshown, hcursor⟩, hf⟩
      exact (fetchedOf_append c c row s).trans (if_pos rfl) }

/-- The driver fails: what it reports is in `errorMsg` from here on. -/
theorem Standing.fail (h : s.Standing isImage c) (hw : s.workers = [w]) (hc : w.execution = c)
    (hh : s.handler = some c) {errorMsg : List Text} (hne : errorMsg ≠ []) (hr : s.Retrieving c w)
    (hq : s.queue = []) (hd : s.Delivered isImage c) (displaying : Bool) :
    Standing isImage c { s.setWorker { w with phase := .finalizing, errorMsg := w.errorMsg ++ errorMsg } with
      displaying := displaying, failed := s.failed ++ [w.execution] } := by
  rw [setWorker_one hw (v := { w with phase := .finalizing, errorMsg := w.errorMsg ++ errorMsg }) rfl, hc]
  exact {
    running := h.running
    started := h.started
    room := h.room
    rows := h.rows
    fresh := fun e he => ⟨(h.fresh e he).fetched, (h.fresh e he).shown, (h.fresh e he).cancelled,
      by simpa using ⟨(h.fresh e he).failed, by omega⟩, (h.fresh e he).completed⟩
    past := h.past
    errors := by
      intro e he l hl
      obtain he | he := List.mem_append.mp he
      · exact h.errors e he l hl
      · rw [List.mem_singleton.mp he] at hl
        exact absurd ⟨l, hl⟩ hr.unfinished
    executing := h.executing
    stage := by
      refine .inr ⟨_, rfl, rfl, hh, hr.transfer rfl rfl rfl rfl, hq, hd, ?_⟩
      intro _ hnil
      exact hne (List.append_eq_nil_iff.mp hnil).2 }

theorem Standing.act {t : EditView} {e : ℕ} {action : Action} (h : s.Standing isImage c) (hw : s.workers = [w])
    (hc : w.execution = c) (hh : s.handler = some c) (hat : s.AtPhase isImage c w w.phase)
    (hmeets : s.Meets (.worker e action)) (hstep : s.act w w.phase action = some t) : t.Standing isImage c := by
  generalize hp : w.phase = p at hat hstep
  unfold EditView.act at hstep
  split at hstep
  · cases hstep
    obtain ⟨hr, hq, hd, hf⟩ := hat
    have hgo : (if w.destroyRequested then Phase.notifying else .locking) = .locking := by
      rw [hr.kept]
      rfl
    rw [hgo]
    exact h.setWorker hw hc hh rfl ⟨hr.transfer rfl rfl rfl rfl, hq, hd, hf⟩
  · split at hstep
    · cases hstep
    · cases hstep
      obtain ⟨hr, hq, hd, hf⟩ := hat
      exact h.setWorker hw hc hh rfl ⟨hr.transfer rfl rfl rfl rfl, hq, hd, hf⟩
  · split at hstep
    · cases hstep
    · cases hstep
      obtain ⟨hr, hq, hd, -⟩ := hat
      exact h.fail hw hc hh hmeets hr hq hd s.displaying
  · split at hstep
    · cases hstep
      exact h.fetchRow hw hc hh hat
    · cases hstep
  · split at hstep
    · cases hstep
      exact h.leave hw hc hh hat
    · cases hstep
  · split at hstep
    · cases hstep
      obtain ⟨hr, hq, hd, -⟩ := hat
      exact h.fail hw hc hh hmeets hr hq hd false
    · cases hstep
  · split at hstep
    · cases hstep
    · cases hstep
      exact h.leave hw hc hh hat
  · cases hstep
    exact h.post hw hc hh hat
  · split at hstep
    · cases hstep
    · rename_i hdone
      cases hstep
      obtain ⟨hr, hf, ⟨row, -, hdisplaying, -⟩ | ⟨hq, hd⟩⟩ := hat
      · exact absurd hdisplaying hdone
      · exact h.setWorker hw hc hh rfl ⟨hr.transfer rfl rfl rfl rfl, hq, hd, hf⟩
  · cases hstep
    obtain ⟨hr, hq, hd, hf⟩ := hat
    refine h.setWorker hw hc hh rfl ⟨hr.transfer rfl rfl rfl rfl, hq, hd, fun hmem hnil => ?_⟩
    exact hf hmem (List.append_eq_nil_iff.mp hnil).1
  · cases hstep
    exact h.complete hw hc hh hat
  · cases hstep
    exact h.notify hw hc hh hat
  · split at hstep
    · cases hstep
    · cases hstep
      exact h.destroy hw hat
  · cases hstep

end Worker

section View

variable {c : ℕ} {s t : EditView}

theorem shownOf_append (e d gridRow : ℕ) (cells : List CellWrite) (s : EditView) :
    shownOf e { s with shown := s.shown ++ [⟨d, gridRow, cells⟩] } =
      if d = e then s.shownOf e ++ [(gridRow, cells)] else s.shownOf e := by
  by_cases h : d = e <;> simp [shownOf, h]

/-- A row in the queue is the outstanding one of the worker that waits. -/
theorem Standing.display_queued (h : s.Standing isImage c) {e : ℕ} {row : List Entry} {rest : List Message}
    (hqueue : s.queue = .display e row :: rest) :
    e = c ∧ rest = [] ∧ s.Outstanding isImage c row ∧ ∃ w, s.workers = [w] ∧ w.execution = c ∧
      s.handler = some c ∧ w.phase = .waiting ∧ s.Retrieving c w ∧ c ∉ s.failed := by
  have hposted : ¬ s.Posted c := by
    rintro (⟨errorMsg, hq, -⟩ | ⟨hq, -⟩) <;> rw [hq] at hqueue <;> cases hqueue
  obtain ⟨-, -, -, hp⟩ | ⟨w, hw, hc, hh, hat⟩ := h.stage
  · exact absurd hp hposted
  · cases hphase : w.phase with
    | starting | locking | fetching | posting row' | finalizing | completing =>
      rw [hphase] at hat
      rw [hat.2.1] at hqueue
      cases hqueue
    | waiting =>
      rw [hphase] at hat
      obtain ⟨hr, hf, ⟨row', hq, ho⟩ | ⟨hq, -⟩⟩ := hat
      · rw [hq] at hqueue
        cases hqueue
        exact ⟨rfl, rfl, ho, w, hw, hc, hh, hphase, hr, hf⟩
      · rw [hq] at hqueue
        cases hqueue
    | notifying =>
      rw [hphase] at hat
      exact absurd hat.2.2.2 hposted
    | ending =>
      rw [hphase] at hat
      exact absurd hat.2 hposted

theorem Standing.displayRecords (h : s.Standing isImage c) {e : ℕ} {row : List Entry} {rest : List Message}
    (hqueue : s.queue = .display e row :: rest) :
    (displayRecords isImage e row { s with queue := rest }).Standing isImage c := by
  obtain ⟨rfl, rfl, ⟨-, rows, hfetched, hshown, hcursor⟩, w, hw, hc, hh, hphase, hr, hf⟩ := h.display_queued hqueue
  have hother : ∀ d, d ≠ e → shownOf d
      { s with shown := s.shown ++ [⟨e, s.processed, displayCells isImage 0 row⟩] } = s.shownOf d := by
    intro d hd
    rw [shownOf_append, if_neg hd.symm]
  exact {
    running := h.running
    started := h.started
    room := Nat.succ_le_succ h.room
    rows := by
      intro r hr
      have hroom := h.room
      obtain hr | hr := List.mem_append.mp hr
      · exact (h.rows r hr).trans (Nat.lt_succ_self _)
      · rw [List.mem_singleton.mp hr]
        exact Nat.lt_succ_of_le hroom
    fresh := fun d hd => ⟨(h.fresh d hd).fetched, (hother d (by omega)).trans (h.fresh d hd).shown,
      (h.fresh d hd).cancelled, (h.fresh d hd).failed, (h.fresh d hd).completed⟩
    past := fun d hd => ⟨(hother d (by omega)).trans (h.past d hd).1, (h.past d hd).2⟩
    errors := h.errors
    executing := h.executing
    stage := by
      refine .inr ⟨w, hw, hc, hh, ?_⟩
      rw [hphase]
      refine ⟨hr.transfer rfl rfl rfl rfl, hf, .inr ⟨rfl, ?_, ?_⟩⟩
      · refine (shownOf_append e e s.processed _ s).trans ((if_pos rfl).trans ?_)
        have hrows : fetchedOf e (EditView.displayRecords isImage e row { s with queue := [] }) = rows ++ [row] :=
          hfetched
        rw [hrows, placed_append, hshown, hcursor]
      · have hrows : fetchedOf e (EditView.displayRecords isImage e row { s with queue := [] }) = rows ++ [row] :=
          hfetched
        rw [hrows, List.length_append]
        exact congrArg (· + 1) hcursor }

/-- The states in which the completion of `c` is in the queue or was handled: what else they say. -/
def Over (isImage : Foundation.Encoding.Bytes → Bool) (c : ℕ) (s : EditView) : Prop :=
  s.Delivered isImage c ∧ ((s.workers = [] ∧ s.handler = none) ∨
    ∃ w, s.workers = [w] ∧ w.execution = c ∧ s.handler = some c ∧
      ((w.phase = .notifying ∧ s.threadHandler = .idle ∧ s.threadEvents = 0) ∨ w.phase = .ending))

theorem Over.stage (h : s.Over isImage c) (hp : s.Posted c) : s.Stage isImage c := by
  obtain ⟨hd, ⟨hw, hh⟩ | ⟨w, hw, hc, hh, ⟨hphase, hidle, hevents⟩ | hphase⟩⟩ := h
  · exact .inl ⟨hw, hh, hd, hp⟩
  · exact .inr ⟨w, hw, hc, hh, hphase ▸ ⟨hidle, hevents, hd, hp⟩⟩
  · exact .inr ⟨w, hw, hc, hh, hphase ▸ ⟨hd, hp⟩⟩

theorem Stage.over (h : s.Stage isImage c)
    (hpast : (∃ e errorMsg rest, s.queue = .complete e errorMsg :: rest) ∨ s.threadHandler ≠ .idle ∨ s.threadEvents ≠ 0) :
    s.Over isImage c ∧ s.Posted c := by
  obtain ⟨hw, hh, hd, hp⟩ | ⟨w, hw, hc, hh, hat⟩ := h
  · exact ⟨⟨hd, .inl ⟨hw, hh⟩⟩, hp⟩
  · have hqueue : s.Retrieving c w → ∃ e errorMsg rest, s.queue = .complete e errorMsg :: rest := by
      intro hr
      obtain hqueue | hidle | hevents := hpast
      · exact hqueue
      · exact absurd hr.idle hidle
      · exact absurd hr.events hevents
    cases hphase : w.phase with
    | starting | locking | fetching | posting row | finalizing | completing =>
      rw [hphase] at hat
      obtain ⟨e, errorMsg, rest, hq⟩ := hqueue hat.1
      rw [hat.2.1] at hq
      cases hq
    | waiting =>
      rw [hphase] at hat
      obtain ⟨hr, -, hwait⟩ := hat
      obtain ⟨e, errorMsg, rest, hcomplete⟩ := hqueue hr
      obtain ⟨row, hq, -⟩ | ⟨hq, -⟩ := hwait <;> rw [hq] at hcomplete <;> cases hcomplete
    | notifying =>
      rw [hphase] at hat
      exact ⟨⟨hat.2.2.1, .inr ⟨w, hw, hc, hh, .inl ⟨hphase, hat.1, hat.2.1⟩⟩⟩, hat.2.2.2⟩
    | ending =>
      rw [hphase] at hat
      exact ⟨⟨hat.1, .inr ⟨w, hw, hc, hh, .inr hphase⟩⟩, hat.2⟩

theorem completed_append (e d : ℕ) (errorMsg : List Text) (s : EditView) :
    Completed e { s with completed := s.completed ++ [(d, errorMsg)] } ↔ s.Completed e ∨ e = d := by
  constructor
  · rintro ⟨l, hl⟩
    obtain hl | hl := List.mem_append.mp hl
    · exact .inl ⟨l, hl⟩
    · exact .inr (congrArg Prod.fst (List.mem_singleton.mp hl))
  · rintro (⟨l, hl⟩ | rfl)
    · exact ⟨l, List.mem_append_left _ hl⟩
    · exact ⟨errorMsg, List.mem_append_right _ (List.mem_singleton_self _)⟩

theorem Standing.completeRetrieval (h : s.Standing isImage c) {e : ℕ} {errorMsg : List Text} {rest : List Message}
    (hqueue : s.queue = .complete e errorMsg :: rest) :
    (completeRetrieval e errorMsg { s with queue := rest }).Standing isImage c := by
  obtain ⟨hover, ⟨l, hq, hopen, herrors⟩ | ⟨hq, -⟩⟩ := h.stage.over (.inl ⟨e, errorMsg, rest, hqueue⟩)
  · rw [hq] at hqueue
    cases hqueue
    have hdone : ∀ d, Completed d (EditView.completeRetrieval c errorMsg { s with queue := [] }) ↔
        s.Completed d ∨ d = c := fun d => completed_append d c errorMsg s
    exact {
      running := h.running
      started := h.started
      room := h.room
      rows := h.rows
      fresh := fun d hd => ⟨(h.fresh d hd).fetched, (h.fresh d hd).shown, (h.fresh d hd).cancelled,
        (h.fresh d hd).failed, fun hmem => ((hdone d).mp hmem).elim (h.fresh d hd).completed (by omega)⟩
      past := fun d hd => ⟨(h.past d hd).1, (hdone d).mpr (.inl (h.past d hd).2)⟩
      errors := by
        intro d hd m hm
        obtain hm | hm := List.mem_append.mp hm
        · exact h.errors d hd m hm
        · cases List.mem_singleton.mp hm
          exact herrors hd
      executing := by
        refine iff_of_false Bool.false_ne_true ?_
        rintro ⟨-, hnot⟩
        exact hnot ((hdone c).mpr (.inr rfl))
      stage := Over.stage hover (.inr ⟨rfl, (hdone c).mpr (.inr rfl)⟩) }
  · rw [hq] at hqueue
    cases hqueue

theorem Standing.handleCall (h : s.Standing isImage c) (hstep : s.handleCall isImage = some t) :
    t.Standing isImage c := by
  unfold EditView.handleCall at hstep
  split at hstep
  · cases hstep
  · rename_i hqueue
    cases hstep
    exact h.displayRecords hqueue
  · rename_i hqueue
    cases hstep
    exact h.completeRetrieval hqueue

/-- Once the thread event was queued, the worker has nothing left but its destructor. -/
theorem Standing.late (h : s.Standing isImage c) (hpast : s.threadHandler ≠ .idle ∨ s.threadEvents ≠ 0) :
    s.Delivered isImage c ∧ s.Posted c ∧ ((s.workers = [] ∧ s.handler = none) ∨
      ∃ w, s.workers = [w] ∧ w.execution = c ∧ s.handler = some c ∧ w.phase = .ending) := by
  obtain ⟨⟨hd, ⟨hw, hh⟩ | ⟨w, hw, hc, hh, ⟨-, hidle, hevents⟩ | hphase⟩⟩, hp⟩ := h.stage.over (.inr hpast)
  · exact ⟨hd, hp, .inl ⟨hw, hh⟩⟩
  · obtain hne | hne := hpast
    · exact absurd hidle hne
    · exact absurd hevents hne
  · exact ⟨hd, hp, .inr ⟨w, hw, hc, hh, hphase⟩⟩

theorem Standing.threadHandler (h : s.Standing isImage c) (hpast : s.threadHandler ≠ .idle ∨ s.threadEvents ≠ 0)
    (threadHandler : ThreadHandler) (threadEvents : ℕ) :
    Standing isImage c { s with threadHandler := threadHandler, threadEvents := threadEvents } := by
  obtain ⟨hd, hp, ⟨hw, hh⟩ | ⟨w, hw, hc, hh, hphase⟩⟩ := h.late hpast
  · exact h.reframe _ _ _ _ _ _ (.inl ⟨hw, hh, hd, hp⟩)
  · exact h.reframe _ _ _ _ _ _ (.inr ⟨w, hw, hc, hh, hphase ▸ ⟨hd, hp⟩⟩)

theorem Standing.deleteHandler (h : s.Standing isImage c) (hpast : s.threadHandler = .deleting) :
    s.deleteHandler.Standing isImage c := by
  obtain ⟨hd, hp, ⟨hw, hh⟩ | ⟨w, hw, hc, hh, hphase⟩⟩ := h.late (.inl (by simp [hpast]))
  · exact h.reframe _ _ _ _ _ _ (.inl ⟨by simp [hw], hh, hd, hp⟩)
  · refine h.reframe _ _ _ _ _ _ (.inr ⟨{ w with destroyRequested := true }, by simp [hw, hh, hc], hc, hh, ?_⟩)
    exact hphase ▸ ⟨hd, hp⟩

theorem Standing.cancel (h : s.Standing isImage c) {e : ℕ} (he : s.handler = some e) :
    Standing isImage c { s with
      queryExecuting := false, cancelled := s.cancelled ++ [e]
      workers := s.workers.map fun v => if v.execution = e then { v with continueProcessing := false } else v } := by
  obtain ⟨-, hh, -⟩ | ⟨w, hw, hc, hh, hat⟩ := h.stage
  · rw [hh] at he
    cases he
  · rw [hh] at he
    cases he
    exact {
      running := h.running
      started := h.started
      room := h.room
      rows := h.rows
      fresh := fun d hd => ⟨(h.fresh d hd).fetched, (h.fresh d hd).shown,
        by simpa using ⟨(h.fresh d hd).cancelled, by omega⟩, (h.fresh d hd).failed, (h.fresh d hd).completed⟩
      past := h.past
      errors := h.errors
      executing := by simp
      stage := by
        refine .inr ⟨{ w with continueProcessing := false }, by simp [hw, hc], hc, hh, ?_⟩
        exact AtPhase.transfer (v := { w with continueProcessing := false }) hat rfl rfl _ _ _ }

/-- Nothing is left of `c`: the next execution starts as the first one did. -/
theorem Standing.start (h : s.Standing isImage c) (hw : s.workers = []) (hq : s.queue = [])
    (hevents : s.threadEvents = 0) (hidle : s.threadHandler = .idle) : s.start.Standing isImage (c + 1) := by
  have hfresh := h.fresh (c + 1) (Nat.lt_succ_self c)
  have hover : s.shownOf c = placed isImage (s.fetchedOf c) ∧ s.Completed c := by
    obtain ⟨-, -, hd, ⟨l, hposted, -⟩ | ⟨-, hdone⟩⟩ | ⟨w, hone, -⟩ := h.stage
    · rw [hq] at hposted
      cases hposted
    · exact ⟨hd.1, hdone⟩
    · rw [hw] at hone
      cases hone
  exact {
    running := h.running
    started := congrArg (· + 1) h.started
    room := Nat.zero_le _
    rows := h.rows
    fresh := fun d hd => ⟨(h.fresh d (by omega)).fetched, (h.fresh d (by omega)).shown,
      (h.fresh d (by omega)).cancelled, (h.fresh d (by omega)).failed, (h.fresh d (by omega)).completed⟩
    past := by
      intro d hd
      obtain hd | rfl := Nat.lt_succ_iff_lt_or_eq.mp hd
      · exact h.past d hd
      · exact hover
    errors := h.errors
    executing := iff_of_true rfl ⟨hfresh.cancelled, hfresh.completed⟩
    stage := by
      refine .inr ⟨{ execution := s.started }, by simp [EditView.start, hw], h.started, congrArg some h.started, ?_⟩
      refine ⟨⟨hidle, hevents, rfl, hfresh.completed⟩, hq, ⟨?_, ?_⟩, hfresh.failed⟩
      · exact hfresh.shown.trans (by rw [show fetchedOf (c + 1) s.start = [] from hfresh.fetched]; rfl)
      · rw [show fetchedOf (c + 1) s.start = [] from hfresh.fetched]
        rfl }

theorem Standing.onCancelQuery (h : s.Standing isImage c) {runs : Bool} (hidle : s.threadHandler = .idle)
    (hmeets : s.Meets (.click runs)) (hstep : s.onCancelQuery runs = some t) : ∃ d, t.Standing isImage d := by
  unfold EditView.onCancelQuery at hstep
  split at hstep
  · rename_i hexecuting
    split at hstep
    · rename_i hnull
      exact absurd hnull (hmeets.1 hexecuting)
    · rename_i e he
      cases hstep
      exact ⟨c, h.cancel he⟩
  · rename_i hexecuting
    obtain ⟨hruns, hw, hq, hevents⟩ := hmeets.2 (Bool.eq_false_iff.mpr hexecuting)
    rw [if_pos hruns] at hstep
    cases hstep
    exact ⟨c + 1, h.start hw hq hevents hidle⟩

theorem Standing.apply {step : EditStep} (h : s.Standing isImage c) (hmeets : s.Meets step)
    (hstep : s.apply isImage step = some t) : ∃ d, t.Standing isImage d := by
  cases step with
  | worker e action =>
    obtain ⟨w, hfind, hact⟩ := Option.bind_eq_some_iff.mp (Option.ite_none_left_eq_some.mp hstep).2
    obtain ⟨hw, hc, hh, hat⟩ := h.worker hfind
    exact ⟨c, h.act hw hc hh hat hmeets hact⟩
  | handleCall => exact ⟨c, h.handleCall (Option.ite_none_left_eq_some.mp hstep).2⟩
  | click runs =>
    obtain ⟨hfree, hclick⟩ := Option.ite_none_left_eq_some.mp hstep
    exact h.onCancelQuery (by simpa using (not_or.mp hfree).2) hmeets hclick
  | threadEvent =>
    obtain ⟨hfree, hevent⟩ := Option.ite_none_left_eq_some.mp hstep
    cases hevent
    exact ⟨c, h.threadHandler (.inr (not_or.mp (not_or.mp hfree).2).2) _ _⟩
  | deleteHandler =>
    obtain ⟨hfree, hdelete⟩ := Option.ite_none_left_eq_some.mp hstep
    cases hdelete
    exact ⟨c, h.deleteHandler (not_not.mp (not_or.mp (not_or.mp hfree).2).1)⟩
  | threadEventEnds =>
    obtain ⟨hfree, hends⟩ := Option.ite_none_left_eq_some.mp hstep
    cases hends
    have hawaiting := not_not.mp (not_or.mp (not_or.mp hfree).2).1
    exact ⟨c, h.threadHandler (.inl (by simp [hawaiting])) _ _⟩

theorem Standing.run {steps : List EditStep} (h : s.Standing isImage c) (hmeet : s.AllMeet isImage steps)
    (hrun : s.run isImage steps = some t) : ∃ d, t.Standing isImage d := by
  induction steps generalizing c s with
  | nil =>
    cases hrun
    exact ⟨c, h⟩
  | cons step rest ih =>
    obtain ⟨u, hstep, hrest⟩ := Option.bind_eq_some_iff.mp hrun
    obtain ⟨d, hd⟩ := h.apply hmeet.1 hstep
    exact ih hd (hmeet.2 u hstep) hrest

/-- What is shown and what is still on its way, execution by execution. -/
theorem Standing.prefixed (h : s.Standing isImage c) (e : ℕ) :
    s.shownOf e = placed isImage (s.fetchedOf e) ∨
      (s.shownOf e <+: placed isImage (s.fetchedOf e) ∧ s.OnItsWay e ∧ ¬ s.Completed e) := by
  obtain hlt | rfl | hgt := lt_trichotomy e c
  · exact .inl (h.past e hlt).1
  · have houtstanding : ∀ {row : List Entry}, s.Outstanding isImage e row →
        s.shownOf e <+: placed isImage (s.fetchedOf e) := by
      rintro row ⟨-, rows, hfetched, hshown, -⟩
      rw [hfetched, hshown, placed_append]
      exact List.prefix_append _ _
    obtain ⟨-, -, hd, -⟩ | ⟨w, hw, hc, hh, hat⟩ := h.stage
    · exact .inl hd.1
    · cases hphase : w.phase with
      | starting | locking | fetching | finalizing | completing =>
        rw [hphase] at hat
        exact .inl hat.2.2.1.1
      | posting row =>
        rw [hphase] at hat
        obtain ⟨hr, -, ho, -⟩ := hat
        exact .inr ⟨houtstanding ho, ⟨hr.idle, .inr ⟨w, by simp [hw], hc, row, hphase⟩⟩, hr.unfinished⟩
      | waiting =>
        rw [hphase] at hat
        obtain ⟨hr, -, ⟨row, hq, ho⟩ | ⟨-, hd⟩⟩ := hat
        · exact .inr ⟨houtstanding ho, ⟨hr.idle, .inl ⟨row, by rw [hq]; rfl⟩⟩, hr.unfinished⟩
        · exact .inl hd.1
      | notifying =>
        rw [hphase] at hat
        exact .inl hat.2.2.1.1
      | ending =>
        rw [hphase] at hat
        exact .inl hat.1.1
  · have hfresh := h.fresh e hgt
    rw [hfresh.shown, hfresh.fetched]
    exact .inl rfl

theorem Standing.queued_errors (h : s.Standing isImage c) {e : ℕ} {errorMsg : List Text} (he : e ∈ s.failed)
    (hmem : .complete e errorMsg ∈ s.queue) : errorMsg ≠ [] := by
  have hhead : ∃ d l rest, s.queue = .complete d l :: rest := by
    cases hq : s.queue with
    | nil =>
      rw [hq] at hmem
      cases hmem
    | cons m rest =>
      cases m with
      | complete d l => exact ⟨d, l, rest, rfl⟩
      | display d row =>
        obtain ⟨-, rfl, -⟩ := h.display_queued hq
        rw [hq] at hmem
        cases List.mem_singleton.mp hmem
  obtain ⟨-, ⟨l, hq, -, herrors⟩ | ⟨hq, -⟩⟩ := h.stage.over (.inl hhead)
  · rw [hq] at hmem
    cases List.mem_singleton.mp hmem
    exact herrors he
  · rw [hq] at hmem
    cases hmem

theorem Standing.delivers (h : s.Standing isImage c) : s.Delivers isImage where
  running := h.running
  one := by
    obtain ⟨hw, -⟩ | ⟨w, hw, -⟩ := h.stage <;> rw [hw] <;> simp
  handler := by
    intro e he
    obtain ⟨-, hh, -⟩ | ⟨w, hw, hc, hh, -⟩ := h.stage <;> rw [hh] at he <;> cases he
    exact ⟨w, by simp [hw], hc⟩
  prefixed := by
    intro e
    obtain heq | ⟨hshown, -⟩ := h.prefixed e
    · exact heq ▸ List.prefix_rfl
    · exact hshown
  outstanding := by
    intro e hne
    obtain heq | ⟨-, hway, -⟩ := h.prefixed e
    · exact absurd heq hne
    · exact hway
  complete := by
    intro e hdone
    obtain heq | ⟨-, -, hopen⟩ := h.prefixed e
    · exact heq
    · exact absurd hdone hopen
  rows := h.rows
  errors := by
    rintro e he errorMsg (hl | hl)
    · exact h.errors e he errorMsg hl
    · exact h.queued_errors he hl
  executing := by
    rw [h.executing, h.started]
    constructor
    · intro hc
      exact ⟨c, Nat.lt_succ_self c, hc⟩
    · rintro ⟨e, he, hopen⟩
      obtain hlt | rfl := Nat.lt_succ_iff_lt_or_eq.mp he
      · exact absurd (h.past e hlt).2 hopen.2
      · exact hopen

end View

/-- Rows are delivered in every interleaving in which a click finds either the running worker or nothing of
the last execution. -/
theorem delivers_of_allMeet (isImage : Foundation.Encoding.Bytes → Bool) (steps : List EditStep) (s : EditView)
    (hmeet : (onCreate true).AllMeet isImage steps) (hrun : (onCreate true).run isImage steps = some s) :
    s.Delivers isImage := by
  obtain ⟨c, h⟩ := standing_onCreate.run hmeet hrun
  exact h.delivers

/-- One row, a cancel while it is on its way, and the query executed again once the worker is gone. -/
def executedAgain : List EditStep :=
  [.worker 0 .testDestroy, .worker 0 (.prepare none), .worker 0 (.fetch (.row [.wide ['a']])), .worker 0 .post,
    .click true, .handleCall, .worker 0 .resume, .worker 0 .stop, .worker 0 (.finalize []), .worker 0 .complete,
    .handleCall, .worker 0 .notify, .worker 0 .destroy, .threadEvent, .deleteHandler, .threadEventEnds, .click true]

theorem delivers_executedAgain :
    ∃ s, (onCreate true).run (fun _ => false) executedAgain = some s ∧
      s.shownOf 0 = [(0, [.value 0 (.wide ['a'])])] ∧ s.Delivers fun _ => false := by
  exact ⟨_, rfl, by decide, delivers_of_allMeet _ executedAgain _ (by decide) rfl⟩

/-- The second row is on its way when the user cancels and executes again. -/
def restarted : List EditStep :=
  [.worker 0 .testDestroy, .worker 0 (.prepare none), .worker 0 (.fetch (.row [.wide ['a']])), .worker 0 .post,
    .handleCall, .worker 0 .resume, .worker 0 (.fetch (.row [.wide ['b']])), .worker 0 .post, .click true, .click true,
    .handleCall]

/-- Two workers are alive, and both rows were written into the first row of the grid. -/
theorem restarted_delivers_not :
    ∃ s, (onCreate true).run (fun _ => false) restarted = some s ∧
      s.shownOf 0 = [(0, [.value 0 (.wide ['a'])]), (0, [.value 0 (.wide ['b'])])] ∧
      s.workers.length = 2 ∧ ¬ s.Delivers fun _ => false := by
  refine ⟨_, rfl, by decide, by decide, fun h => ?_⟩
  exact absurd h.one (by decide)

end DbHandler.TableData.EditView
