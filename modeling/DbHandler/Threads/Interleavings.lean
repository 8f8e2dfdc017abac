import DbHandler.Threads.NewTableHandler
import Mathlib.Tactic.Common

namespace DbHandler.Threads

open Foundation

namespace MainFrame

variable {s s' : MainFrame} {t : NewTableHandler} {deletesItself : Bool}

/-- The frame is connected, and what it is to connect to next is another database. -/
def Opened (s : MainFrame) : Purpose → Prop
  | .connect db _ => s.db.isSome = true ∧ db ∈ s.databases ∧ s.db ≠ some db
  | .close => s.db.isSome = true

def AtTask (s : MainFrame) : FrameTask → Prop
  | .idle => True
  | .locking p | .testing p | .loading p => s.Opened p
  | .calling p id => s.Opened p ∧ ∀ t ∈ s.threads, t.id = id
  | .awaiting p | .looking p => s.Opened p ∧ ∀ t ∈ s.threads, t.cancelled = true
  | .destroying | .destroyed => s.threads = []

/-- There is one thread at most, `m_handler` is that thread, and the database it polls is the frame's and in memory. -/
structure Standing (s : MainFrame) : Prop where
  alone : (s.threads = [] ∧ s.handler = none) ∨ ∃ t, s.threads = [t] ∧ s.handler = some t.id ∧ s.db = some t.db
  live : ∀ d ∈ s.db, d ∈ s.databases
  fresh : ∀ d ∈ s.databases, d < s.next
  sound : s.fault ≠ some .database
  stage : s.AtTask s.task

theorem standing_new : Standing {} where
  alone := .inl ⟨rfl, rfl⟩
  live := fun _ hd => by cases hd
  fresh := fun _ hd => (List.not_mem_nil hd).elim
  sound := by decide
  stage := trivial

theorem Opened.isSome {p : Purpose} (h : s.Opened p) : s.db.isSome = true := by
  cases p with
  | connect db runs => exact h.1
  | close => exact h

theorem dereference_live {d : ℕ} {next : MainFrame} (hd : d ∈ s.databases) : s.dereference (some d) next = next :=
  if_pos ⟨d, rfl, hd⟩

theorem Standing.dereference (h : s.Standing) (hdb : s.db.isSome = true) (next : MainFrame) :
    s.dereference s.db next = next := by
  obtain ⟨d, hd⟩ := Option.isSome_iff_exists.mp hdb
  rw [hd]
  exact dereference_live (h.live d hd)

theorem Standing.not_handler (h : s.Standing) (hhandler : s.handler.isSome = false) : s.threads = [] := by
  rcases h.alone with ⟨hnone, -⟩ | ⟨t, -, hsome, -⟩
  · exact hnone
  · rw [hsome] at hhandler
    cases hhandler

theorem Standing.handler (h : s.Standing) (hhandler : s.handler.isSome = true) :
    ∃ t, s.threads = [t] ∧ s.handler = some t.id ∧ s.db = some t.db := by
  rcases h.alone with ⟨-, hnone⟩ | halone
  · rw [hnone] at hhandler
    cases hhandler
  · exact halone

/-- Another task where all else stays. -/
theorem Standing.at_task (h : s.Standing) {task : FrameTask} (hstage : s.AtTask task) :
    Standing { s with task := task } := by
  refine ⟨h.alone, h.live, h.fresh, h.sound, ?_⟩
  cases task <;> exact hstage

theorem Standing.starts (hnone : s.threads = []) (hfresh : ∀ d ∈ s.databases, d < s.next)
    (hsound : s.fault ≠ some .database) {db : ℕ} (hdb : db ∈ s.databases) (runs : Bool) : (s.start db runs).Standing := by
  rw [start]
  cases runs with
  | true =>
    rw [if_pos rfl]
    refine ⟨.inr ⟨{ id := s.next, db := db }, by rw [hnone]; rfl, rfl, rfl⟩, ?_, ?_, hsound, trivial⟩
    · intro d hd
      obtain rfl := Option.some.inj hd
      exact hdb
    · intro d hd
      exact Nat.lt_succ_of_lt (hfresh d hd)
  | false =>
    rw [if_neg Bool.false_ne_true]
    refine ⟨.inl ⟨hnone, rfl⟩, ?_, ?_, hsound, trivial⟩
    · intro d hd
      cases hd
    · intro d hd
      exact hfresh d (List.mem_of_mem_filter hd)

theorem Standing.connect (h : s.Standing) (found runs : Bool) : (s.connect found runs).Standing := by
  have hnew : ∀ d ∈ s.next :: s.databases, d < s.next + 1 := by
    intro d hd
    rcases List.mem_cons.mp hd with rfl | hd
    · exact Nat.lt_succ_self _
    · exact Nat.lt_succ_of_lt (h.fresh d hd)
  rw [MainFrame.connect]
  split
  · split
    · rename_i hdb
      refine ⟨h.alone, fun d hd => List.mem_cons_of_mem _ (h.live d hd), hnew, h.sound, hdb, List.mem_cons_self, ?_⟩
      intro hsame
      have hlt := h.fresh _ (h.live _ hsame)
      omega
    · rename_i hdb
      have hthreads : s.threads = [] := by
        rcases h.alone with ⟨hnone, -⟩ | ⟨t, -, -, hsome⟩
        · exact hnone
        · rw [hsome] at hdb
          exact absurd rfl hdb
      exact Standing.starts (s := { s with databases := s.next :: s.databases, next := s.next + 1 }) hthreads hnew
        h.sound List.mem_cons_self runs
  · exact h

theorem Standing.onClose (h : s.Standing) : s.onClose.Standing := by
  apply h.at_task
  split
  · rename_i hdb
    exact hdb
  · rename_i hdb
    rcases h.alone with ⟨hnone, -⟩ | ⟨t, -, -, hsome⟩
    · exact hnone
    · rw [hsome] at hdb
      exact absurd rfl hdb

theorem Standing.leave (h : s.Standing) {p : Purpose} (hopened : s.Opened p) (hhandler : s.handler.isSome = false) :
    (s.leave p).Standing := by
  have hnone := h.not_handler hhandler
  cases p with
  | connect db runs =>
    apply Standing.starts (s := s.deleteDatabase) hnone
    · intro d hd
      exact h.fresh d (List.mem_of_mem_filter hd)
    · exact h.sound
    · apply List.mem_filter.mpr
      refine ⟨hopened.2.1, ?_⟩
      simpa using Ne.symm hopened.2.2
  | close => exact h.at_task hnone

theorem Standing.cancel (h : s.Standing) {p : Purpose} {id : ℕ} (hopened : s.Opened p) (hid : ∀ t ∈ s.threads, t.id = id) :
    Standing { s.cancel id with task := .awaiting p } := by
  rw [MainFrame.cancel]
  split
  · refine ⟨?_, h.live, h.fresh, h.sound, ?_, ?_⟩
    · rcases h.alone with ⟨hnone, hhandler⟩ | ⟨t, ht, hhandler, hdb⟩
      · exact .inl ⟨by rw [hnone]; rfl, hhandler⟩
      · refine .inr ⟨{ t with cancelled := true }, ?_, hhandler, hdb⟩
        rw [ht, List.map_singleton, if_pos (hid t (by rw [ht]; exact List.mem_singleton_self t))]
    · cases p <;> exact hopened
    · intro u hu
      obtain ⟨t, ht, rfl⟩ := List.mem_map.mp hu
      rw [if_pos (hid t ht)]
  · rename_i hgone
    have hnone : s.threads = [] := by
      apply List.eq_nil_iff_forall_not_mem.mpr
      intro t ht
      exact hgone ⟨t, ht, hid t ht⟩
    refine ⟨h.alone, h.live, h.fresh, by simp, ?_, ?_⟩
    · cases p <;> exact hopened
    · intro t ht
      rw [hnone] at ht
      exact (List.not_mem_nil ht).elim

theorem Standing.frameStep (h : s.Standing) (hstep : s.frameStep = some s') : s'.Standing := by
  have hstage := h.stage
  rw [MainFrame.frameStep] at hstep
  split at hstep
  · cases hstep
  · cases hstep
  · -- locking
    rename_i p htask
    rw [htask] at hstage
    obtain ⟨-, hnext⟩ := Option.ite_none_left_eq_some.mp hstep
    rw [h.dereference hstage.isSome] at hnext
    obtain rfl := Option.some.inj hnext
    exact h.at_task hstage
  · -- testing
    rename_i p htask
    rw [htask] at hstage
    obtain rfl := Option.some.inj hstep
    apply h.at_task
    split
    · exact hstage
    · rename_i hhandler
      refine ⟨hstage, fun t ht => ?_⟩
      rw [h.not_handler (Bool.eq_false_iff.mpr hhandler)] at ht
      exact (List.not_mem_nil ht).elim
  · -- loading
    rename_i p htask
    rw [htask] at hstage
    split at hstep
    · obtain rfl := Option.some.inj hstep
      refine ⟨h.alone, h.live, h.fresh, by simp, ?_⟩
      show MainFrame.AtTask _ s.task
      rw [htask]
      cases p <;> exact hstage
    · rename_i id hhandler
      obtain rfl := Option.some.inj hstep
      obtain ⟨t, ht, hid, -⟩ := h.handler (by rw [hhandler]; rfl)
      apply h.at_task
      refine ⟨hstage, fun u hu => ?_⟩
      rw [ht] at hu
      obtain rfl := List.mem_singleton.mp hu
      exact Option.some.inj (hid.symm.trans hhandler)
  · -- calling
    rename_i p id htask
    rw [htask] at hstage
    obtain rfl := Option.some.inj hstep
    exact h.cancel hstage.1 hstage.2
  · -- awaiting
    rename_i p htask
    rw [htask] at hstage
    obtain ⟨-, hnext⟩ := Option.ite_none_left_eq_some.mp hstep
    rw [h.dereference hstage.1.isSome] at hnext
    obtain rfl := Option.some.inj hnext
    exact h.at_task hstage
  · -- looking
    rename_i p htask
    rw [htask] at hstage
    obtain rfl := Option.some.inj hstep
    split
    · exact h.at_task hstage
    · rename_i hhandler
      exact h.leave hstage.1 (Bool.eq_false_iff.mpr hhandler)
  · -- destroying
    rename_i htask
    rw [htask] at hstage
    have hnone : s.threads = [] := hstage
    obtain ⟨-, hnext⟩ := Option.ite_none_left_eq_some.mp hstep
    obtain rfl := Option.some.inj hnext
    split
    · rename_i hdb
      rw [h.dereference hdb]
      have hhandler : s.handler = none := by
        rcases h.alone with ⟨-, hhandler⟩ | ⟨t, ht, -⟩
        · exact hhandler
        · rw [hnone] at ht
          cases ht
      refine ⟨.inl ⟨hnone, hhandler⟩, ?_, ?_, h.sound, hnone⟩
      · intro d hd
        cases hd
      · intro d hd
        exact h.fresh d (List.mem_of_mem_filter hd)
    · exact h.at_task hnone

/-- A thread goes on to another phase, and may have been cancelled in between. -/
theorem Standing.put (h : s.Standing) (ht : s.threads = [t]) {u : NewTableHandler} (hid : u.id = t.id) (hdb : u.db = t.db)
    (hcancelled : t.cancelled = true → u.cancelled = true) : (s.put u).Standing := by
  have hput : (s.put u).threads = [u] := by
    rw [MainFrame.put, ht, List.map_singleton, if_pos hid.symm]
  obtain ⟨hhandler, hframe⟩ : s.handler = some t.id ∧ s.db = some t.db := by
    rcases h.alone with ⟨hnone, -⟩ | ⟨v, hv, hhandler, hframe⟩
    · rw [hnone] at ht
      cases ht
    · rw [ht] at hv
      obtain rfl := (List.cons.inj hv).1
      exact ⟨hhandler, hframe⟩
  refine ⟨.inr ⟨u, hput, hid ▸ hhandler, hdb ▸ hframe⟩, h.live, h.fresh, h.sound, ?_⟩
  have hstage := h.stage
  show (s.put u).AtTask s.task
  generalize s.task = task at hstage
  cases task with
  | idle => trivial
  | locking p | testing p | loading p =>
    cases p <;> exact hstage
  | calling p id =>
    refine ⟨by cases p <;> exact hstage.1, fun v hv => ?_⟩
    rw [hput] at hv
    obtain rfl := List.mem_singleton.mp hv
    exact hid.trans (hstage.2 t (by rw [ht]; exact List.mem_singleton_self t))
  | awaiting p | looking p =>
    refine ⟨by cases p <;> exact hstage.1, fun v hv => ?_⟩
    rw [hput] at hv
    obtain rfl := List.mem_singleton.mp hv
    exact hcancelled (hstage.2 t (by rw [ht]; exact List.mem_singleton_self t))
  | destroying | destroyed =>
    have hnone : s.threads = [] := hstage
    rw [hnone] at ht
    cases ht

/-- The destructor's last statement, and the end of the object. -/
theorem Standing.clears (h : s.Standing) (ht : s.threads = [t]) :
    Standing { s with handler := none, threads := s.threads.filter (·.id ≠ t.id) } := by
  have hgone : s.threads.filter (·.id ≠ t.id) = [] := by
    rw [ht]
    simp
  have hstage := h.stage
  refine ⟨.inl ⟨hgone, rfl⟩, h.live, h.fresh, h.sound, ?_⟩
  have hall (P : NewTableHandler → Prop) : ∀ u ∈ s.threads.filter (·.id ≠ t.id), P u := by
    intro u hu
    rw [hgone] at hu
    exact (List.not_mem_nil hu).elim
  show MainFrame.AtTask _ s.task
  generalize s.task = task at hstage
  cases task with
  | idle => trivial
  | locking p | testing p | loading p =>
    cases p <;> exact hstage
  | calling p id =>
    exact ⟨by cases p <;> exact hstage.1, hall _⟩
  | awaiting p | looking p =>
    exact ⟨by cases p <;> exact hstage.1, hall _⟩
  | destroying | destroyed =>
    exact hgone

theorem Standing.thread_live (h : s.Standing) (ht : s.threads = [t]) : t.db ∈ s.databases := by
  rcases h.alone with ⟨hnone, -⟩ | ⟨v, hv, -, hframe⟩
  · rw [hnone] at ht
    cases ht
  · rw [ht] at hv
    obtain rfl := (List.cons.inj hv).1
    exact h.live _ hframe

theorem Standing.threadStep (h : s.Standing) (ht : s.threads = [t]) {failed : Bool}
    (hstep : s.threadStep deletesItself t failed = some s') : s'.Standing := by
  have hlive := h.thread_live ht
  have hput {phase : Phase} {cancelled : Bool} (hcancelled : t.cancelled = true → cancelled = true) :
      (s.put { t with phase := phase, cancelled := cancelled }).Standing := h.put ht rfl rfl hcancelled
  cases hphase : t.phase with
  | testing | sleeping =>
    simp only [MainFrame.threadStep, hphase] at hstep
    obtain rfl := Option.some.inj hstep
    exact hput fun hcancelled => hcancelled
  | locking | ending =>
    simp only [MainFrame.threadStep, hphase] at hstep
    obtain ⟨-, hnext⟩ := Option.ite_none_left_eq_some.mp hstep
    rw [dereference_live hlive] at hnext
    obtain rfl := Option.some.inj hnext
    exact hput fun hcancelled => hcancelled
  | polling =>
    simp only [MainFrame.threadStep, hphase] at hstep
    rw [dereference_live hlive] at hstep
    obtain rfl := Option.some.inj hstep
    exact hput fun hcancelled => by rw [hcancelled, Bool.true_or]
  | clearing =>
    simp only [MainFrame.threadStep, hphase] at hstep
    obtain rfl := Option.some.inj hstep
    exact h.clears ht

theorem Standing.find (h : s.Standing) {id : ℕ} (hfind : s.threads.find? (·.id = id) = some t) : s.threads = [t] := by
  rcases h.alone with ⟨hnone, -⟩ | ⟨v, hv, -⟩
  · rw [hnone] at hfind
    cases hfind
  · rw [hv] at hfind ⊢
    obtain rfl := List.mem_singleton.mp (List.mem_of_find?_eq_some hfind)
    rfl

/-- The step lemma of the two sides. -/
theorem Standing.step (h : s.Standing) {e : FrameEvent} (hstep : s.step deletesItself e = some s') : s'.Standing := by
  obtain ⟨-, hstep⟩ := Option.ite_none_left_eq_some.mp hstep
  cases e with
  | connect found runs =>
    obtain ⟨-, hnext⟩ := Option.ite_none_right_eq_some.mp hstep
    obtain rfl := Option.some.inj hnext
    exact h.connect found runs
  | close =>
    obtain ⟨-, hnext⟩ := Option.ite_none_right_eq_some.mp hstep
    obtain rfl := Option.some.inj hnext
    exact h.onClose
  | frame => exact h.frameStep hstep
  | thread id failed =>
    obtain ⟨t, hfind, hnext⟩ := Option.bind_eq_some_iff.mp hstep
    exact h.threadStep (h.find hfind) hnext

theorem Standing.run (h : s.Standing) {es : List FrameEvent} (hrun : Runs.run (MainFrame.step deletesItself) s es = some s') :
    s'.Standing :=
  Runs.throughout_of_kept (fun _ _ _ hs hstep => hs.step hstep) h es es List.prefix_rfl s' hrun

/-- The phases of the loop in `Entry`. -/
def looping : Phase → Bool
  | .ending | .clearing => false
  | _ => true

/-- A thread that nobody has asked to end. -/
structure Running (t : NewTableHandler) : Prop where
  kept : t.cancelled = false
  looping : looping t.phase = true

/-- Up to its call of `Delete` the frame finds the thread running. -/
def CalmAt (s : MainFrame) : FrameTask → Prop
  | .idle | .locking _ | .testing _ => ∀ t ∈ s.threads, Running t
  | .loading _ | .calling _ _ => s.threads ≠ [] ∧ ∀ t ∈ s.threads, Running t
  | _ => True

structure Calm (s : MainFrame) : Prop where
  standing : s.Standing
  fault : s.fault = none
  calm : s.CalmAt s.task

theorem Calm.started (hnone : s.threads = []) (db : ℕ) (runs : Bool) : (s.start db runs).CalmAt (s.start db runs).task := by
  rw [start]
  split
  · intro t ht
    rw [hnone] at ht
    obtain rfl := List.mem_singleton.mp ht
    exact ⟨rfl, rfl⟩
  · intro t ht
    have hmem : t ∈ s.threads := ht
    rw [hnone] at hmem
    exact (List.not_mem_nil hmem).elim

theorem start_fault (s : MainFrame) (db : ℕ) (runs : Bool) : (s.start db runs).fault = s.fault := by
  rw [start]
  split <;> rfl

theorem Calm.connect (h : s.Calm) (hidle : s.task = .idle) (found runs : Bool) : (s.connect found runs).Calm := by
  have hcalm := h.calm
  rw [hidle] at hcalm
  refine ⟨h.standing.connect found runs, ?_, ?_⟩
  · rw [MainFrame.connect]
    split
    · split
      · exact h.fault
      · exact (start_fault _ _ _).trans h.fault
    · exact h.fault
  · rw [MainFrame.connect]
    split
    · split
      · exact hcalm
      · rename_i hdb
        apply Calm.started
        rcases h.standing.alone with ⟨hnone, -⟩ | ⟨t, -, -, hsome⟩
        · exact hnone
        · rw [hsome] at hdb
          exact absurd rfl hdb
    · rw [hidle]
      exact hcalm

theorem Calm.onClose (h : s.Calm) (hidle : s.task = .idle) : s.onClose.Calm := by
  have hcalm := h.calm
  rw [hidle] at hcalm
  refine ⟨h.standing.onClose, h.fault, ?_⟩
  show CalmAt s.onClose (if s.db.isSome then .locking .close else .destroying)
  split
  · exact hcalm
  · trivial

theorem Calm.frameStep (h : s.Calm) (hstep : s.frameStep = some s') : s'.Calm := by
  have hcalm := h.calm
  have hstage := h.standing.stage
  have hstanding := h.standing.frameStep hstep
  rw [MainFrame.frameStep] at hstep
  split at hstep
  · cases hstep
  · cases hstep
  · -- locking
    rename_i p htask
    rw [htask] at hcalm hstage
    obtain ⟨-, hnext⟩ := Option.ite_none_left_eq_some.mp hstep
    rw [h.standing.dereference hstage.isSome] at hnext
    obtain rfl := Option.some.inj hnext
    exact ⟨hstanding, h.fault, hcalm⟩
  · -- testing
    rename_i p htask
    rw [htask] at hcalm
    obtain rfl := Option.some.inj hstep
    refine ⟨hstanding, h.fault, ?_⟩
    show MainFrame.CalmAt _ (if s.handler.isSome then .loading p else .awaiting p)
    split
    · rename_i hhandler
      obtain ⟨t, ht, -⟩ := h.standing.handler hhandler
      refine ⟨?_, hcalm⟩
      show s.threads ≠ []
      rw [ht]
      exact List.cons_ne_nil t []
    · trivial
  · -- loading: the thread is still there, and so is the pointer to it
    rename_i p htask
    rw [htask] at hcalm
    split at hstep
    · rename_i hhandler
      exact absurd (h.standing.not_handler (by rw [hhandler]; rfl)) hcalm.1
    · obtain rfl := Option.some.inj hstep
      exact ⟨hstanding, h.fault, hcalm⟩
  · -- calling
    rename_i p id htask
    rw [htask] at hcalm hstage
    obtain rfl := Option.some.inj hstep
    refine ⟨hstanding, ?_, trivial⟩
    obtain ⟨t, ht⟩ := List.exists_mem_of_ne_nil _ hcalm.1
    rw [cancel, if_pos ⟨t, ht, hstage.2 t ht⟩]
    exact h.fault
  · -- awaiting
    rename_i p htask
    rw [htask] at hstage
    obtain ⟨-, hnext⟩ := Option.ite_none_left_eq_some.mp hstep
    rw [h.standing.dereference hstage.1.isSome] at hnext
    obtain rfl := Option.some.inj hnext
    exact ⟨hstanding, h.fault, trivial⟩
  · -- looking
    rename_i p htask
    rw [htask] at hstage
    obtain rfl := Option.some.inj hstep
    split at hstanding
    · rename_i hhandler
      rw [if_pos hhandler]
      exact ⟨hstanding, h.fault, trivial⟩
    · rename_i hhandler
      rw [if_neg hhandler]
      have hnone := h.standing.not_handler (Bool.eq_false_iff.mpr hhandler)
      cases p with
      | connect db runs =>
        exact ⟨hstanding, (start_fault _ _ _).trans h.fault, Calm.started (s := s.deleteDatabase) hnone db runs⟩
      | close => exact ⟨hstanding, h.fault, trivial⟩
  · -- destroying
    obtain ⟨-, hnext⟩ := Option.ite_none_left_eq_some.mp hstep
    obtain rfl := Option.some.inj hnext
    refine ⟨hstanding, ?_, ?_⟩
    · split
      · rename_i hdb
        rw [h.standing.dereference hdb]
        exact h.fault
      · exact h.fault
    · split
      · rename_i hdb
        rw [h.standing.dereference hdb]
        trivial
      · trivial

/-- The thread goes on and runs on as long as nobody asks it to end. -/
theorem Calm.put (h : s.Calm) (ht : s.threads = [t]) {u : NewTableHandler} (hid : u.id = t.id) (hdb : u.db = t.db)
    (hcancelled : t.cancelled = true → u.cancelled = true) (hrunning : Running t → Running u) : (s.put u).Calm := by
  have hput : (s.put u).threads = [u] := by
    rw [MainFrame.put, ht, List.map_singleton, if_pos hid.symm]
  have hall (hrun : ∀ v ∈ s.threads, Running v) : ∀ v ∈ (s.put u).threads, Running v := by
    intro v hv
    rw [hput] at hv
    obtain rfl := List.mem_singleton.mp hv
    exact hrunning (hrun t (by rw [ht]; exact List.mem_singleton_self t))
  have hcalm := h.calm
  refine ⟨h.standing.put ht hid hdb hcancelled, h.fault, ?_⟩
  show (s.put u).CalmAt s.task
  generalize s.task = task at hcalm
  cases task with
  | idle | locking p | testing p => exact hall hcalm
  | loading p | calling p id =>
    refine ⟨?_, hall hcalm.2⟩
    rw [hput]
    exact List.cons_ne_nil u []
  | awaiting p | looking p | destroying | destroyed => trivial

theorem Calm.threadStep (h : s.Calm) (ht : s.threads = [t]) {failed : Bool} (hself : (failed && deletesItself) = false)
    (hstep : s.threadStep deletesItself t failed = some s') : s'.Calm := by
  have hlive := h.standing.thread_live ht
  have hput {phase : Phase} {cancelled : Bool} (hcancelled : t.cancelled = true → cancelled = true)
      (hrunning : Running t → cancelled = false ∧ looping phase = true) :
      (s.put { t with phase := phase, cancelled := cancelled }).Calm := by
    refine h.put (u := { t with phase := phase, cancelled := cancelled }) ht rfl rfl hcancelled fun hrun => ?_
    exact ⟨(hrunning hrun).1, (hrunning hrun).2⟩
  cases hphase : t.phase with
  | testing =>
    simp only [MainFrame.threadStep, hphase] at hstep
    obtain rfl := Option.some.inj hstep
    apply hput fun hcancelled => hcancelled
    intro hrunning
    refine ⟨hrunning.kept, ?_⟩
    rw [hrunning.kept]
    rfl
  | sleeping =>
    simp only [MainFrame.threadStep, hphase] at hstep
    obtain rfl := Option.some.inj hstep
    exact hput (fun hcancelled => hcancelled) fun hrunning => ⟨hrunning.kept, rfl⟩
  | locking =>
    simp only [MainFrame.threadStep, hphase] at hstep
    obtain ⟨-, hnext⟩ := Option.ite_none_left_eq_some.mp hstep
    rw [dereference_live hlive] at hnext
    obtain rfl := Option.some.inj hnext
    exact hput (fun hcancelled => hcancelled) fun hrunning => ⟨hrunning.kept, rfl⟩
  | polling =>
    simp only [MainFrame.threadStep, hphase] at hstep
    rw [dereference_live hlive, hself, Bool.or_false] at hstep
    obtain rfl := Option.some.inj hstep
    exact hput (fun hcancelled => hcancelled) fun hrunning => ⟨hrunning.kept, rfl⟩
  | ending =>
    simp only [MainFrame.threadStep, hphase] at hstep
    obtain ⟨-, hnext⟩ := Option.ite_none_left_eq_some.mp hstep
    rw [dereference_live hlive] at hnext
    obtain rfl := Option.some.inj hnext
    apply hput fun hcancelled => hcancelled
    intro hrunning
    have hloops := hrunning.looping
    rw [hphase] at hloops
    cases hloops
  | clearing =>
    have hstanding := h.standing.threadStep ht hstep
    have hcalm := h.calm
    have hended : ¬ ∀ v ∈ s.threads, Running v := by
      intro hrun
      have hloops := (hrun t (by rw [ht]; exact List.mem_singleton_self t)).looping
      rw [hphase] at hloops
      cases hloops
    simp only [MainFrame.threadStep, hphase] at hstep
    obtain rfl := Option.some.inj hstep
    refine ⟨hstanding, h.fault, ?_⟩
    show MainFrame.CalmAt _ s.task
    generalize s.task = task at hcalm
    cases task with
    | idle | locking p | testing p => exact absurd hcalm hended
    | loading p | calling p id => exact absurd hcalm.2 hended
    | awaiting p | looking p | destroying | destroyed => trivial

/-- The step lemma where a thread does not end by itself. -/
theorem Calm.step (h : s.Calm) {e : FrameEvent} (hself : deletesItself = true → ∀ id, e ≠ .thread id true)
    (hstep : s.step deletesItself e = some s') : s'.Calm := by
  obtain ⟨-, hstep⟩ := Option.ite_none_left_eq_some.mp hstep
  cases e with
  | connect found runs =>
    obtain ⟨hidle, hnext⟩ := Option.ite_none_right_eq_some.mp hstep
    obtain rfl := Option.some.inj hnext
    exact h.connect hidle found runs
  | close =>
    obtain ⟨hidle, hnext⟩ := Option.ite_none_right_eq_some.mp hstep
    obtain rfl := Option.some.inj hnext
    exact h.onClose hidle
  | frame => exact h.frameStep hstep
  | thread id failed =>
    obtain ⟨t, hfind, hnext⟩ := Option.bind_eq_some_iff.mp hstep
    refine h.threadStep (h.standing.find hfind) ?_ hnext
    cases failed with
    | false => rfl
    | true =>
      cases deletesItself with
      | false => rfl
      | true => exact absurd rfl (hself rfl id)

theorem Calm.run (h : s.Calm) {es : List FrameEvent} (hself : deletesItself = true → ∀ id, .thread id true ∉ es)
    (hrun : Runs.run (MainFrame.step deletesItself) s es = some s') : s'.Calm := by
  induction es generalizing s with
  | nil =>
    obtain rfl := Option.some.inj hrun
    exact h
  | cons e es ih =>
    obtain ⟨u, hstep, hrest⟩ := Option.bind_eq_some_iff.mp hrun
    apply ih (h.step _ hstep) _ hrest
    · intro hdeletes id heq
      apply hself hdeletes id
      rw [heq]
      exact List.mem_cons_self
    · intro hdeletes id hmem
      exact hself hdeletes id (List.mem_cons_of_mem e hmem)

theorem calm_new : Calm {} where
  standing := standing_new
  fault := rfl
  calm := fun _ ht => (List.not_mem_nil ht).elim

section Waiting

/-- The frame is in the loop that waits for `m_handler` to be a null pointer. -/
def Waiting (s : MainFrame) : Prop := s.task.waits = true

theorem Waiting.cases (h : s.Waiting) : ∃ p, s.task = .awaiting p ∨ s.task = .looking p := by
  rw [Waiting] at h
  cases htask : s.task with
  | awaiting p => exact ⟨p, .inl rfl⟩
  | looking p => exact ⟨p, .inr rfl⟩
  | _ =>
    rw [htask] at h
    cases h

/-- How many steps a cancelled thread has left. -/
def stepsLeft : Phase → ℕ
  | .locking => 6
  | .polling => 5
  | .sleeping => 4
  | .testing => 3
  | .ending => 2
  | .clearing => 1

def remaining (s : MainFrame) : ℕ := s.threads.foldr (fun t n => stepsLeft t.phase + n) 0

theorem remaining_one (ht : s.threads = [t]) : s.remaining = stepsLeft t.phase := by
  rw [remaining, ht]
  rfl

theorem Standing.cancelled (h : s.Standing) (hw : s.Waiting) : ∀ t ∈ s.threads, t.cancelled = true := by
  have hstage := h.stage
  obtain ⟨p, htask | htask⟩ := hw.cases
  · rw [htask] at hstage
    exact hstage.2
  · rw [htask] at hstage
    exact hstage.2

theorem Standing.remaining_le (h : s.Standing) : s.remaining ≤ 6 := by
  rcases h.alone with ⟨hnone, -⟩ | ⟨t, ht, -⟩
  · rw [remaining, hnone]
    exact Nat.zero_le 6
  · rw [remaining_one ht]
    cases t.phase <;> decide

theorem locked_one (ht : s.threads = [t]) (hphase : t.phase ≠ .polling) : s.locked = false := by
  rw [locked, ht]
  simp [hphase]

theorem remaining_put (ht : s.threads = [t]) (phase : Phase) (cancelled : Bool) :
    (s.put { t with phase := phase, cancelled := cancelled }).remaining = stepsLeft phase := by
  apply remaining_one (t := { t with phase := phase, cancelled := cancelled })
  rw [MainFrame.put, ht, List.map_singleton, if_pos rfl]

/-- A cancelled thread can always take its next step, and it has one less left then. -/
theorem Standing.thread_advances (h : s.Standing) (ht : s.threads = [t]) (hcancelled : t.cancelled = true) (failed : Bool) :
    ∃ u, s.threadStep deletesItself t failed = some u ∧ u.remaining < s.remaining := by
  have hlive := h.thread_live ht
  have hput := remaining_put ht
  rw [remaining_one ht, MainFrame.threadStep]
  cases hphase : t.phase with
  | testing =>
    refine ⟨_, rfl, ?_⟩
    rw [hput _ t.cancelled, hcancelled, if_pos rfl]
    decide
  | sleeping =>
    refine ⟨_, rfl, ?_⟩
    rw [hput _ t.cancelled]
    decide
  | locking | ending =>
    simp only [locked_one ht (by rw [hphase]; decide), dereference_live hlive]
    refine ⟨_, rfl, ?_⟩
    rw [hput _ t.cancelled]
    decide
  | polling =>
    simp only [dereference_live hlive]
    refine ⟨_, rfl, ?_⟩
    rw [hput]
    decide
  | clearing =>
    refine ⟨_, rfl, ?_⟩
    rw [remaining, ht]
    simp [stepsLeft]

theorem leave_not_waiting (s : MainFrame) (p : Purpose) : ¬ (s.leave p).Waiting := by
  intro hw
  cases p with
  | connect db runs =>
    have hidle : (s.deleteDatabase.start db runs).task = .idle := by
      rw [start]
      split <;> rfl
    rw [Waiting, leave, hidle] at hw
    cases hw
  | close => cases hw

/-- While the frame waits, its own steps leave the thread as it is. -/
theorem Standing.waiting_step (h : s.Standing) (hw : s.Waiting) {e : FrameEvent}
    (hstep : s.step deletesItself e = some s') (hw' : s'.Waiting) :
    s'.remaining + (if e.ofThread then 1 else 0) ≤ s.remaining := by
  obtain ⟨-, hnext⟩ := Option.ite_none_left_eq_some.mp hstep
  have hbusy : s.task ≠ .idle := by
    obtain ⟨p, htask | htask⟩ := hw.cases <;> rw [htask] <;> simp
  cases e with
  | connect found runs => exact absurd (Option.ite_none_right_eq_some.mp hnext).1 hbusy
  | close => exact absurd (Option.ite_none_right_eq_some.mp hnext).1 hbusy
  | thread id failed =>
    obtain ⟨t, hfind, hthread⟩ := Option.bind_eq_some_iff.mp hnext
    have ht := h.find hfind
    obtain ⟨u, hu, hlt⟩ := h.thread_advances ht (h.cancelled hw t (by rw [ht]; exact List.mem_singleton_self t)) failed
    rw [hthread] at hu
    obtain rfl := Option.some.inj hu
    exact hlt
  | frame =>
    have hopened := h.stage
    rw [MainFrame.frameStep] at hnext
    obtain ⟨p, htask | htask⟩ := hw.cases
    · rw [htask] at hopened
      simp only [htask] at hnext
      obtain ⟨-, hsome⟩ := Option.ite_none_left_eq_some.mp hnext
      rw [h.dereference hopened.1.isSome] at hsome
      obtain rfl := Option.some.inj hsome
      exact le_refl _
    · simp only [htask] at hnext
      obtain rfl := Option.some.inj hnext
      split at hw'
      · rename_i hhandler
        rw [if_pos hhandler]
        exact le_refl _
      · exact absurd hw' (leave_not_waiting s p)

theorem Standing.waiting_run (h : s.Standing) {es : List FrameEvent}
    (hrun : Runs.run (MainFrame.step deletesItself) s es = some s')
    (hw : Runs.Throughout (MainFrame.step deletesItself) Waiting s es) :
    s'.remaining + es.countP FrameEvent.ofThread ≤ s.remaining := by
  induction es generalizing s with
  | nil =>
    obtain rfl := Option.some.inj hrun
    exact le_refl _
  | cons e es ih =>
    obtain ⟨u, hstep, hrest⟩ := Option.bind_eq_some_iff.mp hrun
    obtain ⟨hs, hthrough⟩ := (Runs.throughout_cons Waiting s e es).mp hw
    have hu := hthrough u hstep
    have hfirst := h.waiting_step hs hstep ((Runs.throughout_iff Waiting u es).mp hu).1
    have hlater := ih (h.step hstep) hrest hu
    rw [List.countP_cons]
    omega

theorem looking_leaves (hfault : s.fault = none) (hhandler : s.handler = none) {p : Purpose} (htask : s.task = .looking p) :
    s.step deletesItself .frame = some (s.leave p) := by
  rw [MainFrame.step, hfault]
  simp only [Option.isSome_none, Bool.false_eq_true, if_false, frameStep, htask, hhandler]

/-- What the frame waits for comes: it is there already, or the thread can take its next step. -/
theorem Standing.waiting_progress (h : s.Standing) (hfault : s.fault = none) (hw : s.Waiting) :
    (∃ id, s.handler = some id ∧ (s.step deletesItself (.thread id false)).isSome = true) ∨
      (s.handler = none ∧ ∃ n s', Runs.run (MainFrame.step deletesItself) s (List.replicate n .frame) = some s' ∧
        ¬ s'.Waiting) := by
  rcases h.alone with ⟨hnone, hhandler⟩ | ⟨t, ht, hhandler, -⟩
  · right
    refine ⟨hhandler, ?_⟩
    have hstage := h.stage
    obtain ⟨p, htask | htask⟩ := hw.cases
    · rw [htask] at hstage
      have hstep : s.step deletesItself .frame = some { s with task := .looking p } := by
        have hfree : s.locked = false := by
          rw [locked, hnone]
          rfl
        rw [MainFrame.step, hfault]
        simp only [Option.isSome_none, Bool.false_eq_true, if_false, MainFrame.frameStep, htask, hfree]
        rw [h.dereference hstage.1.isSome, hfault]
      refine ⟨2, _, ?_, leave_not_waiting { s with task := .looking p } p⟩
      rw [List.replicate_succ, Runs.run_cons, hstep]
      show (MainFrame.step deletesItself { s with task := .looking p } .frame).bind _ = _
      rw [looking_leaves (s := { s with task := .looking p }) hfault hhandler rfl]
      rfl
    · refine ⟨1, _, ?_, leave_not_waiting s p⟩
      rw [List.replicate_succ, Runs.run_cons, looking_leaves hfault hhandler htask]
      rfl
  · left
    refine ⟨t.id, hhandler, ?_⟩
    have hcancelled : t.cancelled = true := by
      apply h.cancelled hw
      rw [ht]
      exact List.mem_singleton_self t
    obtain ⟨u, hu, -⟩ : ∃ u, s.threadStep deletesItself t false = some u ∧ u.remaining < s.remaining :=
      h.thread_advances ht hcancelled false
    rw [MainFrame.step, hfault, ht]
    simp [hu]

end Waiting

/-- In every interleaving there is one polling thread at most, `m_handler` is that thread and nothing else, the database
it polls is the frame's, and no step of either side uses a deleted database. Unless a thread ends by itself when a poll
fails, the frame calls `Delete` of a thread that is there. -/
theorem interleavings_safe (deletesItself : Bool) (es : List FrameEvent) (s : MainFrame)
    (hrun : Runs.run (step deletesItself) {} es = some s) :
    s.threads.map (·.id) = s.handler.toList ∧ (∀ t ∈ s.threads, s.db = some t.db ∧ t.db ∈ s.databases) ∧
      s.fault ≠ some .database ∧
      ((deletesItself = true → ∀ id, .thread id true ∉ es) → s.fault = none) := by
  have hstanding := standing_new.run hrun
  refine ⟨?_, ?_, hstanding.sound, fun hself => (calm_new.run hself hrun).fault⟩
  · rcases hstanding.alone with ⟨hnone, hhandler⟩ | ⟨t, ht, hhandler, -⟩
    · rw [hnone, hhandler]
      rfl
    · rw [ht, hhandler]
      rfl
  · intro t ht
    rcases hstanding.alone with ⟨hnone, -⟩ | ⟨u, hu, -, hframe⟩
    · rw [hnone] at ht
      exact (List.not_mem_nil ht).elim
    · rw [hu] at ht
      obtain rfl := List.mem_singleton.mp ht
      exact ⟨hframe, hstanding.live _ hframe⟩

/-- The thread's own `Delete` would end it while the frame, having just seen it, is about to call `Delete`. -/
def endsUnseen : List FrameEvent :=
  [.connect true true, .thread 1 false, .thread 1 false, .thread 1 true, .thread 1 false, .close, .frame, .frame,
    .thread 1 false, .thread 1 false, .thread 1 false, .frame]

example : (Runs.run (step true) {} endsUnseen).map (·.fault) = some (some .handler) := by decide

theorem interleavings_safe_endsUnseen : ∃ s, Runs.run (step false) {} endsUnseen = some s ∧
    s.threads.map (·.id) = s.handler.toList ∧ (∀ t ∈ s.threads, s.db = some t.db ∧ t.db ∈ s.databases) ∧
      s.fault ≠ some .database ∧ ((false = true → ∀ id, .thread id true ∉ endsUnseen) → s.fault = none) := by
  cases hrun : Runs.run (step false) {} endsUnseen with
  | none => exact absurd hrun (by decide)
  | some s => exact ⟨s, rfl, interleavings_safe false endsUnseen s hrun⟩

/-- The frame is closed while its thread polls. -/
def closedPolling : List FrameEvent :=
  [.connect true true, .thread 1 false, .thread 1 false, .close, .thread 1 true, .frame, .frame, .frame, .frame]

end MainFrame

end DbHandler.Threads
