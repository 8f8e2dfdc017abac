import DbHandler.TableData.Retrieval

namespace DbHandler.TableData

open Foundation.Encoding

inductive CellWrite
  | value (column : ℕ) (entry : Entry)
  | image (column : ℕ) (bytes : Bytes)
  | readOnly (column : ℕ)
  deriving DecidableEq, Repr

/-- What `DisplayRecords` writes into its grid row from column `i` on: a blob that is no image takes no column,
and it is the column after an image that is made read-only. -/
def displayCells (isImage : Bytes → Bool) : ℕ → List Entry → List CellWrite
  | _, [] => []
  | i, .blob bytes :: rest =>
    if isImage bytes then .image i bytes :: .readOnly (i + 1) :: displayCells isImage (i + 1) rest
    else displayCells isImage i rest
  | i, .wide t :: rest => .value i (.wide t) :: displayCells isImage (i + 1) rest
  | i, .narrow bytes :: rest => .value i (.narrow bytes) :: displayCells isImage (i + 1) rest

/-- Where `DBTableEdit::Entry` stands: after `Run`, before the lock, at the head of the loop, before the call is
posted, in the wait for it, before `FinalizeStatement`, before the completion is posted, before the thread event
is queued, and before the destructor. -/
inductive Phase
  | starting
  | locking
  | fetching
  | posting (row : List Entry)
  | waiting
  | finalizing
  | completing
  | notifying
  | ending
  deriving DecidableEq, Repr

/-- The block that holds `my_mutex`. -/
def Phase.locked : Phase → Bool
  | .fetching | .posting _ | .waiting | .finalizing => true
  | _ => false

/-- A live `DBTableEdit`; executions are numbered in the order in which they were started. -/
structure Worker where
  execution : ℕ
  phase : Phase := .starting
  continueProcessing : Bool := true
  destroyRequested : Bool := false
  errorMsg : List Text := []
  deriving DecidableEq, Repr

inductive Message
  | display (execution : ℕ) (row : List Entry)
  | complete (execution : ℕ) (errorMsg : List Text)
  deriving DecidableEq, Repr

/-- `ThreadEventHandler` keeps the GUI thread until it has seen `m_handler` null. -/
inductive ThreadHandler
  | idle
  | deleting
  | awaiting
  deriving DecidableEq, Repr

structure Shown where
  execution : ℕ
  gridRow : ℕ
  cells : List CellWrite
  deriving DecidableEq, Repr

/-- The view, its retriever (`displaying` is the flag that `SetProcessed` sets), the live workers and what is
pending in the GUI thread; the last five fields record what happened. -/
structure EditView where
  handler : Option ℕ := none
  queryExecuting : Bool := true
  processed : ℕ := 0
  gridRows : ℕ := 0
  displaying : Bool := false
  threadHandler : ThreadHandler := .idle
  workers : List Worker := []
  queue : List Message := []
  threadEvents : ℕ := 0
  started : ℕ := 0
  crashed : Bool := false
  fetched : List (ℕ × List Entry) := []
  shown : List Shown := []
  completed : List (ℕ × List Text) := []
  cancelled : List ℕ := []
  failed : List ℕ := []
  deriving DecidableEq, Repr

inductive Fetch
  | row (row : List Entry)
  | noMoreRows
  | failed (errorMsg : List Text)
  deriving DecidableEq, Repr

inductive Action
  | testDestroy
  | prepare (failure : Option (List Text))
  | fetch (outcome : Fetch)
  | stop
  | post
  | resume
  | finalize (errorMsg : List Text)
  | complete
  | notify
  | destroy
  deriving DecidableEq, Repr

inductive EditStep
  | worker (execution : ℕ) (action : Action)
  | handleCall
  | threadEvent
  | deleteHandler
  | threadEventEnds
  | click (runs : Bool)
  deriving DecidableEq, Repr

namespace EditView

def locked (s : EditView) : Bool := s.workers.any (·.phase.locked)

def setWorker (w : Worker) (s : EditView) : EditView :=
  { s with workers := s.workers.map fun v => if v.execution = w.execution then w else v }

/-- One action of the worker `w` in its phase, `none` where it cannot be taken. -/
def act (w : Worker) (s : EditView) : Phase → Action → Option EditView
  | .starting, .testDestroy =>
    some (s.setWorker { w with phase := if w.destroyRequested then .notifying else .locking })
  | .locking, .prepare none => if s.locked then none else some (s.setWorker { w with phase := .fetching })
  | .locking, .prepare (some errorMsg) =>
    if s.locked then none
    else some { s.setWorker { w with phase := .finalizing, errorMsg := w.errorMsg ++ errorMsg } with
      failed := s.failed ++ [w.execution] }
  | .fetching, .fetch (.row row) =>
    if w.continueProcessing then
      some { s.setWorker { w with phase := .posting row } with
        displaying := true, fetched := s.fetched ++ [(w.execution, row)] }
    else none
  | .fetching, .fetch .noMoreRows =>
    if w.continueProcessing then some { s.setWorker { w with phase := .finalizing } with displaying := false } else none
  | .fetching, .fetch (.failed errorMsg) =>
    if w.continueProcessing then
      some { s.setWorker { w with phase := .finalizing, errorMsg := w.errorMsg ++ errorMsg } with
        displaying := false, failed := s.failed ++ [w.execution] }
    else none
  | .fetching, .stop =>
    if w.continueProcessing then none else some { s.setWorker { w with phase := .finalizing } with displaying := false }
  | .posting row, .post =>
    some { s.setWorker { w with phase := .waiting } with queue := s.queue ++ [.display w.execution row] }
  | .waiting, .resume => if s.displaying then none else some (s.setWorker { w with phase := .fetching })
  | .finalizing, .finalize errorMsg =>
    some (s.setWorker { w with phase := .completing, errorMsg := w.errorMsg ++ errorMsg })
  | .completing, .complete =>
    some { s.setWorker { w with phase := .notifying } with queue := s.queue ++ [.complete w.execution w.errorMsg] }
  | .notifying, .notify => some { s.setWorker { w with phase := .ending } with threadEvents := s.threadEvents + 1 }
  | .ending, .destroy =>
    if s.locked then none
    else some { s with workers := s.workers.filter (·.execution ≠ w.execution), handler := none }
  | _, _ => none

/-- A new `DBTableEdit` that was run; the worker it replaces in `m_handler` is not waited for. -/
def start (s : EditView) : EditView :=
  { s with
    handler := some s.started, queryExecuting := true, processed := 0, started := s.started + 1
    workers := s.workers ++ [{ execution := s.started }] }

/-- `ClearGrid` empties the cells and keeps the rows of the grid. -/
def onCancelQuery (runs : Bool) (s : EditView) : Option EditView :=
  if s.queryExecuting then
    match s.handler with
    | none => some { s with crashed := true }
    | some e => some { s with
        queryExecuting := false, cancelled := s.cancelled ++ [e]
        workers := s.workers.map fun v => if v.execution = e then { v with continueProcessing := false } else v }
  else if runs then some s.start
  else if s.locked then none
  else some { s with handler := none, queryExecuting := true, processed := 0 }

def displayRecords (isImage : Bytes → Bool) (execution : ℕ) (row : List Entry) (s : EditView) : EditView :=
  { s with
    gridRows := s.gridRows + 1, processed := s.processed + 1, displaying := false
    shown := s.shown ++ [⟨execution, s.processed, displayCells isImage 0 row⟩] }

def completeRetrieval (execution : ℕ) (errorMsg : List Text) (s : EditView) : EditView :=
  { s with queryExecuting := false, completed := s.completed ++ [(execution, errorMsg)] }

def handleCall (isImage : Bytes → Bool) (s : EditView) : Option EditView :=
  match s.queue with
  | [] => none
  | .display e row :: rest => some ({ s with queue := rest }.displayRecords isImage e row)
  | .complete e errorMsg :: rest => some ({ s with queue := rest }.completeRetrieval e errorMsg)

def deleteHandler (s : EditView) : EditView :=
  { s with
    threadHandler := .awaiting
    workers := s.workers.map fun v => if s.handler = some v.execution then { v with destroyRequested := true } else v }

def apply (isImage : Bytes → Bool) (s : EditView) : EditStep → Option EditView
  | .worker e action => if s.crashed then none else
    (s.workers.find? (·.execution = e)).bind fun w => s.act w w.phase action
  | .handleCall => if s.crashed ∨ s.threadHandler ≠ .idle then none else s.handleCall isImage
  | .click runs => if s.crashed ∨ s.threadHandler ≠ .idle then none else s.onCancelQuery runs
  | .threadEvent =>
    if s.crashed ∨ s.threadHandler ≠ .idle ∨ s.threadEvents = 0 then none
    else some { s with threadHandler := .deleting, threadEvents := s.threadEvents - 1 }
  | .deleteHandler =>
    if s.crashed ∨ s.threadHandler ≠ .deleting ∨ s.locked then none else some s.deleteHandler
  | .threadEventEnds =>
    if s.crashed ∨ s.threadHandler ≠ .awaiting ∨ s.locked ∨ s.handler ≠ none then none
    else some { s with threadHandler := .idle }

def run (isImage : Bytes → Bool) : EditView → List EditStep → Option EditView
  | s, [] => some s
  | s, step :: rest => (s.apply isImage step).bind fun t => run isImage t rest

def onCreate (runs : Bool) : EditView := if runs then start {} else {}

def fetchedOf (e : ℕ) (s : EditView) : List (List Entry) := (s.fetched.filter (·.1 = e)).map (·.2)

def shownOf (e : ℕ) (s : EditView) : List (ℕ × List CellWrite) :=
  (s.shown.filter (·.execution = e)).map fun r => (r.gridRow, r.cells)

/-- The rows of an execution as they stand in the grid: each in the row of its index. -/
def placed (isImage : Bytes → Bool) (rows : List (List Entry)) : List (ℕ × List CellWrite) :=
  rows.mapIdx fun i row => (i, displayCells isImage 0 row)

def Completed (e : ℕ) (s : EditView) : Prop := ∃ errorMsg, (e, errorMsg) ∈ s.completed

/-- The message of a row that is not shown yet is posted or about to be, and the GUI thread is free for it. -/
def OnItsWay (e : ℕ) (s : EditView) : Prop :=
  s.threadHandler = .idle ∧
    ((∃ row, s.queue.head? = some (.display e row)) ∨ ∃ w ∈ s.workers, w.execution = e ∧ ∃ row, w.phase = .posting row)

structure Delivers (isImage : Bytes → Bool) (s : EditView) : Prop where
  running : s.crashed = false
  one : s.workers.length ≤ 1
  handler : ∀ e, s.handler = some e → ∃ w ∈ s.workers, w.execution = e
  prefixed : ∀ e, s.shownOf e <+: placed isImage (s.fetchedOf e)
  outstanding : ∀ e, s.shownOf e ≠ placed isImage (s.fetchedOf e) → s.OnItsWay e
  complete : ∀ e, s.Completed e → s.shownOf e = placed isImage (s.fetchedOf e)
  rows : ∀ r ∈ s.shown, r.gridRow < s.gridRows
  errors : ∀ e ∈ s.failed, ∀ errorMsg, (e, errorMsg) ∈ s.completed ∨ .complete e errorMsg ∈ s.queue → errorMsg ≠ []
  executing : s.queryExecuting = true ↔ ∃ e < s.started, e ∉ s.cancelled ∧ ¬ s.Completed e

/-- What a step needs: a click that cancels finds the worker, a click that executes comes when nothing of the
last execution is left and the thread is started, and a failed call of the driver has given its reason. -/
def Meets (s : EditView) : EditStep → Prop
  | .click runs =>
    (s.queryExecuting = true → s.handler ≠ none) ∧
      (s.queryExecuting = false → runs = true ∧ s.workers = [] ∧ s.queue = [] ∧ s.threadEvents = 0)
  | .worker _ (.prepare (some errorMsg)) => errorMsg ≠ []
  | .worker _ (.fetch (.failed errorMsg)) => errorMsg ≠ []
  | _ => True

def AllMeet (isImage : Bytes → Bool) : EditView → List EditStep → Prop
  | _, [] => True
  | s, step :: rest => s.Meets step ∧ ∀ t, s.apply isImage step = some t → AllMeet isImage t rest

instance (s : EditView) (step : EditStep) : Decidable (s.Meets step) := by
  unfold Meets
  split <;> infer_instance

instance decidableAllMeet (isImage : Bytes → Bool) :
    (steps : List EditStep) → (s : EditView) → Decidable (s.AllMeet isImage steps)
  | [], _ => .isTrue trivial
  | step :: rest, s =>
    match h : s.apply isImage step with
    | none => decidable_of_iff (s.Meets step) (by simp [AllMeet, h])
    | some t =>
      have := decidableAllMeet isImage rest t
      decidable_of_iff (s.Meets step ∧ t.AllMeet isImage rest) (by simp [AllMeet, h])

end EditView

end DbHandler.TableData
