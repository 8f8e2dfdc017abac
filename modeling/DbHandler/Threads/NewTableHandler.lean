import DbHandler.Foundation.Runs
import Mathlib.Data.List.Nodup

namespace DbHandler.Threads

/-- Where a polling thread stands: `TestDestroy`, the lock, `NewTableCreation` with the lock held, `Sleep`, and its
destructor before and behind its own lock. -/
inductive Phase
  | testing
  | locking
  | polling
  | sleeping
  | ending
  | clearing
  deriving DecidableEq, Repr

structure NewTableHandler where
  id : ℕ
  db : ℕ
  phase : Phase := .testing
  cancelled : Bool := false
  deriving DecidableEq, Repr

inductive Purpose
  | connect (db : ℕ) (runs : Bool)
  | close
  deriving DecidableEq, Repr

/-- What the frame is at. The lock that it takes before it looks at `m_handler` is a temporary: it is free again when it
looks, when it reads the pointer again, and when it calls `Delete` of what it read. -/
inductive FrameTask
  | idle
  | locking (purpose : Purpose)
  | testing (purpose : Purpose)
  | loading (purpose : Purpose)
  | calling (purpose : Purpose) (handler : ℕ)
  | awaiting (purpose : Purpose)
  | looking (purpose : Purpose)
  | destroying
  | destroyed
  deriving DecidableEq, Repr

/-- The loop that ends when `m_handler` is a null pointer. -/
def FrameTask.waits : FrameTask → Bool
  | .awaiting _ | .looking _ => true
  | _ => false

inductive PointerFault
  | database
  | handler
  deriving DecidableEq, Repr

/-- The frame, the threads and the databases in memory; `next` is the address of the next new object. -/
structure MainFrame where
  db : Option ℕ := none
  handler : Option ℕ := none
  task : FrameTask := .idle
  threads : List NewTableHandler := []
  databases : List ℕ := []
  next : ℕ := 0
  fault : Option PointerFault := none
  deriving DecidableEq, Repr

/-- `failed` is what `NewTableCreation` answers, `found` and `runs` what `ConnectToDb` and `Run` do. -/
inductive FrameEvent
  | connect (found runs : Bool)
  | close
  | frame
  | thread (id : ℕ) (failed : Bool)
  deriving DecidableEq, Repr

def FrameEvent.ofThread : FrameEvent → Bool
  | .thread _ _ => true
  | _ => false

namespace MainFrame

def locked (s : MainFrame) : Bool := s.threads.any fun t => t.phase = .polling

/-- What comes behind a use of a database. -/
def dereference (s : MainFrame) (db : Option ℕ) (next : MainFrame) : MainFrame :=
  if ∃ d ∈ db, d ∈ s.databases then next else { s with fault := some .database }

def put (s : MainFrame) (t : NewTableHandler) : MainFrame :=
  { s with threads := s.threads.map fun u => if u.id = t.id then t else u }

/-- The end of `Connect`. Where the thread does not run, it is deleted, and the database with it. -/
def start (s : MainFrame) (db : ℕ) (runs : Bool) : MainFrame :=
  if runs then
    { s with db := some db, handler := some s.next, threads := s.threads ++ [{ id := s.next, db := db }],
             next := s.next + 1, task := .idle }
  else { s with db := none, handler := none, databases := s.databases.filter (· ≠ db), task := .idle }

def connect (s : MainFrame) (found runs : Bool) : MainFrame :=
  if found then
    if s.db.isSome then
      { s with databases := s.next :: s.databases, next := s.next + 1, task := .locking (.connect s.next runs) }
    else { s with databases := s.next :: s.databases, next := s.next + 1 }.start s.next runs
  else s

def onClose (s : MainFrame) : MainFrame :=
  { s with task := if s.db.isSome then .locking .close else .destroying }

def deleteDatabase (s : MainFrame) : MainFrame :=
  { s with databases := s.databases.filter fun d => some d ≠ s.db, db := none }

/-- `Delete` of the thread at an address. -/
def cancel (s : MainFrame) (id : ℕ) : MainFrame :=
  if ∃ t ∈ s.threads, t.id = id then
    { s with threads := s.threads.map fun t => if t.id = id then { t with cancelled := true } else t }
  else { s with fault := some .handler }

def leave (s : MainFrame) : Purpose → MainFrame
  | .connect db runs => s.deleteDatabase.start db runs
  | .close => { s with task := .destroying }

def frameStep (s : MainFrame) : Option MainFrame :=
  match s.task with
  | .idle | .destroyed => none
  | .locking p => if s.locked then none else some (s.dereference s.db { s with task := .testing p })
  | .testing p => some { s with task := if s.handler.isSome then .loading p else .awaiting p }
  | .loading p =>
    match s.handler with
    | none => some { s with fault := some .handler }
    | some id => some { s with task := .calling p id }
  | .calling p id => some { s.cancel id with task := .awaiting p }
  | .awaiting p => if s.locked then none else some (s.dereference s.db { s with task := .looking p })
  | .looking p => some (if s.handler.isSome then { s with task := .awaiting p } else s.leave p)
  | .destroying =>
    if s.locked then none
    else some (if s.db.isSome then s.dereference s.db { s.deleteDatabase with task := .destroyed }
      else { s with task := .destroyed })

variable (deletesItself : Bool)

/-- The thread that calls its own `Delete` may or may not be cancelled by it. -/
def threadStep (s : MainFrame) (t : NewTableHandler) (failed : Bool) : Option MainFrame :=
  match t.phase with
  | .testing => some (s.put { t with phase := if t.cancelled then .ending else .locking })
  | .locking => if s.locked then none else some (s.dereference (some t.db) (s.put { t with phase := .polling }))
  | .polling => some (s.dereference (some t.db)
      (s.put { t with phase := .sleeping, cancelled := t.cancelled || (failed && deletesItself) }))
  | .sleeping => some (s.put { t with phase := .testing })
  | .ending => if s.locked then none else some (s.dereference (some t.db) (s.put { t with phase := .clearing }))
  | .clearing => some { s with handler := none, threads := s.threads.filter (·.id ≠ t.id) }

/-- One step of the frame or of a thread; behind the use of a dead object or a null pointer there is none. -/
def step (s : MainFrame) (e : FrameEvent) : Option MainFrame :=
  if s.fault.isSome then none
  else
    match e with
    | .connect found runs => if s.task = .idle then some (s.connect found runs) else none
    | .close => if s.task = .idle then some s.onClose else none
    | .frame => s.frameStep
    | .thread id failed => (s.threads.find? (·.id = id)).bind fun t => s.threadStep deletesItself t failed

end MainFrame

end DbHandler.Threads
