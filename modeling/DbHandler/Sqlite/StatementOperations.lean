import DbHandler.Sqlite.Statements

namespace DbHandler.SqliteStatements

open Foundation.Resources

section Connection

/-- A change, whose result the caller looks at only to end the transaction. -/
def perform (prepared stepped : Bool) : Driver Unit := do
  let _ ← execute prepared (!stepped)

structure Opening where
  opened : Bool
  created : Bool
  list : Listing
  foreignKeys : Bool
  prepared : Bool
  answered : Bool
  deriving DecidableEq, Repr

def loadOpened (quiet : Bool) (o : Opening) : Driver Exit := do
  let list ← getTableListFromDb quiet o.list
  list.andThen (guarded o.foreignKeys (.returned true) (execute o.prepared (!o.answered)))

/-- `created`: `BEGIN` and the seven statements after it succeed. -/
def connect (quiet : Bool) (o : Opening) : Driver Exit := do
  reopen
  guarded (o.opened && o.created) (.returned true) (loadOpened quiet o)

def finaliseMembers : Driver Unit := do
  releaseFrom .stmt1
  releaseFrom .stmt2
  releaseFrom .stmt3

def disconnect : Driver Exit := do
  finaliseMembers
  let closed ← close
  return .returned (!closed)

def createDatabase (quiet : Bool) (o : Opening) : Driver Exit := do
  let disconnected ← disconnect
  disconnected.andThen (connect quiet o)

def dropDatabase (current : Bool) : Driver Exit :=
  guarded current (.returned false) disconnect

end Connection

section Calls

/-- `found`: `IsIndexExists` returns true, with a message. -/
structure Indexing where
  begun : Bool
  quiet : Bool
  existence : Reading
  found : Bool
  prepared : Bool
  stepped : Bool
  deriving DecidableEq, Repr

def isIndexExists (o : Reading) : Driver Exit := reading o true

def createIndex (o : Indexing) : Driver Unit :=
  guarded o.begun () do
    let existence ← isIndexExists o.existence
    guarded (existence = .returned false && !o.found && o.quiet) () (perform o.prepared o.stepped)

structure PropertiesChange where
  begun : Bool
  quiet : Bool
  isLog : Bool
  existencePrepared : Bool
  existenceRead : Bool
  prepared : Bool
  stepped : Bool
  deriving DecidableEq, Repr

def isTablePropertiesExist (prepared answered : Bool) : Driver Exit := execute prepared (!answered)

def setTableProperties (o : PropertiesChange) : Driver Unit :=
  guarded o.begun () do
    let existence ← isTablePropertiesExist o.existencePrepared o.existenceRead
    guarded (existence = .returned false && o.quiet && !o.isLog) () (perform o.prepared o.stepped)

/-- `begun`: the pragma and `BEGIN` succeed, which a call that only logs does not send. `rewritten`:
the new text is made without an exception. -/
structure KeyChange where
  logOnly : Bool
  begun : Bool
  sql : Reading
  rewritten : Bool
  prepared : Bool
  stepped : Bool
  deriving DecidableEq, Repr

def applyForeignKey (o : KeyChange) : Driver Unit :=
  guarded (o.logOnly || o.begun) () do
    let read ← reading o.sql true
    guarded (read = .returned false && o.rewritten && !o.logOnly) () (perform o.prepared o.stepped)

def isFieldPropertiesExist (prepared : Bool) : Driver Unit := acquireInto .stmt1 prepared

def setFieldProperties (begun prepared : Bool) : Driver Unit :=
  guarded begun () (isFieldPropertiesExist prepared)

def getFieldHeader (prepared : Bool) : Driver Unit := do
  let _ ← unfinalised prepared false

def getAttachedDBList (o : Reading) : Driver Exit := reading o true

def prepareStatement (prepared : Bool) : Driver Unit := acquireInto .stmt prepared

def finalizeStatement : Driver Unit := releaseFrom .stmt

/-- `converted`: the text that is read, if any, is UTF-8. -/
def getTableCreationSyntax (prepared bound converted : Bool) : Driver Unit := do
  acquireInto .stmt prepared
  guarded (prepared && bound && converted) () (releaseFrom .stmt)

end Calls

section Polling

/-- `known`: the name is in `tableNames`; `catalogued`: `m_tables` has an entry for the database;
`changed`: a count differs from that of the table which has been loaded. -/
structure Row where
  convertible : Bool
  known : Bool
  catalogued : Bool
  fieldsPrepared : Bool
  fieldsRead : Bool
  indexesPrepared : Bool
  indexesRead : Bool
  changed : Bool
  table : Table
  deriving DecidableEq, Repr

/-- The two counts of a row with which `count == m_numOfTables`. -/
def countTable (row : Row) : Driver Exit := do
  let fields ← unfinalised row.fieldsPrepared (!row.fieldsRead)
  fields.andThen (unfinalised row.indexesPrepared (!row.indexesRead))

/-- The loop of `m_stmt2`, with `result` and whether `errorMsg` is still empty after it; `order`
compares `count` to `m_numOfTables`. -/
def pollRows (order : Ordering) (complete : Bool) : Bool → List Row → Driver (Exit × Bool)
  | quiet, [] => pure (.returned (!complete), quiet)
  | quiet, row :: rest =>
    if row.convertible then
      match order with
      | .lt => pollRows order complete quiet rest
      | .gt =>
        if row.known then pollRows order complete quiet rest
        else do
          match ← addDropTable quiet row.table with
          | .returned failed => pollRows order complete (quiet && !failed) rest
          | .thrown => return (.thrown, quiet)
      | .eq =>
        if row.catalogued then do
          match ← countTable row with
          | .returned false => do
            match ← guarded row.changed (.returned false) (addDropTable quiet row.table) with
            | .returned failed => pollRows order complete (quiet && !failed) rest
            | .thrown => return (.thrown, quiet)
          | e => return (e, quiet)
        else pure (.thrown, quiet)
    else pure (.thrown, quiet)

/-- `order` is `none` where `m_stmt3` has no row, and `first` where `temp` is empty. -/
structure Poll where
  version : Bool
  changed : Bool
  counted : Bool
  order : Option Ordering
  listed : Bool
  rows : List Row
  complete : Bool
  first : Option Table
  deriving DecidableEq, Repr

/-- What follows the loop: `temp.at( 0 )` is dropped, or added. -/
def settle (order : Ordering) (first : Option Table) : Exit × Bool → Driver Exit
  | (.thrown, _) => pure .thrown
  | (.returned failed, quiet) =>
    match order with
    | .gt => pure (.returned failed)
    | .lt => pure (if first.isSome then .returned false else .thrown)
    | .eq =>
      if failed then pure (.returned true)
      else match first with
        | some table => addDropTable quiet table
        | none => pure .thrown

def pollTables (quiet : Bool) (o : Poll) (order : Ordering) : Driver Exit := do
  let polled ← heldScope .stmt2 o.listed (.returned true, quiet) (fun polled => polled.1.throws)
    (pollRows order o.complete quiet o.rows)
  settle order o.first polled

def newTableCreation (quiet : Bool) (o : Poll) : Driver Exit :=
  heldScope .stmt1 o.version (.returned false) Exit.throws <|
    guarded o.changed (.returned false) <|
      heldScope .stmt3 o.counted (.returned true) Exit.throws <|
        match o.order with
        | some order => pollTables quiet o order
        | none => pure (.returned true)

end Polling

section PollResults

def Row.countExit (row : Row) : Exit :=
  if row.fieldsPrepared && row.fieldsRead then .returned (!row.indexesPrepared || !row.indexesRead)
  else .returned true

def Row.reloadExit (quiet : Bool) (row : Row) : Exit :=
  if row.changed then row.table.exit quiet else .returned false

def pollExit (order : Ordering) (complete : Bool) : Bool → List Row → Exit × Bool
  | quiet, [] => (.returned (!complete), quiet)
  | quiet, row :: rest =>
    if row.convertible then
      match order with
      | .lt => pollExit order complete quiet rest
      | .gt =>
        if row.known then pollExit order complete quiet rest
        else match row.table.exit quiet with
          | .returned failed => pollExit order complete (quiet && !failed) rest
          | .thrown => (.thrown, quiet)
      | .eq =>
        if row.catalogued then
          match row.countExit with
          | .returned false =>
            match row.reloadExit quiet with
            | .returned failed => pollExit order complete (quiet && !failed) rest
            | .thrown => (.thrown, quiet)
          | e => (e, quiet)
        else (.thrown, quiet)
    else (.thrown, quiet)

/-- With more tables than before each new one is loaded cleanly; with as many, the first row already
prepares a statement that is not finalised. -/
def RowsFinalised (order : Ordering) : Bool → List Row → Prop
  | _, [] => True
  | quiet, row :: rest =>
    row.convertible = true →
      match order with
      | .lt => RowsFinalised order quiet rest
      | .gt =>
        if row.known then RowsFinalised order quiet rest
        else row.table.Finalised quiet ∧
          match row.table.exit quiet with
          | .returned failed => RowsFinalised order (quiet && !failed) rest
          | .thrown => True
      | .eq => row.catalogued = true → row.fieldsPrepared = false

theorem balanced_countTable (row : Row) :
    Balanced (countTable row) row.countExit (row.fieldsPrepared = false) := by
  have h : Balanced (countTable row) _ _ := (balanced_unfinalised row.fieldsPrepared (!row.fieldsRead)).bind
    (balanced_andThen (balanced_unfinalised row.indexesPrepared (!row.indexesRead))
      (.returned (!row.fieldsPrepared || !row.fieldsRead)))
  unfold Row.countExit
  cases hp : row.fieldsPrepared <;> cases hr : row.fieldsRead <;> simp only [hp, hr] at h <;>
    exact h.congr (by simp)

theorem balanced_reload (quiet : Bool) (row : Row) :
    Balanced (guarded row.changed (.returned false) (addDropTable quiet row.table)) (row.reloadExit quiet)
      (row.changed = true → row.table.Finalised quiet) :=
  (balanced_addDropTable quiet row.table).guarded row.changed (.returned false)

theorem balanced_pollRows (order : Ordering) (complete quiet : Bool) (rows : List Row) :
    Balanced (pollRows order complete quiet rows) (pollExit order complete quiet rows)
      (RowsFinalised order quiet rows) := by
  induction rows generalizing quiet with
  | nil => exact balanced_pure _
  | cons row rest ih =>
    unfold pollRows pollExit RowsFinalised
    cases hconvertible : row.convertible
    · exact (balanced_pure _).congr (by simp)
    cases order with
    | lt => exact (ih quiet).congr (by simp)
    | gt =>
      cases hknown : row.known
      · have hload := balanced_addDropTable quiet row.table
        cases hexit : row.table.exit quiet with
        | returned failed =>
          rw [hexit] at hload
          exact (hload.bind (ih (quiet && !failed))).congr (by simp)
        | thrown =>
          rw [hexit] at hload
          exact (hload.bind (balanced_pure (Exit.thrown, quiet))).congr (by simp)
      · exact (ih quiet).congr (by simp)
    | eq =>
      cases hcatalogued : row.catalogued
      · exact (balanced_pure _).congr (by simp)
      have hcount := balanced_countTable row
      have hreload := balanced_reload quiet row
      cases hcounted : row.countExit with
      | thrown =>
        rw [hcounted] at hcount
        exact (hcount.bind (balanced_pure (Exit.thrown, quiet))).congr (by simp)
      | returned failed =>
        rw [hcounted] at hcount
        cases failed with
        | true => exact (hcount.bind (balanced_pure (Exit.returned true, quiet))).congr (by simp)
        | false =>
          -- both counts were read, so their statements were prepared
          have hprepared : row.fieldsPrepared = true := by
            by_contra hrefused
            simp [Row.countExit, hrefused] at hcounted
          cases hreloaded : row.reloadExit quiet with
          | returned failed =>
            rw [hreloaded] at hreload
            exact (hcount.bind (hreload.bind (ih (quiet && !failed)))).congr (by simp [hprepared])
          | thrown =>
            rw [hreloaded] at hreload
            exact (hcount.bind (hreload.bind (balanced_pure (Exit.thrown, quiet)))).congr (by simp [hprepared])

def settleExit (order : Ordering) (first : Option Table) : Exit × Bool → Exit
  | (.thrown, _) => .thrown
  | (.returned failed, quiet) =>
    match order with
    | .gt => .returned failed
    | .lt => if first.isSome then .returned false else .thrown
    | .eq =>
      if failed then .returned true
      else match first with
        | some table => table.exit quiet
        | none => .thrown

def SettleFinalised (order : Ordering) (first : Option Table) : Exit × Bool → Prop
  | (.thrown, _) => True
  | (.returned failed, quiet) => order = .eq → failed = false → ∀ table, first = some table → table.Finalised quiet

theorem balanced_settle (order : Ordering) (first : Option Table) (polled : Exit × Bool) :
    Balanced (settle order first polled) (settleExit order first polled) (SettleFinalised order first polled) := by
  obtain ⟨exit, quiet⟩ := polled
  cases exit with
  | thrown => exact balanced_pure _
  | returned failed =>
    unfold settle settleExit SettleFinalised
    cases order with
    | lt => exact (balanced_pure _).congr (by simp)
    | gt => exact (balanced_pure _).congr (by simp)
    | eq =>
      cases failed
      · cases first with
        | none => exact (balanced_pure _).congr (by simp)
        | some table => exact (balanced_addDropTable quiet table).congr (by simp)
      · exact (balanced_pure _).congr (by simp)

def Poll.polled (quiet : Bool) (o : Poll) (order : Ordering) : Exit × Bool :=
  if o.listed then pollExit order o.complete quiet o.rows else (.returned true, quiet)

def Poll.TablesFinalised (quiet : Bool) (o : Poll) (order : Ordering) : Prop :=
  (o.listed = true → RowsFinalised order quiet o.rows) ∧ SettleFinalised order o.first (o.polled quiet order)

theorem keeps_pollTables (quiet : Bool) (o : Poll) (order : Ordering) :
    Keeps [Member.stmt2] (pollTables quiet o order) (settleExit order o.first (o.polled quiet order))
      (o.TablesFinalised quiet order) := by
  have hrows := (balanced_pollRows order o.complete quiet o.rows).keeps.heldScope
    (List.not_mem_nil (a := Member.stmt2)) (fun polled => polled.1.throws) o.listed (.returned true, quiet)
  have hmembers : (Member.stmt2 :: if o.listed then [] else []) = [Member.stmt2] := by simp
  rw [hmembers] at hrows
  exact hrows.bind (balanced_settle order o.first (o.polled quiet order))

/-- The members that the poll prepares into. -/
def Poll.members (o : Poll) : List Member :=
  .stmt1 :: if o.version then
      if o.changed then .stmt3 :: if o.counted then if o.order.isSome then [.stmt2] else [] else []
      else []
    else []

def Poll.countedExit (quiet : Bool) (o : Poll) : Exit :=
  match o.order with
  | some order => settleExit order o.first (o.polled quiet order)
  | none => .returned true

def Poll.exit (quiet : Bool) (o : Poll) : Exit :=
  if o.version then if o.changed then if o.counted then o.countedExit quiet else .returned true
    else .returned false
  else .returned false

def Poll.Finalised (quiet : Bool) (o : Poll) : Prop :=
  o.version = true → o.changed = true → o.counted = true →
    ∀ order, o.order = some order → o.TablesFinalised quiet order

theorem keeps_newTableCreation (quiet : Bool) (o : Poll) :
    Keeps o.members (newTableCreation quiet o) (o.exit quiet) (o.Finalised quiet) := by
  have hcounted : Keeps (if o.order.isSome then [Member.stmt2] else [])
      (match o.order with
        | some order => pollTables quiet o order
        | none => pure (.returned true))
      (o.countedExit quiet) (∀ order, o.order = some order → o.TablesFinalised quiet order) := by
    unfold Poll.countedExit
    cases o.order with
    | none => exact (balanced_pure _).keeps.congr (by simp)
    | some order => exact (keeps_pollTables quiet o order).congr (by simp)
  have hstmt3 : Member.stmt3 ∉ if o.order.isSome then [Member.stmt2] else [] := by
    cases o.order <;> simp
  have hchanged := (hcounted.heldScope hstmt3 Exit.throws o.counted (.returned true)).guarded o.changed
    (.returned false)
  have hstmt1 : Member.stmt1 ∉ if o.changed then
      Member.stmt3 :: (if o.counted then if o.order.isSome then [Member.stmt2] else [] else []) else [] := by
    cases o.changed <;> cases o.counted <;> cases o.order <;> simp
  exact hchanged.heldScope hstmt1 Exit.throws o.version (.returned false)

end PollResults

section CallResults

def Opening.Finalised (quiet : Bool) (o : Opening) : Prop :=
  o.opened = true → o.created = true → o.list.Finalised quiet

def Opening.exit (quiet : Bool) (o : Opening) : Exit :=
  if o.opened && o.created then
    if o.list.exit quiet = .returned false then
      if o.foreignKeys then .returned (!o.prepared || !o.answered) else .returned true
    else o.list.exit quiet
  else .returned true

theorem balanced_loadOpened (quiet : Bool) (o : Opening) :
    Balanced (guarded (o.opened && o.created) (.returned true) (loadOpened quiet o)) (o.exit quiet)
      (o.Finalised quiet) := by
  have hversion := (balanced_execute o.prepared (!o.answered)).guarded o.foreignKeys (.returned true)
  have hload : Balanced (loadOpened quiet o) _ _ :=
    (balanced_getTableListFromDb quiet o.list).bind (balanced_andThen hversion (o.list.exit quiet))
  exact (hload.guarded (o.opened && o.created) (.returned true)).congr (by simp [Opening.Finalised])

theorem balanced_perform (prepared stepped : Bool) : Balanced (perform prepared stepped) () True := by
  have h : Balanced (perform prepared stepped) () _ :=
    (balanced_execute prepared (!stepped)).bind (balanced_pure ())
  exact h.congr (by simp)

theorem balanced_createIndex (o : Indexing) :
    Balanced (createIndex o) () (o.begun = true → o.existence ≠ .thrown) := by
  have hindex := (balanced_perform o.prepared o.stepped).guarded
    (o.existence.exit true = .returned false && !o.found && o.quiet) ()
  have h : Balanced (createIndex o) () _ := ((balanced_reading o.existence true).bind hindex).guarded o.begun ()
  exact h.congr (by simp)

theorem balanced_setTableProperties (o : PropertiesChange) : Balanced (setTableProperties o) () True := by
  have hchange := (balanced_perform o.prepared o.stepped).guarded
    (Exit.returned (!o.existencePrepared || !o.existenceRead) = .returned false && o.quiet && !o.isLog) ()
  have h : Balanced (setTableProperties o) () _ :=
    ((balanced_execute o.existencePrepared (!o.existenceRead)).bind hchange).guarded o.begun ()
  exact h.congr (by simp)

theorem balanced_applyForeignKey (o : KeyChange) :
    Balanced (applyForeignKey o) () (o.logOnly = true ∨ o.begun = true → o.sql ≠ .thrown) := by
  have hchange := (balanced_perform o.prepared o.stepped).guarded
    (o.sql.exit true = .returned false && o.rewritten && !o.logOnly) ()
  have h : Balanced (applyForeignKey o) () _ :=
    ((balanced_reading o.sql true).bind hchange).guarded (o.logOnly || o.begun) ()
  exact h.congr (by simp)

theorem balanced_getFieldHeader (prepared : Bool) : Balanced (getFieldHeader prepared) () (prepared = false) := by
  have h : Balanced (getFieldHeader prepared) () _ := (balanced_unfinalised prepared false).bind (balanced_pure ())
  exact h.congr (by simp)

end CallResults

end DbHandler.SqliteStatements
