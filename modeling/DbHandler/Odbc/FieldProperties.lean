import DbHandler.FieldProperties.Commands
import DbHandler.Odbc.Tolerance

namespace DbHandler.Odbc

open FieldCommands Foundation.Faults

variable {δ : Type}

/-- Calls one after another until one fails, whose messages are not recorded. -/
def quietRequests (m : Manager δ) : List Request → Object δ → Guarded (Bool × Object δ)
  | [], o => pure (true, o)
  | r :: rs, o => do
    let (ret, o) ← o.useStatement m r
    if ret.isOk then quietRequests m rs o else pure (false, o)

def fieldPropertiesQuery : Text :=
  "SELECT 1 FROM abcatcol WHERE abc_tnam = ? AND abc_ownr = ? AND abc_cnam = ?;".toList

/-- The statement handle is the caller's as well, and is null afterwards. -/
def isFieldPropertiesExist (m : Manager δ) (key : ColumnKey) (o : Object δ) : Guarded (Bool × Object δ) := do
  let (ret, o) := o.allocStatement m
  if ret.isOk then
    let (executed, o) ← quietRequests m [.prepare fieldPropertiesQuery, .bindParameter 1 key.tableName,
      .bindParameter 2 key.ownerName, .bindParameter 3 key.fieldName, .execute] o
    let (exist, o) ←
      if executed then do
        let (ret, o) ← o.useStatement m .fetch
        if ret.isOk then pure (true, o)
        else if ret = .noData then pure (false, o)
        else
          let o ← o.statementError m
          pure (false, o)
      else pure (false, o)
    let (_, o) ← o.freeStatement m
    pure (exist, { o with hstmt := .null })
  else pure (false, o)

def setFieldProperties (m : Manager δ) (key : ColumnKey) (props : FieldProperties) (isLogOnly : Bool) (command : Text)
    (o : Object δ) : Guarded (ℕ × Text × Object δ) := do
  let (ret, o) := o.allocStatement m
  if ret.isOk then
    let (exist, o) ← isFieldPropertiesExist m key o
    let command := fieldCommand .plain (odbcAssignments props) exist key props
    let (result, o) ←
      if isLogOnly then pure (0, o)
      else do
        let (ret, o) ← o.execDirect m (.command command)
        if ret.isOk then pure (0, o)
        else
          let o ← o.statementError m
          pure (1, o)
    let (ret, o) ← o.freeStatement m
    if ret.isOk then pure (result, command, { o with hstmt := .null })
    else
      let o ← o.statementError m
      pure (1, command, { o with hstmt := .null })
  else
    let o ← o.statementError m
    pure (1, command, o)

def sequenceError : Text := "Function sequence error".toList

/-- On a connection of its own. `SQLDescribeParam` is called before `SQLPrepare`, so that nothing is ever read. -/
def getFieldProperties (m : Manager δ) (p : FieldProperties) (o : Object δ) : ℕ × FieldProperties × Object δ :=
  let allocated := m.answer o.manager (.allocHandle .dbc)
  let o := { o with manager := allocated.2 }
  if allocated.1.isOk then
    let connected := m.answer o.manager .driverConnect
    let o := { o with manager := connected.2 }
    if connected.1.isOk then
      let answer := m.answer o.manager (.allocHandle .stmt)
      let o := { o with manager := answer.2 }
      if answer.1.isOk then (1, p, o.fail sequenceError) else (1, p, o.diagnose m)
    else (1, p, o.diagnose m)
  else (1, p, o.diagnose m)

section Tolerance

open Foundation.Tolerance Tolerant

variable (m : Manager δ)

def tolerantRequests : List Request → Tolerant δ Bool
  | [] => pure true
  | r :: rs => do
    let ret ← use m r
    if ret.isOk then tolerantRequests rs else pure false

def tolerantExist (key : ColumnKey) : Tolerant δ Bool := do
  let allocated ← alloc m
  if allocated.isOk then do
    let executed ← tolerantRequests m [.prepare fieldPropertiesQuery, .bindParameter 1 key.tableName,
      .bindParameter 2 key.ownerName, .bindParameter 3 key.fieldName, .execute]
    let exist ← (if executed then fetchRow m else pure false)
    let _ ← free m
    clear
    pure exist
  else pure false

def sendFieldCommand (isLogOnly : Bool) (command : Text) : Tolerant δ ℕ :=
  if isLogOnly then pure 0
  else do
    let sent ← exec m (.command command)
    checked m sent 0 1

def tolerantSetFieldProperties (key : ColumnKey) (props : FieldProperties) (isLogOnly : Bool) (command : Text) :
    Tolerant δ (ℕ × Text) := do
  let allocated ← alloc m
  if allocated.isOk then do
    let exist ← tolerantExist m key
    let command := fieldCommand .plain (odbcAssignments props) exist key props
    let result ← sendFieldCommand m isLogOnly command
    let freed ← free m
    let result ← checked m freed result 1
    clear
    pure (result, command)
  else do
    statementError m
    pure (1, command)

theorem firstFault_tolerantRequests (rs : List Request) (o : Object δ) :
    firstFault (tolerantRequests m rs) o = quietRequests m rs o := by
  induction rs generalizing o with
  | nil => rfl
  | cons r rs ih =>
    rw [tolerantRequests, quietRequests, firstFault_bind, use, firstFault_tolerate]
    congr 1
    funext r
    rw [firstFault_ite, ih]
    rfl

theorem firstFault_tolerantExist (key : ColumnKey) (o : Object δ) :
    firstFault (tolerantExist m key) o = isFieldPropertiesExist m key o := by
  rw [tolerantExist, isFieldPropertiesExist]
  simp only [firstFault_bind, firstFault_ite, firstFault_pure, firstFault_tolerantRequests, firstFault_alloc,
    firstFault_fetchRow, firstFault_free, firstFault_clear, ok_bind, map_bind, pure_bind, ite_bind, bind_assoc]
  rfl

theorem firstFault_sendFieldCommand (isLogOnly : Bool) (command : Text) (o : Object δ) :
    firstFault (sendFieldCommand m isLogOnly command) o =
      if isLogOnly then .ok (0, o)
      else (o.execDirect m (.command command) >>= fun r =>
        if r.1.isOk then .ok (0, r.2) else (r.2.statementError m).map fun o => (1, o)) := by
  rw [sendFieldCommand, firstFault_ite, firstFault_bind, firstFault_exec, firstFault_pure]
  simp only [firstFault_checked]

theorem firstFault_tolerantSetFieldProperties (key : ColumnKey) (props : FieldProperties) (isLogOnly : Bool)
    (command : Text) (o : Object δ) :
    firstFault (tolerantSetFieldProperties m key props isLogOnly command) o =
      (setFieldProperties m key props isLogOnly command o).map fun r => ((r.1, r.2.1), r.2.2) := by
  rw [tolerantSetFieldProperties, setFieldProperties]
  simp only [firstFault_bind, firstFault_ite, firstFault_pure, firstFault_tolerantExist, firstFault_alloc,
    firstFault_free, firstFault_sendFieldCommand, firstFault_clear, firstFault_checked, ok_bind, map_bind, pure_bind,
    firstFault_statementError, bind_map, ite_bind, bind_assoc, apply_ite (Except.map _)]
  rfl

end Tolerance

end DbHandler.Odbc
