import DbHandler.Odbc.Tolerance
import DbHandler.TableProperties.Statements

namespace DbHandler.Odbc

open Foundation.Tolerance Tolerant

variable {δ : Type} (m : Manager δ)

def tablePropertiesQuery : Text := "SELECT 1 FROM abcattbl WHERE abt_tnam = ? AND abt_ownr = ?;".toList

/-- That there is no row is no error of the execution either. -/
def fetchTest : Tolerant δ Bool := do
  let executed ← use m .execute
  if executed.isOk then fetchRow m else if executed = .noData then pure false else checked m executed true false

def testProperties (t : DatabaseTable) : Tolerant δ Bool := do
  let prepared ← requests m [.bindParameter 1 (PropertyStatements.qualifiedName t), .bindParameter 2 t.owner,
    .prepare tablePropertiesQuery]
  if prepared then fetchTest m else pure false

/-- The handle is freed, and null afterwards, whichever call failed. -/
def isTablePropertiesExist (t : DatabaseTable) : Tolerant δ Bool := do
  let allocated ← alloc m
  let result ← (if allocated.isOk then testProperties m t else checked m allocated true false)
  let freed ← free m
  checked m freed () ()
  clear
  pure result

def sendProperties (connectedUser : Text) (t : DatabaseTable) (p : TableProperties) (isLog : Bool) (command : Text) :
    Tolerant δ (ℕ × Text) := do
  let exist ← isTablePropertiesExist m t
  let o ← get
  if o.errorMsg ≠ [] then pure (1, command)
  else
    let command := PropertyStatements.Driver.odbc.command exist connectedUser t p
    if isLog then pure (0, command)
    else do
      let allocated ← alloc m
      let sent ← (if allocated.isOk then exec m (.command command) else pure allocated)
      checked m sent (0, command) (1, command)

def beginProperties (connectedUser : Text) (t : DatabaseTable) (p : TableProperties) (isLog : Bool) (command : Text) :
    Tolerant δ (ℕ × Text) := do
  let begun ← exec m .beginTransaction
  if begun.isOk then do
    let freed ← free m
    if freed.isOk then sendProperties m connectedUser t p isLog command else checked m freed (0, command) (1, command)
  else checked m begun (0, command) (1, command)

/-- The end of the transaction is executed with the handle that is there then. -/
def endTransaction (result : ℕ) : Tolerant δ ℕ := do
  let ended ← exec m (if result = 1 then .rollback else .commit)
  let result ← checked m ended result 1
  let freed ← free m
  if freed.isOk then do
    clear
    pure result
  else checked m freed result 1

def unallocated (command : Text) : Tolerant δ (ℕ × Text) := do
  connectionError m
  pure (1, command)

def setTableProperties (connectedUser : Text) (t : DatabaseTable) (p : TableProperties) (isLog : Bool) (command : Text) :
    Tolerant δ (ℕ × Text) := do
  let allocated ← alloc m
  let r ← (if allocated.isOk then beginProperties m connectedUser t p isLog command else unallocated m command)
  let result ← endTransaction m r.1
  pure (result, r.2)

end DbHandler.Odbc
