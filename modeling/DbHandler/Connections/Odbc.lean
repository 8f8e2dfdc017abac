import DbHandler.Connections.Wizard
import DbHandler.Foundation.Attributes

namespace DbHandler.Connections.ODBC

open Foundation.Attributes Foundation.Separators

/-- A `wchar_t` that is stored in a `SQLWCHAR`. -/
def unit (c : Char) : UInt16 := UInt16.ofNat c.toNat

def units (t : Text) : List UInt16 := t.map unit

def sqlString (memory : List UInt16) : List UInt16 := memory.takeWhile (· ≠ 0)

/-- Writes at the first NUL of a buffer; `none` where that reaches behind its end. -/
def writeAtEnd (memory source : List UInt16) : Option (List UInt16) :=
  let place := (sqlString memory).length
  if place + source.length ≤ memory.length then
    some (memory.take place ++ (source ++ memory.drop (place + source.length)))
  else none

/-- `uc_to_str_cpy`. -/
def ucToStrCpy (dest : List UInt16) (src : Text) : Option (List UInt16) :=
  writeAtEnd dest (units (upToNul src) ++ [0, 0])

/-- `copy_uc_to_uc`. -/
def copyUcToUc (dest src : List UInt16) : Option (List UInt16) := writeAtEnd dest (sqlString src ++ [0])

def cleared (size : ℕ) : List UInt16 := List.replicate size 0

def credential (value : Text) : List UInt16 := units (upToNul value) ++ [0, 0]

/-- What `ConnectToDb` makes of the data source and the entered credentials. -/
def loaderString (name user password : Text) : Text := name ++ ';' :: (user ++ ';' :: password)

def splitDsn (selectedDSN : Text) : Text × Option (Text × Text) :=
  if ';' ∈ selectedDSN then
    let temp := after ';' selectedDSN
    (before ';' selectedDSN, some (before ';' temp, after ';' temp))
  else (selectedDSN, none)

def postgresOptions : Text := ";UseServerSidePrepare=1;ShowSystemTables=1;".toList

/-- `equal( temp, driver )` for the description of the driver. -/
def isPostgres (driver : List UInt16) : Bool := (units "PostgreSQL ".toList).isPrefixOf (sqlString driver)

/-- `connectStrIn`, of `sizeof( SQLWCHAR ) * 255` characters, when it is passed to `SQLDriverConnect`. -/
def connectStrIn (driver : List UInt16) (selectedDSN : Text) : Option (List UInt16) := do
  let (connectingDSN, credentials) := splitDsn selectedDSN
  let _ ← ucToStrCpy (cleared 1024) connectingDSN
  let m ← ucToStrCpy (cleared (2 * 255)) "DSN=".toList
  let m ← ucToStrCpy m connectingDSN
  let m ← (if isPostgres driver then ucToStrCpy m postgresOptions else some m)
  match credentials with
  | none => some m
  | some (user, password) => do
    let m ← ucToStrCpy m ";UID=".toList
    let m ← copyUcToUc m (credential user)
    let m ← ucToStrCpy m ";PWD=".toList
    copyUcToUc m (credential password)

end DbHandler.Connections.ODBC
