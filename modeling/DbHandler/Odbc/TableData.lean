import Mathlib.Algebra.Group.Int.Defs
import DbHandler.Odbc.DriverManager
import DbHandler.TableData.Retrieval

namespace DbHandler.Odbc

open TableData Foundation.Encoding

/-- The cases of the switch over the type that `SQLDescribeCol` gives: `character` and `wideCharacter` stand for
three types each, `binary` for three, `datetime` for the dates and intervals, `other` for what has no case. -/
inductive SqlType
  | character
  | wideCharacter
  | decimal
  | numeric
  | smallint
  | integer
  | real
  | double
  | bit
  | tinyint
  | bigint
  | binary
  | datetime
  | other
  deriving DecidableEq, Repr

structure Column where
  type : SqlType
  size : ℕ
  deriving DecidableEq, Repr

inductive Value
  | null
  | integer (n : ℤ)
  | decimal (unscaled : ℤ) (scale : ℕ)
  | real (printed : Text)
  | characters (bytes : Bytes)
  | wide (t : Text)
  | binary (bytes : Bytes)
  deriving DecidableEq, Repr

def Value.number : Value → Option ℤ
  | .integer n => some n
  | .decimal unscaled scale => some (unscaled.tdiv (10 ^ scale))
  | _ => none

structure TableData (columns : List Column) where
  rows : List (List Value)
  last : Option Text
  fieldsInRecordSet : ℕ
  errorMsg : List Text
  fields_eq : fieldsInRecordSet = 0 ∨ fieldsInRecordSet = columns.length

/-- The locals of the call; `fieldInt` has no value before something is read into it. -/
structure RowState where
  row : List Entry
  stringCol : Bytes
  fieldInt : Option ℤ
  result : ℕ
  errorMsg : List Text

namespace RowState

def push (e : Entry) (st : RowState) : RowState := { st with row := st.row ++ [e] }

def fail (err : Text) (st : RowState) : RowState := { st with result := 1, errorMsg := st.errorMsg ++ [err] }

/-- The value of `fieldInt`; a variable that was never written has none. -/
def pushInt (st : RowState) : Option RowState := st.fieldInt.map fun n => st.push (.wide (digits n))

end RowState

/-- The bytes of a text that arrive: one byte of the buffer is for the zero at the end. -/
def delivered (size : ℕ) (bytes : Bytes) : Bytes := cString (bytes.take (size - 1))

def overwrite (bits : ℕ) (old new : ℤ) : ℤ := old / 2 ^ bits * 2 ^ bits + new % 2 ^ bits

def invalidUseOfNullPointer : Text := "Invalid use of null pointer".toList

def numericValueOutOfRange : Text := "Numeric value out of range".toList

/-- `SQLGetData` of an integer of that many bits into `fieldInt`, which has 32; a NULL writes nothing. -/
def getInteger (bits : ℕ) (v : Value) (st : RowState) : Option RowState :=
  match v.number with
  | none => st.pushInt
  | some n =>
    if -2 ^ (bits - 1) ≤ n ∧ n < 2 ^ (bits - 1) then
      ({ st with fieldInt := if bits = 32 then some n else st.fieldInt.map fun old => overwrite bits old n }).pushInt
    else some (st.fail numericValueOutOfRange)

/-- A bit arrives as one byte. -/
def getBit (v : Value) (st : RowState) : Option RowState :=
  match v.number with
  | none => st.pushInt
  | some n =>
    if n = 0 ∨ n = 1 then ({ st with fieldInt := st.fieldInt.map fun old => overwrite 8 old n }).pushInt
    else some (st.fail numericValueOutOfRange)

/-- One case of the switch, `none` where it writes beyond a variable or reads one that was never written. -/
def readColumn (c : Column) (v : Value) (st : RowState) : Option RowState :=
  match c.type with
  | .character =>
    let st := match v with
      | .characters bytes => { st with stringCol := st.stringCol ++ delivered c.size bytes }
      | _ => st
    some (st.push (.narrow st.stringCol))
  | .wideCharacter | .datetime => some (st.fail invalidUseOfNullPointer)
  | .smallint | .decimal => getInteger 16 v st
  | .integer => getInteger 32 v st
  | .tinyint => getInteger 8 v st
  | .bit => getBit v st
  | .numeric | .bigint => if v = .null then st.pushInt else none
  | .real | .double => none
  | .binary =>
    match v with
    | .binary bytes => if 8 < (bytes.take c.size).length then none else some st
    | _ => some st
  | .other => some st

def readColumns : List (Column × Value) → RowState → Option RowState
  | [], st => some st
  | (c, v) :: cells, st => (readColumn c v st).bind (readColumns cells)

def TableData.counted {columns : List Column} (s : TableData columns) : TableData columns :=
  if s.fieldsInRecordSet = 0 then { s with fieldsInRecordSet := columns.length, fields_eq := .inr rfl } else s

/-- At the end of the rows `NO_MORE_ROWS` is overwritten by 1. -/
def editTableData {columns : List Column} (row : List Entry) (s : TableData columns) :
    Option (ℕ × List Entry × TableData columns) :=
  let s := s.counted
  match s.rows, s.last with
  | values :: rest, _ =>
    (readColumns ((columns.zip values).take s.fieldsInRecordSet) ⟨row, [], none, 0, []⟩).map fun st =>
      (st.result, st.row, { s with rows := rest, errorMsg := s.errorMsg ++ st.errorMsg })
  | [], none => some (1, row, s)
  | [], some err => some (1, row, { s with errorMsg := s.errorMsg ++ [err] })

end DbHandler.Odbc
