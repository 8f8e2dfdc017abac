import Mathlib.Tactic.NormNum
import DbHandler.Foundation.Encoding
import DbHandler.Foundation.Growth
import DbHandler.Interface

namespace DbHandler.TableData

open Foundation.Encoding (Bytes)
open Foundation.Growth

/-- `type`, which `INTEGER_TYPE` and the other numbers stand for. -/
inductive FieldType
  | integer
  | double
  | wstring
  | blob
  | string
  deriving DecidableEq, Repr

/-- `ValuueType`, by the member that was written last; a double is its bits, a blob its address. -/
inductive Member
  | blobValue (address : BitVec 64)
  | intValue (n : BitVec 32)
  | doubleValue (bits : BitVec 64)
  | strValue (s : Bytes)
  | stringValue (t : Text)
  | longvalue (n : BitVec 64)
  deriving DecidableEq, Repr

/-- `DataEditFiield` -/
structure DataEditField where
  type : FieldType
  precision : BitVec 32
  size : BitVec 64
  value : Member
  deriving DecidableEq, Repr

namespace DataEditField

/-- A call of a constructor. That for `long long int` leaves the size and the precision as they are in memory. -/
inductive Construction
  | int (myvalue : BitVec 32)
  | double (myvalue : BitVec 64) (size : BitVec 64) (precision : BitVec 32)
  | wstring (myvalue : Text)
  | blob (myvalue : BitVec 64) (size : BitVec 32)
  | string (myvalue : Bytes)
  | long (myvalue : BitVec 64) (size : BitVec 64) (precision : BitVec 32)
  deriving DecidableEq, Repr

def build : Construction → DataEditField
  | .int myvalue => ⟨.integer, 0, 0, .intValue myvalue⟩
  | .double myvalue size precision => ⟨.double, precision, size, .doubleValue myvalue⟩
  | .wstring myvalue => ⟨.wstring, 0, 0, .stringValue myvalue⟩
  | .blob myvalue size => ⟨.blob, 0, size.signExtend 64, .blobValue myvalue⟩
  | .string myvalue => ⟨.string, 0, 0, .strValue myvalue⟩
  | .long myvalue size precision => ⟨.integer, precision, size, .longvalue myvalue⟩

/-- The first four bytes of a `longvalue` are its low half. -/
def readInt : Member → Option (BitVec 32)
  | .intValue n => some n
  | .longvalue n => some (n.setWidth 32)
  | _ => none

def readDouble : Member → Option (BitVec 64)
  | .doubleValue bits => some bits
  | _ => none

def readString : Member → Option Text
  | .stringValue t => some t
  | _ => none

def readBlob : Member → Option (BitVec 64)
  | .blobValue address => some address
  | _ => none

def readStr : Member → Option Bytes
  | .strValue s => some s
  | _ => none

section Copy

/-! The union of the new field holds an empty wide string when the narrow one is assigned to it; what that
stores, if anything, is up to the library. -/

variable (assign : Bytes → Option Bytes)

/-- The copy constructor: the type decides which member is read. -/
def copy (field : DataEditField) : Option DataEditField :=
  (match field.type with
    | .integer => (readInt field.value).map Member.intValue
    | .double => (readDouble field.value).map Member.doubleValue
    | .wstring => (readString field.value).map Member.stringValue
    | .blob => (readBlob field.value).map Member.blobValue
    | .string => ((readStr field.value).bind assign).map Member.strValue).map fun value => { field with value }

end Copy

inductive Payload
  | integer (n : ℤ)
  | double (bits : BitVec 64)
  | wide (t : Text)
  | blob (address : BitVec 64)
  | narrow (s : Bytes)
  deriving DecidableEq, Repr

def payload : Member → Payload
  | .blobValue address => .blob address
  | .intValue n => .integer n.toInt
  | .doubleValue bits => .double bits
  | .strValue s => .narrow s
  | .stringValue t => .wide t
  | .longvalue n => .integer n.toInt

structure Same (f g : DataEditField) : Prop where
  type : g.type = f.type
  size : g.size = f.size
  precision : g.precision = f.precision
  payload : payload g.value = payload f.value

def Preserves (assign : Bytes → Option Bytes) (f : DataEditField) : Prop := ∃ g, f.copy assign = some g ∧ Same f g

/-- The values of the row after each `push_back` are those that were pushed. -/
def RowKept (assign : Bytes → Option Bytes) (grow : ℕ → ℕ) (fields : List DataEditField) : Prop :=
  ∀ pre, pre <+: fields → ∃ v, pushAll (copy assign) grow ⟨0, []⟩ pre = some v ∧ List.Forall₂ Same pre v.items

/-- What a copy can hold: of the long integers those that are integers, of the narrow strings those that the
assignment stores as they are. -/
def Copyable (assign : Bytes → Option Bytes) : Construction → Prop
  | .long myvalue _ _ => -2 ^ 31 ≤ myvalue.toInt ∧ myvalue.toInt < 2 ^ 31
  | .string myvalue => assign myvalue = some myvalue
  | _ => True

section Preservation

variable {assign : Bytes → Option Bytes} {grow : ℕ → ℕ}

theorem toInt_setWidth_iff (n : BitVec 64) : (n.setWidth 32).toInt = n.toInt ↔ -2 ^ 31 ≤ n.toInt ∧ n.toInt < 2 ^ 31 := by
  have hlow : (n.setWidth 32).toInt = n.toInt.bmod (2 ^ 32) := by
    rw [BitVec.toInt_setWidth, BitVec.toInt_eq_toNat_bmod, Int.bmod_bmod_of_dvd (by norm_num)]
  rw [hlow, Int.bmod_eq_iff (by norm_num)]
  constructor
  · rintro ⟨hleft, hright, -⟩
    norm_num at hleft hright
    omega
  · rintro ⟨hleft, hright⟩
    norm_num
    omega

def copied : Construction → DataEditField
  | .long myvalue size precision => ⟨.integer, precision, size, .intValue (myvalue.setWidth 32)⟩
  | c => build c

theorem copy_copied {c : Construction} (h : Copyable assign c) :
    (build c).copy assign = some (copied c) ∧ (copied c).copy assign = some (copied c) ∧ Same (build c) (copied c) := by
  cases c with
  | string myvalue =>
    have hassign : assign myvalue = some myvalue := h
    have hcopy : (build (.string myvalue)).copy assign = some (build (.string myvalue)) := by
      simp [copy, build, readStr, hassign]
    exact ⟨hcopy, hcopy, rfl, rfl, rfl, rfl⟩
  | long myvalue size precision =>
    exact ⟨rfl, rfl, rfl, rfl, rfl, congrArg Payload.integer ((toInt_setWidth_iff myvalue).mpr h)⟩
  | int | double | wstring | blob => exact ⟨rfl, rfl, rfl, rfl, rfl, rfl⟩

theorem preserves_iff (assign : Bytes → Option Bytes) (c : Construction) :
    Preserves assign (build c) ↔ Copyable assign c := by
  constructor
  · rintro ⟨g, hg, hsame⟩
    obtain ⟨value, hvalue, rfl⟩ := Option.map_eq_some_iff.mp hg
    cases c with
    | string myvalue =>
      obtain ⟨stored, hstored, rfl⟩ := Option.map_eq_some_iff.mp hvalue
      obtain rfl : stored = myvalue := Payload.narrow.inj hsame.payload
      exact hstored
    | long myvalue size precision =>
      obtain rfl := Option.some.inj hvalue
      exact (toInt_setWidth_iff myvalue).mp (Payload.integer.inj hsame.payload)
    | int | double | wstring | blob => trivial
  · intro h
    obtain ⟨hcopy, -, hsame⟩ := copy_copied h
    exact ⟨_, hcopy, hsame⟩

theorem rowKept_iff (assign : Bytes → Option Bytes) (grow : ℕ → ℕ) (cs : List Construction) :
    RowKept assign grow (cs.map build) ↔ ∀ c ∈ cs, Copyable assign c := by
  constructor
  · intro hkept c hc
    obtain ⟨before, after, rfl⟩ := List.append_of_mem hc
    have hpre : before.map build ++ [build c] <+: (before ++ c :: after).map build := by
      rw [List.map_append, List.map_cons]
      exact ⟨after.map build, by simp⟩
    obtain ⟨v, hv, hsame⟩ := hkept _ hpre
    obtain ⟨g, hg, hlast⟩ := pushAll_last hv
    obtain ⟨items, hitems⟩ : ∃ items, v.items = items ++ [g] := List.getLast?_eq_some_iff.mp hlast
    rw [hitems, ← List.forall₂_reverse_iff, List.reverse_append, List.reverse_append] at hsame
    rw [← preserves_iff]
    exact ⟨g, hg, (List.forall₂_cons.mp hsame).1⟩
  · intro hcopyable pre hpre
    have hpre' : pre = (cs.take pre.length).map build := by
      rw [List.map_take]
      exact List.prefix_iff_eq_take.mp hpre
    have honce : ∀ x ∈ pre, ∃ y, copy assign x = some y ∧ copy assign y = some y ∧ Same x y := by
      intro x hx
      rw [hpre'] at hx
      obtain ⟨c, hc, rfl⟩ := List.mem_map.mp hx
      exact ⟨copied c, copy_copied (hcopyable c (List.mem_of_mem_take hc))⟩
    obtain ⟨v, ys, hv, hitems, hsame⟩ : ∃ v ys, pushAll (copy assign) grow ⟨0, []⟩ pre = some v ∧ v.items = [] ++ ys ∧
        List.Forall₂ Same pre ys := pushAll_of_stable (by simp) honce
    rw [List.nil_append] at hitems
    exact ⟨v, hv, hitems ▸ hsame⟩

theorem copies_keep_values_iff (assign : Bytes → Option Bytes) :
    (∀ c, Preserves assign (build c) ↔ Copyable assign c) ∧
      ∀ (grow : ℕ → ℕ) (cs : List Construction), RowKept assign grow (cs.map build) ↔ ∀ c ∈ cs, Copyable assign c :=
  ⟨preserves_iff assign, rowKept_iff assign⟩

/-- A long integer beyond the range of an integer comes out as another number. -/
theorem copied_long_is_truncated :
    ((build (.long (BitVec.ofNat 64 (2 ^ 32)) 0 0)).copy some).map (payload ·.value) = some (.integer 0) ∧
      ¬ Preserves some (build (.long (BitVec.ofNat 64 (2 ^ 32)) 0 0)) := by
  have hcopy : ((build (.long (BitVec.ofNat 64 (2 ^ 32)) 0 0)).copy some).map (payload ·.value) = some (.integer 0) := by
    decide
  refine ⟨hcopy, ?_⟩
  rintro ⟨g, hg, hsame⟩
  rw [hg, Option.map_some, hsame.payload] at hcopy
  exact absurd hcopy (by decide)

end Preservation

end DataEditField

end DbHandler.TableData
