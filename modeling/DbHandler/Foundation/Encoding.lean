import Mathlib.Algebra.Group.Nat.Defs
import Mathlib.Data.List.Basic

namespace Foundation.Encoding

abbrev Bytes := List UInt8

def utf8 (t : List Char) : Bytes := t.flatMap String.utf8EncodeChar

theorem utf8_injective : Function.Injective utf8 := by
  intro a b h
  have hbytes : a.utf8Encode = b.utf8Encode := congrArg List.toByteArray h
  refine String.ofList_injective (String.toByteArray_inj.mp ?_)
  rw [String.toByteArray_ofList, String.toByteArray_ofList, hbytes]

/-- The memory of a `wchar_t` string: four bytes a character, the lowest first. -/
def wide (t : List Char) : Bytes :=
  t.flatMap fun c => [c.toNat, c.toNat / 2 ^ 8, c.toNat / 2 ^ 16, c.toNat / 2 ^ 24].map UInt8.ofNat

/-- What a function that expects a `char *` reads. -/
def cString (memory : Bytes) : Bytes := memory.takeWhile (· ≠ 0)

/-- As many bytes of a name as it has characters. -/
def cut (t : List Char) : Bytes := (utf8 t).take t.length

def Ascii (t : List Char) : Prop := ∀ c ∈ t, c.toNat < 128

instance (t : List Char) : Decidable (Ascii t) := List.decidableBAll (fun c : Char => c.toNat < 128) t

theorem utf8EncodeChar_ascii {c : Char} (h : c.toNat < 128) : String.utf8EncodeChar c = [UInt8.ofNat c.toNat] := by
  have hle : c.toNat ≤ 127 := by omega
  simp [String.utf8EncodeChar, hle]

theorem utf8_length_of_ascii {t : List Char} (h : Ascii t) : (utf8 t).length = t.length := by
  induction t with
  | nil => rfl
  | cons c t ih =>
    have hc := utf8EncodeChar_ascii (h c (by simp))
    have ht := ih fun d hd => h d (List.mem_cons_of_mem _ hd)
    rw [utf8, List.flatMap_cons, hc, List.length_append, List.length_singleton, List.length_cons]
    change 1 + (utf8 t).length = t.length + 1
    omega

theorem ascii_nil : Ascii [] := fun _ h => absurd h List.not_mem_nil

theorem ascii_cons {c : Char} {t : List Char} : Ascii (c :: t) ↔ c.toNat < 128 ∧ Ascii t := List.forall_mem_cons

theorem ascii_append {t u : List Char} : Ascii (t ++ u) ↔ Ascii t ∧ Ascii u := List.forall_mem_append

theorem ascii_flatMap {α : Type*} {f : α → List Char} {as : List α} : Ascii (as.flatMap f) ↔ ∀ a ∈ as, Ascii (f a) := by
  induction as with
  | nil => simp [ascii_nil]
  | cons a as ih => rw [List.flatMap_cons, ascii_append, ih, List.forall_mem_cons]

/-- No character is shorter than a byte, and only the ASCII ones are not longer. -/
theorem utf8_length (t : List Char) : t.length ≤ (utf8 t).length ∧ ((utf8 t).length = t.length ↔ Ascii t) := by
  induction t with
  | nil => exact ⟨Nat.le_refl _, iff_of_true rfl ascii_nil⟩
  | cons c t ih =>
    have hcons : (utf8 (c :: t)).length = c.utf8Size + (utf8 t).length := by
      rw [utf8, List.flatMap_cons, List.length_append, String.length_utf8EncodeChar]
      rfl
    have hpos := c.utf8Size_pos
    have hone : c.utf8Size = 1 ↔ c.toNat < 128 := by
      rw [Char.utf8Size_eq_one_iff, UInt32.le_iff_toNat_le]
      exact Nat.lt_succ_iff.symm
    rw [hcons, ascii_cons, List.length_cons, ← ih.2, ← hone]
    have hle := ih.1
    constructor
    · omega
    · constructor <;> intro h <;> omega

theorem cut_of_ascii {t : List Char} (h : Ascii t) : cut t = utf8 t := by
  rw [cut, ← utf8_length_of_ascii h, List.take_length]

end Foundation.Encoding
