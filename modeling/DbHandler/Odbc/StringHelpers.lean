import Mathlib.Algebra.Group.Nat.Defs
import DbHandler.Foundation.Cursors
import DbHandler.Odbc.NameBuffers

namespace DbHandler.Odbc.StringHelpers

open Foundation.Cursors Foundation.Separators Connections Connections.ODBC

/-- `std::wstring`; a `SQLWCHAR` keeps the lower half of a `wchar_t`. -/
abbrev WString := List UInt32

/-- `dest` is the memory that the pointer begins; `none` once it is read or written outside. -/
def ucToStrCpy (dest : List UInt16) (src : WString) : Option (List UInt16) := do
  let dest ← seek 0 [] dest
  let dest ← copy 0 UInt32.toUInt16 (src ++ [0]) dest
  let dest ← dest.put 0
  (dest.store 0).map MemoryCursor.memory

/-- `none` for `src` is the null pointer. -/
def strToUcCpy (dest : WString) (src : Option (List UInt16)) : Option WString :=
  match src with
  | none => some dest
  | some src => read 0 UInt16.toUInt32 dest src

def copyUcToUc (dest src : List UInt16) : Option (List UInt16) := do
  let dest ← seek 0 [] dest
  let dest ← copy 0 id src dest
  (dest.store 0).map MemoryCursor.memory

def getSQLStringSize (str : List UInt16) : Option ℕ := count 0 1 str

/-- Characters of the basic plane, without NUL. -/
structure BmpString where
  chars : WString
  bmp : ∀ c ∈ chars, c ≠ 0 ∧ c.toNat < 2 ^ 16

structure TerminatedBuffer where
  memory : List UInt16
  terminated : 0 ∈ memory

inductive Append
  | ucToStrCpy (src : BmpString)
  | copyUcToUc (src : TerminatedBuffer)

namespace Append

def text : Append → WString
  | ucToStrCpy src => src.chars
  | copyUcToUc src => (sqlString src.memory).map UInt16.toUInt32

def apply (dest : List UInt16) : Append → Option (List UInt16)
  | ucToStrCpy src => StringHelpers.ucToStrCpy dest src.chars
  | copyUcToUc src => StringHelpers.copyUcToUc dest src.memory

def applyAll (dest : List UInt16) (appends : List Append) : Option (List UInt16) :=
  appends.foldlM (fun dest append => append.apply dest) dest

end Append

def narrow (text : WString) : List UInt16 := text.map UInt32.toUInt16

section Writing

variable {m src : List UInt16}

/-- What is put from the terminator on is written at the end of the text. -/
theorem seek_putAll (m : List UInt16) {xs : List UInt16} (hxs : xs ≠ []) :
    ((seek 0 [] m).bind fun c => (c.putAll xs).map MemoryCursor.memory) = writeAtEnd m xs := by
  have hpos := List.length_pos_iff.mpr hxs
  by_cases hzero : 0 ∈ m
  · have hrest : m = sqlString m ++ 0 :: after 0 m := (before_append_after hzero).symm
    have htext : 0 ∉ sqlString m := not_mem_before 0 m
    generalize sqlString m = text, after 0 m = rest at hrest htext
    subst hrest
    have hstring : sqlString (text ++ 0 :: rest) = text := before_append htext
    rw [seek_terminated htext, List.append_nil, Option.bind_some, MemoryCursor.putAll_eq, writeAtEnd, hstring]
    by_cases hroom : xs.length ≤ (0 :: rest).length
    · rw [if_pos hroom, if_pos (by rw [List.length_append]; omega), List.take_left, ← List.drop_drop, List.drop_left]
      simp only [Option.map_some, MemoryCursor.memory, List.reverse_append, List.reverse_reverse, List.append_assoc]
    · rw [if_neg hroom, if_neg (by rw [List.length_append]; omega)]
      rfl
  · have htext : sqlString m = m := before_of_not_mem hzero
    rw [seek_unterminated hzero, writeAtEnd, htext, if_neg (by omega)]
    rfl

theorem copyUcToUc_eq (dest : List UInt16) (hsrc : 0 ∈ src) :
    copyUcToUc dest src = writeAtEnd dest (sqlString src ++ [0]) := by
  rw [← seek_putAll dest (by simp), copyUcToUc]
  congr 1
  funext c
  rw [← MemoryCursor.putAll_store_memory, copy_of_mem hsrc, List.map_id]
  rfl

theorem ucToStrCpy_eq (dest : List UInt16) (src : WString) :
    ucToStrCpy dest src = writeAtEnd dest (narrow (before 0 src) ++ [0, 0]) := by
  rw [← seek_putAll dest (by simp), ucToStrCpy]
  congr 1
  funext c
  have hend (c : MemoryCursor UInt16) :
      ((c.put 0).bind fun c => (c.store 0).map MemoryCursor.memory) = (c.putAll [0, 0]).map MemoryCursor.memory := by
    rw [← MemoryCursor.putAll_singleton, MemoryCursor.putAll_store_memory]
    rfl
  rw [copy_of_mem (by simp), before_append_stop, MemoryCursor.putAll_append, Option.map_bind]
  exact congrArg (Option.bind _) (funext hend)

/-- The earlier model of the helper, for texts, writes what the loops write. -/
theorem ucToStrCpy_text (dest : List UInt16) (src : Text) :
    ucToStrCpy dest (src.map Char.val) = Connections.ODBC.ucToStrCpy dest src := by
  have hnul : (fun x : UInt32 => decide (x ≠ 0)) ∘ Char.val = fun c => decide (c ≠ Char.ofNat 0) := by
    funext c
    exact decide_eq_decide.mpr (not_congr (Char.ext_iff (c := c) (d := Char.ofNat 0)).symm)
  have hunit : UInt32.toUInt16 ∘ Char.val = unit := by
    funext c
    apply UInt16.toNat_inj.mp
    simp [unit]
  have hunits : narrow (before 0 (src.map Char.val)) = units (upToNul src) := by
    rw [before, List.takeWhile_map, hnul, narrow, List.map_map, hunit]
    rfl
  rw [ucToStrCpy_eq, hunits, Connections.ODBC.ucToStrCpy]

theorem copyUcToUc_text (dest : List UInt16) (hsrc : 0 ∈ src) :
    copyUcToUc dest src = Connections.ODBC.copyUcToUc dest src := copyUcToUc_eq dest hsrc

end Writing

section Reading

theorem narrow_append (a b : WString) : narrow (a ++ b) = narrow a ++ narrow b := List.map_append

theorem widen_narrow {text : WString} (h : ∀ c ∈ text, c ≠ 0 ∧ c.toNat < 2 ^ 16) :
    (narrow text).map UInt16.toUInt32 = text := by
  rw [narrow, List.map_map, List.map_congr_left (g := id), List.map_id]
  intro c hc
  apply UInt32.toNat_inj.mp
  simpa using (h c hc).2

theorem zero_not_mem_narrow {text : WString} (h : ∀ c ∈ text, c ≠ 0 ∧ c.toNat < 2 ^ 16) : 0 ∉ narrow text := by
  intro hmem
  obtain ⟨c, hc, hnarrow⟩ := List.mem_map.mp hmem
  apply (h c hc).1
  apply UInt32.toNat_inj.mp
  have hnat := congrArg UInt16.toNat hnarrow
  rw [UInt32.toNat_toUInt16, Nat.mod_eq_of_lt (h c hc).2] at hnat
  exact hnat

end Reading

section Appends

variable {m : List UInt16} {text : WString}

theorem Append.text_bmp (append : Append) : ∀ c ∈ append.text, c ≠ 0 ∧ c.toNat < 2 ^ 16 := by
  cases append with
  | ucToStrCpy src => exact src.bmp
  | copyUcToUc src =>
    intro c hc
    obtain ⟨u, hu, rfl⟩ := List.mem_map.mp hc
    refine ⟨fun hzero => ?_, by simpa using u.toNat_lt⟩
    obtain rfl : u = 0 := UInt16.toNat_inj.mp (by simpa using congrArg UInt32.toNat hzero)
    exact not_mem_before 0 src.memory hu

/-- An append that finds its text and two more units of room behind the text of the buffer. -/
theorem Append.apply_next (append : Append) (htext : sqlString m = narrow text)
    (hroom : text.length + append.text.length + 2 ≤ m.length) :
    ∃ next, append.apply m = some next ∧ next.length = m.length ∧ 0 ∈ next ∧
      sqlString next = narrow (text ++ append.text) := by
  have hlength : (sqlString m).length = text.length := by rw [htext, narrow, List.length_map]
  cases append with
  | ucToStrCpy src =>
    have hsrc : before 0 src.chars = src.chars := before_of_not_mem fun hmem => (src.bmp 0 hmem).1 rfl
    have hunits : sqlString (narrow src.chars) = narrow src.chars := before_of_not_mem (zero_not_mem_narrow src.bmp)
    have hfit : (sqlString m).length + (narrow src.chars).length + 2 ≤ m.length := by
      rw [hlength, narrow, List.length_map]
      exact hroom
    obtain ⟨next, hnext, hsame, hend, hstring⟩ := NameBuffers.exists_writeAtEnd (narrow src.chars) [0] hfit
    refine ⟨next, ?_, hsame, hend, ?_⟩
    · rw [apply, StringHelpers.ucToStrCpy_eq, hsrc, hnext]
    · rw [hstring, htext, hunits, narrow_append, Append.text]
  | copyUcToUc src =>
    have hunits : narrow ((sqlString src.memory).map UInt16.toUInt32) = sqlString src.memory := by
      have hsame : UInt32.toUInt16 ∘ UInt16.toUInt32 = id := funext UInt16.toUInt16_toUInt32
      rw [narrow, List.map_map, hsame, List.map_id]
    have hsrc : sqlString (sqlString src.memory) = sqlString src.memory := before_of_not_mem (not_mem_before 0 _)
    have hfit : (sqlString m).length + (sqlString src.memory).length + 1 ≤ m.length := by
      rw [Append.text, List.length_map] at hroom
      omega
    obtain ⟨next, hnext, hsame, hend, hstring⟩ := NameBuffers.exists_writeAtEnd (sqlString src.memory) [] hfit
    refine ⟨next, ?_, hsame, hend, ?_⟩
    · rw [apply, StringHelpers.copyUcToUc_eq m src.terminated, hnext]
    · rw [hstring, htext, hsrc, narrow_append, Append.text, hunits]

theorem applyAll_next {appends : List Append} (hzero : 0 ∈ m) (htext : sqlString m = narrow text)
    (hroom : text.length + (appends.flatMap Append.text).length + 2 ≤ m.length) :
    ∃ filled, Append.applyAll m appends = some filled ∧ filled.length = m.length ∧ 0 ∈ filled ∧
      sqlString filled = narrow (text ++ appends.flatMap Append.text) := by
  induction appends generalizing m text with
  | nil => exact ⟨m, rfl, rfl, hzero, by rw [List.flatMap_nil, List.append_nil, htext]⟩
  | cons append appends ih =>
    rw [List.flatMap_cons, List.length_append] at hroom
    obtain ⟨next, happly, hsame, hnext, hstring⟩ := append.apply_next htext (by omega)
    obtain ⟨filled, hfilled, hlength, hend, hall⟩ := ih hnext hstring (by
      rw [List.length_append, hsame]
      omega)
    refine ⟨filled, ?_, hlength.trans hsame, hend, ?_⟩
    · rw [Append.applyAll, List.foldlM_cons, happly]
      exact hfilled
    · rw [hall, List.flatMap_cons, List.append_assoc]

/-- Appended texts stand in the buffer one behind the other, and are read back and measured as they are. -/
theorem appends_read_back (dest : List UInt16) (appends : List Append) (hempty : dest.head? = some 0)
    (hroom : (appends.flatMap Append.text).length + 2 ≤ dest.length) :
    ∃ filled rest, Append.applyAll dest appends = some filled ∧ filled.length = dest.length ∧
      filled = narrow (appends.flatMap Append.text) ++ 0 :: rest ∧
      strToUcCpy [] (some filled) = some (appends.flatMap Append.text) ∧
      getSQLStringSize filled = some ((appends.flatMap Append.text).length + 1) := by
  obtain ⟨rest, rfl⟩ : ∃ rest, dest = 0 :: rest := by
    cases dest with
    | nil => cases hempty
    | cons u rest => exact ⟨rest, by rw [Option.some.inj hempty]⟩
  have hbmp : ∀ c ∈ appends.flatMap Append.text, c ≠ 0 ∧ c.toNat < 2 ^ 16 := by
    intro c hc
    obtain ⟨append, -, hc⟩ := List.mem_flatMap.mp hc
    exact append.text_bmp c hc
  have hnul := zero_not_mem_narrow hbmp
  obtain ⟨filled, happly, hlength, hzero, hstring⟩ :=
    applyAll_next List.mem_cons_self (rfl : sqlString (0 :: rest) = narrow []) (by rwa [List.length_nil, Nat.zero_add])
  have hfilled : filled = narrow (appends.flatMap Append.text) ++ 0 :: after 0 filled := by
    rw [← List.nil_append (appends.flatMap Append.text), ← hstring]
    exact (before_append_after hzero).symm
  refine ⟨filled, after 0 filled, happly, hlength, hfilled, ?_, ?_⟩
  · rw [hfilled, strToUcCpy, read_terminated hnul, List.nil_append, widen_narrow hbmp]
  · rw [hfilled, getSQLStringSize, count_terminated hnul, narrow, List.length_map, Nat.add_comm]

def dsnAppends : List Append := [.ucToStrCpy ⟨[68, 61], by simp⟩, .copyUcToUc ⟨[97, 0, 9], by simp⟩]

theorem dsn_read_back : ∃ filled rest, Append.applyAll [0, 5, 5, 5, 5, 5] dsnAppends = some filled ∧
    filled.length = 6 ∧ filled = [68, 61, 97] ++ 0 :: rest ∧ strToUcCpy [] (some filled) = some [68, 61, 97] ∧
    getSQLStringSize filled = some 4 := by
  have htext : dsnAppends.flatMap Append.text = [68, 61, 97] := by decide
  have hread := appends_read_back [0, 5, 5, 5, 5, 5] dsnAppends rfl (by decide)
  rw [htext] at hread
  exact hread

end Appends

end DbHandler.Odbc.StringHelpers
