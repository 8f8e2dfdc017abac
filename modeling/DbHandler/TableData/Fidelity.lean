import Mathlib
import DbHandler.Odbc.TableData
import DbHandler.Sqlite.TableData

namespace DbHandler.TableData

open Foundation.Encoding

theorem digits_injective {m n : ℤ} (h : digits m = digits n) : m = n := by
  rw [digits, digits, String.toList_inj, Int.toString_eq_repr, Int.toString_eq_repr] at h
  exact Int.repr_inj.mp h

section Sqlite

open Sqlite

/-- There is no entry for NULL; an empty text is taken for one. -/
def SqliteRepresents : Value → Entry → Prop
  | .null, e => e = .wide []
  | .integer n, e => e = .wide (digits n)
  | .real printed, e => e = .wide printed
  | .text t, e => e = .wide t
  | .blob bytes, e => e = .blob bytes

def SqliteShown : Value → Prop
  | .null => False
  | .text t => nul ∉ t
  | _ => True

structure SqliteResult where
  columns : ℕ
  rows : List (List Value)
  last : Option Text
  width : ∀ row ∈ rows, row.length = columns

def SqliteResult.data (r : SqliteResult) (errorMsg : List Text) : Sqlite.TableData r.columns :=
  ⟨⟨r.rows, r.last⟩, 0, errorMsg, .inl rfl⟩

def sqliteCall {columns : ℕ} (s : Sqlite.TableData columns) : Option (ℕ × List Entry × Sqlite.TableData columns) :=
  some (Sqlite.editTableData [] s)

def sqliteRead (columns : ℕ) (row : List Value) : ℕ × List Entry :=
  (0, (List.range columns).flatMap fun i => columnEntries (column row i))

def sqliteFinish : Option Text → ℕ
  | none => noMoreRows
  | some _ => 1

theorem sqlite_counted {columns : ℕ} (s : Sqlite.TableData columns) :
    s.counted.cursor = s.cursor ∧ s.counted.fieldsInRecordSet = columns := by
  rw [Sqlite.TableData.counted]
  split_ifs with h
  · exact ⟨rfl, rfl⟩
  · exact ⟨rfl, s.fields_eq.resolve_left h⟩

theorem sqlite_reads (columns : ℕ) :
    Reads sqliteCall (fun s : Sqlite.TableData columns => s.cursor.rows) (fun s => s.cursor.last)
      (fun row => some (sqliteRead columns row)) sqliteFinish where
  row s values rest hrows := by
    obtain ⟨hcursor, hfields⟩ := sqlite_counted s
    refine ⟨{ s.counted with cursor := ⟨rest, s.cursor.last⟩ }, rfl, rfl, ?_⟩
    simp only [sqliteCall, Sqlite.editTableData, hcursor, hrows, hfields, sqliteRead, List.nil_append, Option.map_some]
  ends s hrows := by
    obtain ⟨hcursor, -⟩ := sqlite_counted s
    cases hlast : s.cursor.last with
    | none =>
      simp only [sqliteCall, Sqlite.editTableData, hcursor, hrows, hlast]
      exact ⟨_, _, rfl⟩
    | some err =>
      simp only [sqliteCall, Sqlite.editTableData, hcursor, hrows, hlast]
      exact ⟨_, _, rfl⟩
  ends_ne_zero l := by cases l <;> simp [sqliteFinish, noMoreRows]

theorem columnEntries_represents (v : Value) :
    (∃ e, columnEntries v = [e] ∧ SqliteRepresents v e) ↔ SqliteShown v := by
  cases v with
  | null => simp [columnEntries, SqliteShown]
  | integer n => simp [columnEntries, SqliteShown, SqliteRepresents]
  | real printed => simp [columnEntries, SqliteShown, SqliteRepresents]
  | text t =>
    simp only [columnEntries, List.cons.injEq, and_true, SqliteRepresents, exists_eq_left', Entry.wide.injEq, SqliteShown,
      List.takeWhile_eq_self_iff, decide_eq_true_eq]
    exact ⟨fun h hmem => h nul hmem rfl, fun h c hc heq => h (heq ▸ hc)⟩
  | blob bytes => simp [columnEntries, SqliteShown, SqliteRepresents]

theorem columnEntries_length_le (v : Value) : (columnEntries v).length ≤ 1 := by cases v <;> simp [columnEntries]

theorem flatMap_columnEntries (values : List Value) :
    List.Forall₂ SqliteRepresents values (values.flatMap columnEntries) ↔ ∀ v ∈ values, SqliteShown v := by
  have hlength (values : List Value) : (values.flatMap columnEntries).length ≤ values.length := by
    induction values with
    | nil => simp
    | cons v values ih =>
      have hv := columnEntries_length_le v
      simp only [List.flatMap_cons, List.length_append, List.length_cons]
      omega
  induction values with
  | nil => simp
  | cons v values ih =>
    rw [List.forall_mem_cons, List.flatMap_cons]
    refine Iff.trans ?_ (and_congr (columnEntries_represents v) ih)
    constructor
    · intro hall
      have htotal := hall.length_eq
      simp only [List.length_append, List.length_cons] at htotal
      have hrest := hlength values
      have hv := columnEntries_length_le v
      obtain ⟨e, he⟩ := List.length_eq_one_iff.mp (show (columnEntries v).length = 1 by omega)
      rw [he, List.singleton_append, List.forall₂_cons] at hall
      exact ⟨⟨e, he, hall.1⟩, hall.2⟩
    · rintro ⟨⟨e, he, hrepresents⟩, hall⟩
      rw [he, List.singleton_append]
      exact .cons hrepresents hall

theorem range_columns {columns : ℕ} {row : List Value} (h : row.length = columns) :
    (List.range columns).flatMap (fun i => columnEntries (column row i)) = row.flatMap columnEntries := by
  have hmap : (List.range columns).map (column row) = row := by
    apply List.ext_getElem
    · simp [h]
    · intro i hi hi'
      simp [column, List.getElem?_eq_getElem hi']
  conv_rhs => rw [← hmap]
  rw [List.flatMap_map]

theorem sqlite_faithful_iff (r : SqliteResult) (errorMsg : List Text) :
    Faithful sqliteCall (fun s : Sqlite.TableData r.columns => s.cursor.rows) (fun s => s.cursor.last)
        (List.Forall₂ SqliteRepresents) (r.data errorMsg) ↔
      ∀ row ∈ r.rows, ∀ v ∈ row, SqliteShown v := by
  have hfinish : sqliteFinish r.last = noMoreRows ↔ r.last = none := by
    cases r.last <;> simp [sqliteFinish, noMoreRows]
  rw [(sqlite_reads r.columns).faithful_iff]
  change (∀ row ∈ r.rows, _) ∧ (sqliteFinish r.last = noMoreRows ↔ r.last = none) ↔ _
  simp only [hfinish, and_true]
  refine forall₂_congr fun row hrow => ?_
  rw [← flatMap_columnEntries, ← range_columns (r.width row hrow)]
  simp [sqliteRead]

end Sqlite

section Odbc

open Odbc

/-- There is no entry for NULL; an empty text is taken for one. A decimal may lose zeros behind the point. -/
def OdbcRepresents : Odbc.Value → Entry → Prop
  | .null, e => e = .wide [] ∨ e = .narrow []
  | .integer n, e => e = .wide (digits n)
  | .decimal unscaled scale, e => ∃ m, e = .wide (digits m) ∧ m * 10 ^ scale = unscaled
  | .real printed, e => e = .wide printed
  | .characters bytes, e => e = .narrow bytes
  | .wide t, e => e = .wide t
  | .binary bytes, e => e = .blob bytes

def Fits (c : Column) (v : Odbc.Value) : Prop :=
  match v with
  | .null => True
  | .integer _ => c.type ∈ [.smallint, .integer, .bit, .tinyint, .bigint, .other]
  | .decimal _ _ => c.type ∈ [.decimal, .numeric, .other]
  | .real _ => c.type ∈ [.real, .double, .other]
  | .characters _ => c.type ∈ [.character, .other]
  | .wide _ => c.type ∈ [.wideCharacter, .datetime, .other]
  | .binary _ => c.type ∈ [.binary, .other]

structure OdbcResult where
  columns : List Column
  rows : List (List Odbc.Value)
  last : Option Text
  fits : ∀ row ∈ rows, List.Forall₂ Fits columns row

def OdbcResult.data (r : OdbcResult) (errorMsg : List Text) : Odbc.TableData r.columns :=
  ⟨r.rows, r.last, 0, errorMsg, .inl rfl⟩

def InRange (bits : ℕ) (n : ℤ) : Prop := -2 ^ (bits - 1) ≤ n ∧ n < 2 ^ (bits - 1)

def SameAbove (bits : ℕ) (previous : Option ℤ) (n : ℤ) : Prop := ∃ p, previous = some p ∧ p / 2 ^ bits = n / 2 ^ bits

def PlainCell (previous : Option ℤ) (text : Bytes) (c : Column) (v : Odbc.Value) : Prop :=
  match c.type, v with
  | .character, .characters bytes => text ++ delivered c.size bytes = bytes
  | .character, .null => text = []
  | .integer, .integer n => InRange 32 n
  | .smallint, .integer n => InRange 16 n ∧ SameAbove 16 previous n
  | .decimal, .decimal unscaled scale =>
    InRange 16 (unscaled.tdiv (10 ^ scale)) ∧ SameAbove 16 previous (unscaled.tdiv (10 ^ scale)) ∧
      unscaled.tdiv (10 ^ scale) * 10 ^ scale = unscaled
  | .tinyint, .integer n => InRange 8 n ∧ SameAbove 8 previous n
  | .bit, .integer n => (n = 0 ∨ n = 1) ∧ SameAbove 8 previous n
  | _, _ => False

def nextNumber (previous : Option ℤ) (v : Odbc.Value) : Option ℤ := v.number.or previous

def nextText (text : Bytes) : Odbc.Value → Bytes
  | .characters bytes => bytes
  | _ => text

def Plain : Option ℤ → Bytes → List (Column × Odbc.Value) → Prop
  | _, _, [] => True
  | previous, text, (c, v) :: cells =>
    PlainCell previous text c v ∧ Plain (nextNumber previous v) (nextText text v) cells

structure Shows (c : Column) (v : Odbc.Value) (st st' : RowState) : Prop where
  read : readColumn c v st = some st'
  result : st'.result = 0
  row : ∃ e, st'.row = st.row ++ [e] ∧ OdbcRepresents v e

theorem overwrite_eq_iff (bits : ℕ) (old n : ℤ) : overwrite bits old n = n ↔ old / 2 ^ bits = n / 2 ^ bits := by
  have hpos : (0 : ℤ) < 2 ^ bits := by positivity
  have hn := Int.mul_ediv_add_emod n (2 ^ bits)
  rw [overwrite]
  constructor
  · intro h
    have hmul : old / 2 ^ bits * 2 ^ bits = n / 2 ^ bits * 2 ^ bits := by linarith
    exact Int.eq_of_mul_eq_mul_right hpos.ne' hmul
  · intro h
    rw [h]
    linarith

theorem digits_ne_nil (n : ℤ) : digits n ≠ [] := by
  rw [digits, Int.toString_eq_repr, Int.repr_eq_if]
  split_ifs <;> simp

theorem number_of_represents {m n : ℤ} : OdbcRepresents (.integer n) (.wide (digits m)) ↔ m = n := by
  simp only [OdbcRepresents, Entry.wide.injEq]
  exact ⟨digits_injective, fun h => by rw [h]⟩

theorem decimal_of_represents {m unscaled : ℤ} {scale : ℕ} :
    OdbcRepresents (.decimal unscaled scale) (.wide (digits m)) ↔ m * 10 ^ scale = unscaled := by
  simp only [OdbcRepresents, Entry.wide.injEq]
  constructor
  · rintro ⟨m', hdigits, hvalue⟩
    rw [digits_injective hdigits]
    exact hvalue
  · intro hvalue
    exact ⟨m, rfl, hvalue⟩

theorem not_represents_null (n : ℤ) : ¬ OdbcRepresents .null (.wide (digits n)) := by
  simp [OdbcRepresents, digits_ne_nil]

theorem pushInt_eq_some {st st' : RowState} : st.pushInt = some st' ↔
    ∃ n, st.fieldInt = some n ∧ st' = st.push (.wide (digits n)) := by
  rw [RowState.pushInt, Option.map_eq_some_iff]
  simp only [eq_comm]

theorem pushInt_shows {st st' : RowState} {e : Entry} (h : st.pushInt = some st') (hrow : st'.row = st.row ++ [e]) :
    ∃ n, st.fieldInt = some n ∧ e = .wide (digits n) ∧ st'.fieldInt = some n ∧ st'.stringCol = st.stringCol := by
  obtain ⟨n, hn, rfl⟩ := pushInt_eq_some.mp h
  have he : e = .wide (digits n) := by simpa [RowState.push] using hrow.symm
  exact ⟨n, hn, he, hn, rfl⟩

theorem getInteger_shows {bits : ℕ} {v : Odbc.Value} {n : ℤ} {st st' : RowState} {e : Entry} (hbits : bits ≠ 32)
    (hn : v.number = some n) (h : getInteger bits v st = some st') (hresult : st'.result = 0)
    (hrow : st'.row = st.row ++ [e]) :
    InRange bits n ∧ ∃ p, st.fieldInt = some p ∧ e = .wide (digits (overwrite bits p n)) ∧
      st'.fieldInt = some (overwrite bits p n) ∧ st'.stringCol = st.stringCol := by
  simp only [getInteger, hn] at h
  by_cases hrange : -2 ^ (bits - 1) ≤ n ∧ n < 2 ^ (bits - 1)
  · rw [if_pos hrange, if_neg hbits] at h
    obtain ⟨m, hm, he, hfield, htext⟩ := pushInt_shows h hrow
    obtain ⟨p, hp, rfl⟩ := Option.map_eq_some_iff.mp hm
    exact ⟨hrange, p, hp, he, hfield, htext⟩
  · rw [if_neg hrange] at h
    obtain rfl := Option.some.inj h
    simp [RowState.fail] at hresult

theorem getInteger_of_plain {bits : ℕ} {v : Odbc.Value} {n : ℤ} {st : RowState} (hbits : bits ≠ 32)
    (hn : v.number = some n) (hrange : InRange bits n) (hsame : SameAbove bits st.fieldInt n) :
    getInteger bits v st = some ({ st with fieldInt := some n }.push (.wide (digits n))) := by
  obtain ⟨p, hp, habove⟩ := hsame
  have hover := (overwrite_eq_iff bits p n).mpr habove
  have hin : -2 ^ (bits - 1) ≤ n ∧ n < 2 ^ (bits - 1) := hrange
  simp only [getInteger, hn]
  rw [if_pos hin, if_neg hbits, pushInt_eq_some]
  exact ⟨n, by simp [hp, hover], by simp [hp, hover]⟩

theorem getBit_shows {n : ℤ} {st st' : RowState} {e : Entry} (h : getBit (.integer n) st = some st')
    (hresult : st'.result = 0) (hrow : st'.row = st.row ++ [e]) :
    (n = 0 ∨ n = 1) ∧ ∃ p, st.fieldInt = some p ∧ e = .wide (digits (overwrite 8 p n)) ∧
      st'.fieldInt = some (overwrite 8 p n) ∧ st'.stringCol = st.stringCol := by
  simp only [getBit, Odbc.Value.number] at h
  by_cases hbit : n = 0 ∨ n = 1
  · rw [if_pos hbit] at h
    obtain ⟨m, hm, he, hfield, htext⟩ := pushInt_shows h hrow
    obtain ⟨p, hp, rfl⟩ := Option.map_eq_some_iff.mp hm
    exact ⟨hbit, p, hp, he, hfield, htext⟩
  · rw [if_neg hbit] at h
    obtain rfl := Option.some.inj h
    simp [RowState.fail] at hresult

theorem getBit_of_plain {n : ℤ} {st : RowState} (hbit : n = 0 ∨ n = 1) (hsame : SameAbove 8 st.fieldInt n) :
    getBit (.integer n) st = some ({ st with fieldInt := some n }.push (.wide (digits n))) := by
  obtain ⟨p, hp, habove⟩ := hsame
  have hover := (overwrite_eq_iff 8 p n).mpr habove
  simp only [getBit, Odbc.Value.number]
  rw [if_pos hbit, pushInt_eq_some]
  exact ⟨n, by simp [hp, hover], by simp [hp, hover]⟩

structure After (v : Odbc.Value) (st st' : RowState) : Prop where
  fieldInt : st'.fieldInt = nextNumber st.fieldInt v
  stringCol : st'.stringCol = nextText st.stringCol v

theorem Shows.narrow (bits : ℕ) {n : ℤ} {c : Column} {st st' : RowState} (hbits : bits ≠ 32)
    (hread : readColumn c (.integer n) st = getInteger bits (.integer n) st) (h : Shows c (.integer n) st st') :
    InRange bits n ∧ SameAbove bits st.fieldInt n ∧ After (.integer n) st st' := by
  obtain ⟨e, hrow, hrepresents⟩ := h.row
  obtain ⟨hrange, p, hp, rfl, hfield, htext⟩ := getInteger_shows hbits rfl (hread ▸ h.read) h.result hrow
  have hover := number_of_represents.mp hrepresents
  exact ⟨hrange, ⟨p, hp, (overwrite_eq_iff bits p n).mp hover⟩, by rw [hfield, hover]; rfl, htext⟩

theorem Shows.not_same {c : Column} {v : Odbc.Value} {st st' : RowState} (h : Shows c v st st') :
    readColumn c v st ≠ some st := by
  intro hsame
  obtain ⟨e, hrow, -⟩ := h.row
  obtain rfl := Option.some.inj (hsame.symm.trans h.read)
  simp at hrow

theorem Shows.not_fail {c : Column} {v : Odbc.Value} {st st' : RowState} {err : Text} (h : Shows c v st st') :
    readColumn c v st ≠ some (st.fail err) := by
  intro hfail
  obtain rfl := Option.some.inj (hfail.symm.trans h.read)
  simpa [RowState.fail] using h.result

theorem Shows.not_pushInt {c : Column} {st st' : RowState} (h : Shows c .null st st') :
    readColumn c .null st ≠ st.pushInt := by
  intro hpush
  obtain ⟨e, hrow, hrepresents⟩ := h.row
  obtain ⟨n, -, rfl, -⟩ := pushInt_shows (hpush.symm.trans h.read) hrow
  exact not_represents_null n hrepresents

theorem Shows.plain_null {c : Column} {st st' : RowState} (h : Shows c .null st st') :
    PlainCell st.fieldInt st.stringCol c .null ∧ After .null st st' := by
  obtain ⟨type, size⟩ := c
  cases type
  case character =>
    obtain ⟨e, hrow, hrepresents⟩ := h.row
    obtain rfl := Option.some.inj h.read
    obtain rfl : .narrow st.stringCol = e := by simpa [RowState.push] using hrow
    have hempty : st.stringCol = [] := by simpa [OdbcRepresents] using hrepresents
    exact ⟨hempty, rfl, rfl⟩
  case wideCharacter => exact absurd rfl h.not_fail
  case datetime => exact absurd rfl h.not_fail
  case binary => exact absurd rfl h.not_same
  case other => exact absurd rfl h.not_same
  case real => exact absurd h.read (by simp [readColumn])
  case double => exact absurd h.read (by simp [readColumn])
  all_goals exact absurd rfl h.not_pushInt

theorem Shows.plain_decimal {size scale : ℕ} {unscaled : ℤ} {st st' : RowState}
    (h : Shows ⟨.decimal, size⟩ (.decimal unscaled scale) st st') :
    PlainCell st.fieldInt st.stringCol ⟨.decimal, size⟩ (.decimal unscaled scale) ∧ After (.decimal unscaled scale) st st' := by
  obtain ⟨e, hrow, hrepresents⟩ := h.row
  have hread : getInteger 16 (.decimal unscaled scale) st = some st' := h.read
  obtain ⟨hrange, p, hp, rfl, hfield, htext⟩ := getInteger_shows (by decide) rfl hread h.result hrow
  have hvalue := decimal_of_represents.mp hrepresents
  have hover : overwrite 16 p (unscaled.tdiv (10 ^ scale)) = unscaled.tdiv (10 ^ scale) := by
    conv_rhs => rw [← hvalue]
    rw [Int.mul_tdiv_cancel _ (by positivity)]
  rw [hover] at hvalue hfield
  exact ⟨⟨hrange, ⟨p, hp, (overwrite_eq_iff _ _ _).mp hover⟩, hvalue⟩, hfield, htext⟩

theorem Shows.plain_integer {size : ℕ} {n : ℤ} {st st' : RowState} (h : Shows ⟨.integer, size⟩ (.integer n) st st') :
    InRange 32 n ∧ After (.integer n) st st' := by
  obtain ⟨e, hrow, -⟩ := h.row
  have hread := h.read
  simp only [readColumn, getInteger, Odbc.Value.number] at hread
  by_cases hrange : -2 ^ (32 - 1) ≤ n ∧ n < 2 ^ (32 - 1)
  · rw [if_pos hrange] at hread
    obtain ⟨m, hm, -, hfield, htext⟩ := pushInt_shows hread hrow
    exact ⟨hrange, hfield.trans hm.symm, htext⟩
  · rw [if_neg hrange] at hread
    obtain rfl := Option.some.inj hread
    exact absurd h.result (by simp [RowState.fail])

theorem Shows.plain {c : Column} {v : Odbc.Value} {st st' : RowState} (hfits : Fits c v) (h : Shows c v st st') :
    PlainCell st.fieldInt st.stringCol c v ∧ After v st st' := by
  obtain ⟨type, size⟩ := c
  have hread := h.read
  cases v with
  | null => exact h.plain_null
  | integer n =>
    cases type <;> simp only [Fits, List.mem_cons, reduceCtorEq, List.not_mem_nil, or_false, or_self] at hfits
    case smallint =>
      obtain ⟨hrange, hsame, hafter⟩ := h.narrow 16 (by decide) rfl
      exact ⟨⟨hrange, hsame⟩, hafter⟩
    case tinyint =>
      obtain ⟨hrange, hsame, hafter⟩ := h.narrow 8 (by decide) rfl
      exact ⟨⟨hrange, hsame⟩, hafter⟩
    case integer => exact h.plain_integer
    case bit =>
      obtain ⟨e, hrow, hrepresents⟩ := h.row
      obtain ⟨hbit, p, hp, rfl, hfield, htext⟩ := getBit_shows hread h.result hrow
      have hover := number_of_represents.mp hrepresents
      exact ⟨⟨hbit, p, hp, (overwrite_eq_iff 8 p n).mp hover⟩, by rw [hfield, hover]; rfl, htext⟩
    case bigint => simp [readColumn] at hread
    case other => exact absurd rfl h.not_same
  | decimal unscaled scale =>
    cases type <;> simp only [Fits, List.mem_cons, reduceCtorEq, List.not_mem_nil, or_false, or_self] at hfits
    case decimal => exact h.plain_decimal
    case numeric => simp [readColumn] at hread
    case other => exact absurd rfl h.not_same
  | real printed =>
    cases type <;> simp only [Fits, List.mem_cons, reduceCtorEq, List.not_mem_nil, or_false, or_self] at hfits
    case real => simp [readColumn] at hread
    case double => simp [readColumn] at hread
    case other => exact absurd rfl h.not_same
  | characters bytes =>
    cases type <;> simp only [Fits, List.mem_cons, reduceCtorEq, List.not_mem_nil, or_false, or_self] at hfits
    case character =>
      obtain ⟨e, hrow, hrepresents⟩ := h.row
      obtain rfl := Option.some.inj hread
      obtain rfl : .narrow (st.stringCol ++ delivered size bytes) = e := by simpa [RowState.push] using hrow
      have hsame : st.stringCol ++ delivered size bytes = bytes := by simpa [OdbcRepresents] using hrepresents
      exact ⟨hsame, rfl, hsame⟩
    case other => exact absurd rfl h.not_same
  | wide t =>
    cases type <;> simp only [Fits, List.mem_cons, reduceCtorEq, List.not_mem_nil, or_false, or_self] at hfits
    case wideCharacter => exact absurd rfl h.not_fail
    case datetime => exact absurd rfl h.not_fail
    case other => exact absurd rfl h.not_same
  | binary bytes =>
    cases type <;> simp only [Fits, List.mem_cons, reduceCtorEq, List.not_mem_nil, or_false, or_self] at hfits
    case binary =>
      simp only [readColumn] at hread
      split_ifs at hread with hlong
      refine absurd ?_ h.not_same
      simp only [readColumn, if_neg hlong]
    case other => exact absurd rfl h.not_same

theorem shows_number {c : Column} {v : Odbc.Value} {n : ℤ} {st : RowState} (hresult : st.result = 0)
    (hread : readColumn c v st = some ({ st with fieldInt := some n }.push (.wide (digits n))))
    (hrepresents : OdbcRepresents v (.wide (digits n))) : ∃ st', Shows c v st st' :=
  ⟨_, hread, hresult, _, rfl, hrepresents⟩

theorem shows_of_plain {c : Column} {v : Odbc.Value} {st : RowState} (hresult : st.result = 0)
    (h : PlainCell st.fieldInt st.stringCol c v) : ∃ st', Shows c v st st' := by
  obtain ⟨type, size⟩ := c
  cases type <;> cases v <;> simp only [PlainCell] at h
  case character.null => exact ⟨_, rfl, hresult, _, rfl, .inr (by rw [h])⟩
  case character.characters bytes =>
    have hsame : OdbcRepresents (.characters bytes) (.narrow (st.stringCol ++ delivered size bytes)) := by rw [h]; rfl
    exact ⟨_, rfl, hresult, _, rfl, hsame⟩
  case decimal.decimal unscaled scale =>
    have hread := getInteger_of_plain (v := .decimal unscaled scale) (by decide) rfl h.1 h.2.1
    exact shows_number hresult hread (decimal_of_represents.mpr h.2.2)
  case smallint.integer n =>
    have hread := getInteger_of_plain (v := .integer n) (by decide) rfl h.1 h.2
    exact shows_number hresult hread rfl
  case tinyint.integer n =>
    have hread := getInteger_of_plain (v := .integer n) (by decide) rfl h.1 h.2
    exact shows_number hresult hread rfl
  case bit.integer n => exact shows_number hresult (getBit_of_plain h.1 h.2) rfl
  case integer.integer n =>
    have hrange : -2 ^ (32 - 1) ≤ n ∧ n < 2 ^ (32 - 1) := h
    refine shows_number hresult ?_ rfl
    simp only [readColumn, getInteger, Odbc.Value.number, if_pos hrange, if_true]
    rfl

structure Grows (st st' : RowState) : Prop where
  result : st.result ≠ 0 → st'.result ≠ 0
  row : ∃ more, st'.row = st.row ++ more ∧ more.length ≤ 1

theorem Grows.refl (st : RowState) : Grows st st := ⟨id, [], by simp, by simp⟩

theorem pushInt_grows {st t st' : RowState} (hrow : t.row = st.row) (hresult : t.result = st.result)
    (h : t.pushInt = some st') : Grows st st' := by
  obtain ⟨n, -, rfl⟩ := pushInt_eq_some.mp h
  exact ⟨fun hne => by simpa [RowState.push, hresult] using hne, [.wide (digits n)], by simp [RowState.push, hrow], le_refl _⟩

theorem fail_grows {st st' : RowState} {err : Text} (h : some (st.fail err) = some st') : Grows st st' := by
  obtain rfl := Option.some.inj h
  exact ⟨fun _ => Nat.one_ne_zero, [], by simp [RowState.fail], by simp⟩

theorem getInteger_grows {bits : ℕ} {v : Odbc.Value} {st st' : RowState} (h : getInteger bits v st = some st') :
    Grows st st' := by
  rw [getInteger] at h
  split at h
  · exact pushInt_grows rfl rfl h
  · rename_i n _
    by_cases hrange : -2 ^ (bits - 1) ≤ n ∧ n < 2 ^ (bits - 1)
    · rw [if_pos hrange] at h
      refine pushInt_grows ?_ ?_ h <;> rfl
    · rw [if_neg hrange] at h
      exact fail_grows h

theorem getBit_grows {v : Odbc.Value} {st st' : RowState} (h : getBit v st = some st') : Grows st st' := by
  rw [getBit] at h
  split at h
  · exact pushInt_grows rfl rfl h
  · rename_i n _
    by_cases hbit : n = 0 ∨ n = 1
    · rw [if_pos hbit] at h
      refine pushInt_grows ?_ ?_ h <;> rfl
    · rw [if_neg hbit] at h
      exact fail_grows h

theorem readColumn_grows {c : Column} {v : Odbc.Value} {st st' : RowState} (h : readColumn c v st = some st') :
    Grows st st' := by
  obtain ⟨type, size⟩ := c
  cases type
  case character =>
    obtain rfl := Option.some.inj h
    cases v <;> exact ⟨id, [_], rfl, le_refl _⟩
  case wideCharacter => exact fail_grows h
  case datetime => exact fail_grows h
  case smallint => exact getInteger_grows h
  case decimal => exact getInteger_grows h
  case integer => exact getInteger_grows h
  case tinyint => exact getInteger_grows h
  case bit => exact getBit_grows h
  case numeric =>
    simp only [readColumn] at h
    split_ifs at h
    exact pushInt_grows rfl rfl h
  case bigint =>
    simp only [readColumn] at h
    split_ifs at h
    exact pushInt_grows rfl rfl h
  case real => simp [readColumn] at h
  case double => simp [readColumn] at h
  case binary =>
    cases v
    case binary bytes =>
      simp only [readColumn] at h
      split_ifs at h
      obtain rfl := Option.some.inj h
      exact Grows.refl st
    all_goals
      obtain rfl := Option.some.inj h
      exact Grows.refl st
  case other =>
    obtain rfl := Option.some.inj h
    exact Grows.refl st

theorem readColumns_grows {cells : List (Column × Odbc.Value)} {st st' : RowState} (h : readColumns cells st = some st') :
    (st.result ≠ 0 → st'.result ≠ 0) ∧ ∃ more, st'.row = st.row ++ more ∧ more.length ≤ cells.length := by
  induction cells generalizing st with
  | nil =>
    obtain rfl := Option.some.inj h
    exact ⟨id, [], by simp, by simp⟩
  | cons cell cells ih =>
    obtain ⟨next, hread, hrest⟩ := Option.bind_eq_some_iff.mp h
    obtain ⟨hresult, more, hrow, hlength⟩ := readColumn_grows hread
    obtain ⟨hresult', more', hrow', hlength'⟩ := ih hrest
    refine ⟨hresult' ∘ hresult, more ++ more', ?_, ?_⟩
    · rw [hrow', hrow, List.append_assoc]
    · rw [List.length_append, List.length_cons]
      omega

theorem shows_of_row {c : Column} {v : Odbc.Value} {cells : List (Column × Odbc.Value)} {st next st' : RowState}
    {done : List Odbc.Value} (hdone : List.Forall₂ OdbcRepresents done st.row) (hfirst : readColumn c v st = some next)
    (hothers : readColumns cells next = some st') (hzero : st'.result = 0)
    (hall : List.Forall₂ OdbcRepresents (done ++ v :: cells.map Prod.snd) st'.row) : Shows c v st next := by
  obtain ⟨-, more, hrow, hlength⟩ := readColumn_grows hfirst
  obtain ⟨hkeeps, more', hrow', hlength'⟩ := readColumns_grows hothers
  have hcount := hall.length_eq
  have hbefore := hdone.length_eq
  rw [hrow', hrow] at hcount
  simp only [List.length_append, List.length_cons, List.length_map] at hcount
  obtain ⟨e, rfl⟩ := List.length_eq_one_iff.mp (show more.length = 1 by omega)
  refine ⟨hfirst, ?_, e, hrow, ?_⟩
  · by_contra hne
    exact hkeeps hne hzero
  · rw [hrow', hrow, List.append_assoc, List.singleton_append] at hall
    have hdrop := List.forall₂_drop done.length hall
    rw [List.drop_left, hbefore, List.drop_left] at hdrop
    exact (List.forall₂_cons.mp hdrop).1

theorem readColumns_iff (cells : List (Column × Odbc.Value)) (hfits : ∀ cell ∈ cells, Fits cell.1 cell.2) (st : RowState)
    (done : List Odbc.Value) (hresult : st.result = 0) (hdone : List.Forall₂ OdbcRepresents done st.row) :
    (∃ st', readColumns cells st = some st' ∧ st'.result = 0 ∧
        List.Forall₂ OdbcRepresents (done ++ cells.map Prod.snd) st'.row) ↔ Plain st.fieldInt st.stringCol cells := by
  induction cells generalizing st done with
  | nil => simpa [readColumns, Plain, hresult] using hdone
  | cons cell cells ih =>
    obtain ⟨c, v⟩ := cell
    have hcell : Fits c v := hfits (c, v) (by simp)
    have hrest : ∀ cell ∈ cells, Fits cell.1 cell.2 := fun cell hmem => hfits cell (List.mem_cons_of_mem _ hmem)
    have hstep (next : RowState) (hshows : Shows c v st next) :
        (∃ st', readColumns cells next = some st' ∧ st'.result = 0 ∧
          List.Forall₂ OdbcRepresents (done ++ [v] ++ cells.map Prod.snd) st'.row) ↔
          Plain next.fieldInt next.stringCol cells := by
      obtain ⟨e, hrow, hrepresents⟩ := hshows.row
      have hall : List.Forall₂ OdbcRepresents (done ++ [v]) next.row := by
        rw [hrow]
        exact List.rel_append hdone (.cons hrepresents .nil)
      exact ih hrest next (done ++ [v]) hshows.result hall
    constructor
    · rintro ⟨st', hread, hzero, hall⟩
      obtain ⟨next, hfirst, hothers⟩ := Option.bind_eq_some_iff.mp hread
      have hshows := shows_of_row hdone hfirst hothers hzero hall
      obtain ⟨hplain, hafter⟩ := hshows.plain hcell
      refine ⟨hplain, ?_⟩
      rw [← hafter.fieldInt, ← hafter.stringCol]
      exact (hstep next hshows).mp ⟨st', hothers, hzero, by simpa using hall⟩
    · rintro ⟨hplain, hothers⟩
      obtain ⟨next, hshows⟩ := shows_of_plain hresult hplain
      obtain ⟨-, hafter⟩ := hshows.plain hcell
      rw [← hafter.fieldInt, ← hafter.stringCol] at hothers
      obtain ⟨st', hread, hzero, hall⟩ := (hstep next hshows).mpr hothers
      refine ⟨st', ?_, hzero, by simpa using hall⟩
      rw [readColumns, hshows.read, Option.bind_some, hread]

def odbcCall {columns : List Column} (s : Odbc.TableData columns) : Option (ℕ × List Entry × Odbc.TableData columns) :=
  Odbc.editTableData [] s

def odbcStart : RowState := ⟨[], [], none, 0, []⟩

theorem odbc_counted {columns : List Column} (s : Odbc.TableData columns) :
    s.counted.rows = s.rows ∧ s.counted.last = s.last ∧ s.counted.errorMsg = s.errorMsg ∧
      s.counted.fieldsInRecordSet = columns.length := by
  rw [Odbc.TableData.counted]
  split_ifs with h
  · exact ⟨rfl, rfl, rfl, rfl⟩
  · exact ⟨rfl, rfl, rfl, s.fields_eq.resolve_left h⟩

def odbcRead (columns : List Column) (row : List Odbc.Value) : Option (ℕ × List Entry) :=
  (readColumns (columns.zip row) odbcStart).map fun st => (st.result, st.row)

/-- The end of the rows and an error look the same. -/
def odbcFinish : Option Text → ℕ := fun _ => 1

theorem odbc_reads (columns : List Column) :
    Reads odbcCall (fun s : Odbc.TableData columns => s.rows) (fun s => s.last) (odbcRead columns) odbcFinish where
  row s values rest hrows := by
    obtain ⟨hcounted, hlast, herrors, hfields⟩ := odbc_counted s
    have hall : (columns.zip values).take columns.length = columns.zip values := by
      apply List.take_of_length_le
      rw [List.length_zip]
      omega
    refine ⟨⟨rest, s.last, columns.length, ((readColumns (columns.zip values) odbcStart).elim s.errorMsg fun st =>
      s.errorMsg ++ st.errorMsg), .inr rfl⟩, rfl, rfl, ?_⟩
    simp only [odbcCall, Odbc.editTableData, hcounted, hrows, hfields, hall, odbcRead, Option.map_map]
    change Option.map _ (readColumns (columns.zip values) odbcStart) = _
    cases readColumns (columns.zip values) odbcStart with
    | none => rfl
    | some st => simp [hlast, herrors]
  ends s hrows := by
    obtain ⟨hcounted, -, -, -⟩ := odbc_counted s
    cases hlast : s.counted.last with
    | none =>
      simp only [odbcCall, Odbc.editTableData, hcounted, hrows, hlast]
      exact ⟨_, _, rfl⟩
    | some err =>
      simp only [odbcCall, Odbc.editTableData, hcounted, hrows, hlast]
      exact ⟨_, _, rfl⟩
  ends_ne_zero l := Nat.one_ne_zero

theorem odbc_faithful_iff (r : OdbcResult) (errorMsg : List Text) :
    Faithful odbcCall (fun s : Odbc.TableData r.columns => s.rows) (fun s => s.last)
        (List.Forall₂ OdbcRepresents) (r.data errorMsg) ↔
      (∀ row ∈ r.rows, Plain none [] (r.columns.zip row)) ∧ r.last ≠ none := by
  rw [(odbc_reads r.columns).faithful_iff]
  change (∀ row ∈ r.rows, _) ∧ (odbcFinish r.last = noMoreRows ↔ r.last = none) ↔ _
  refine and_congr (forall₂_congr fun row hrow => ?_) (by simp [odbcFinish, noMoreRows])
  have hlength := (r.fits row hrow).length_eq
  have hfits : ∀ cell ∈ r.columns.zip row, Fits cell.1 cell.2 := by
    rintro ⟨c, v⟩ hcell
    exact (List.forall₂_iff_zip.mp (r.fits row hrow)).2 hcell
  have hiff := readColumns_iff (r.columns.zip row) hfits odbcStart [] rfl .nil
  rw [List.map_snd_zip hlength.ge, List.nil_append] at hiff
  refine Iff.trans ?_ hiff
  simp only [odbcRead, Option.map_eq_some_iff, Prod.mk.injEq]
  constructor
  · rintro ⟨e, ⟨st, hread, hzero, rfl⟩, hall⟩
    exact ⟨st, hread, hzero, hall⟩
  · rintro ⟨st, hread, hzero, hall⟩
    exact ⟨st.row, ⟨st, hread, hzero, rfl⟩, hall⟩

end Odbc

inductive QueryResult
  | sqlite (r : SqliteResult)
  | odbc (r : OdbcResult)

def ShowsRows (errorMsg : List Text) : QueryResult → Prop
  | .sqlite r => Faithful sqliteCall (fun s : Sqlite.TableData r.columns => s.cursor.rows) (fun s => s.cursor.last)
      (List.Forall₂ SqliteRepresents) (r.data errorMsg)
  | .odbc r => Faithful odbcCall (fun s : Odbc.TableData r.columns => s.rows) (fun s => s.last)
      (List.Forall₂ OdbcRepresents) (r.data errorMsg)

def Showable : QueryResult → Prop
  | .sqlite r => ∀ row ∈ r.rows, ∀ v ∈ row, SqliteShown v
  | .odbc r => (∀ row ∈ r.rows, Plain none [] (r.columns.zip row)) ∧ r.last ≠ none

def missingAddress : SqliteResult where
  columns := 2
  rows := [[.null, .integer 7]]
  last := none
  width := by simp

end DbHandler.TableData
