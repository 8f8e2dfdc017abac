import DbHandler.Foundation.Fetching
import DbHandler.Odbc.DriverManager
import DbHandler.Sqlite.TableProperties

namespace DbHandler.Sqlite.FetchLoop

open Foundation.Fetching

def sqliteOk : ℤ := 0

def sqliteRow : ℤ := 100

def sqliteDone : ℤ := 101

/-- What a call returns, and for `sqlite3_step` the columns that can be read after it. -/
structure Reply where
  code : ℤ
  row : List Value

/-- `result`, the properties of the table and the messages while the rows are read. -/
structure Progress where
  result : ℕ
  properties : LoadedProperties
  errorMsg : List Text

section Call

-- `message` is the text of `GetErrorMessage`.
variable (message : ℤ → Text) (replies : ℕ → Reply)

def Progress.fail (st : Progress) (code : ℤ) : Progress :=
  { st with result := 1, errorMsg := st.errorMsg ++ [message code] }

/-- `none` is a comment taken from a null pointer. -/
def takeStep (n : ℕ) (st : Option Progress) : Option Progress :=
  st.bind fun st =>
    if (replies n).code = sqliteRow then
      (readTableProperties st.properties (replies n).row).map fun p => { st with properties := p }
    else some (st.fail message (replies n).code)

def leavesLoop (n : ℕ) (st : Option Progress) : Bool := st.isNone || (replies n).code = sqliteDone

/-- The first three calls are `sqlite3_prepare_v2` and two of `sqlite3_bind_text`. -/
def getTableProperties (fuel : ℕ) (p : LoadedProperties) (errorMsg : List Text) : Option (ℕ × Option Progress) :=
  let start : Progress := ⟨0, p, errorMsg⟩
  if (replies 0).code ≠ sqliteOk then some (0, some (start.fail message (replies 0).code))
  else if (replies 1).code ≠ sqliteOk then some (1, some (start.fail message (replies 1).code))
  else if (replies 2).code ≠ sqliteOk then some (2, some (start.fail message (replies 2).code))
  else loop (leavesLoop replies) (takeStep message replies) fuel 3 (some start)

end Call

section Steps

variable {message : ℤ → Text} {replies : ℕ → Reply} {n k : ℕ} {st : Progress} {p : LoadedProperties}
  {errorMsg : List Text}

def rowsRead (replies : ℕ → Reply) (n k : ℕ) : List (List Value) :=
  ((List.range k).filter fun i => (replies (n + i)).code = sqliteRow).map fun i => (replies (n + i)).row

theorem rowsRead_succ (replies : ℕ → Reply) (n k : ℕ) : rowsRead replies n (k + 1) =
    rowsRead replies n k ++ if (replies (n + k)).code = sqliteRow then [(replies (n + k)).row] else [] := by
  rw [rowsRead, List.range_succ, List.filter_append, List.map_append]
  congr 1
  by_cases h : (replies (n + k)).code = sqliteRow <;> simp [h]

theorem after_properties (message : ℤ → Text) (replies : ℕ → Reply) (n k : ℕ) (st : Progress) :
    (after (takeStep message replies) n (some st) k).map Progress.properties =
      (rowsRead replies n k).foldlM readTableProperties st.properties := by
  induction k with
  | zero => rfl
  | succ k ih =>
    rw [rowsRead_succ, List.foldlM_append, ← ih, after]
    cases hafter : after (takeStep message replies) n (some st) k with
    | none => simp [takeStep]
    | some st' =>
      by_cases hrow : (replies (n + k)).code = sqliteRow
      · simp only [takeStep, Option.bind_some, if_pos hrow, List.foldlM_cons, List.foldlM_nil, Option.map_map,
          Option.map_some, Option.bind_eq_bind]
        cases readTableProperties st'.properties (replies (n + k)).row <;> rfl
      · simp [takeStep, if_neg hrow, Progress.fail]

theorem after_result (hafter : after (takeStep message replies) n (some st) k = some st') :
    st'.result = 0 ↔ st.result = 0 ∧ ∀ j < k, (replies (n + j)).code = sqliteRow := by
  induction k generalizing st' with
  | zero =>
    obtain rfl := Option.some.inj hafter
    simp
  | succ k ih =>
    rw [after, takeStep, Option.bind_eq_some_iff] at hafter
    obtain ⟨mid, hmid, hstep⟩ := hafter
    rw [Nat.forall_lt_succ_right, ← and_assoc, ← ih hmid]
    split_ifs at hstep with hrow
    · obtain ⟨p, -, rfl⟩ := Option.map_eq_some_iff.mp hstep
      simp [hrow]
    · obtain rfl := Option.some.inj hstep
      simp [hrow, Progress.fail]

theorem foldlM_ne_none (rows : List (List Value)) (p : LoadedProperties) :
    rows.foldlM readTableProperties p ≠ none ↔ ∀ row ∈ rows, (column row 27).columnText ≠ none := by
  induction rows generalizing p with
  | nil => simp
  | cons row rows ih =>
    rw [List.foldlM_cons, List.forall_mem_cons, Option.bind_eq_bind]
    cases hread : readTableProperties p row with
    | none =>
      have hnull : (column row 27).columnText = none := Option.map_eq_none_iff.mp hread
      simp [hnull]
    | some p' =>
      have hcomment : (column row 27).columnText ≠ none := by
        intro hnull
        rw [readTableProperties, hnull] at hread
        exact absurd hread (by simp)
      rw [Option.bind_some, ih]
      exact (and_iff_right hcomment).symm

theorem after_isSome : (after (takeStep message replies) n (some st) k).isSome = true ↔
    ∀ j < k, (replies (n + j)).code = sqliteRow → (column (replies (n + j)).row 27).columnText ≠ none := by
  rw [← Option.isSome_map, after_properties, Option.isSome_iff_ne_none, foldlM_ne_none, rowsRead]
  simp only [List.forall_mem_map, List.mem_filter, List.mem_range, decide_eq_true_eq, and_imp]

end Steps

section Ends

variable {message : ℤ → Text} {replies : ℕ → Reply} {p : LoadedProperties} {errorMsg : List Text}

/-- The call comes back with an error, and the properties are those of the rows that were read. -/
def Reports (message : ℤ → Text) (replies : ℕ → Reply) (p : LoadedProperties) (errorMsg : List Text) : Prop :=
  ∃ fuel last st, getTableProperties message replies fuel p errorMsg = some (last, some st) ∧ st.result ≠ 0 ∧
    (rowsRead replies 3 (last - 3)).foldlM readTableProperties p = some st.properties

def Opened (replies : ℕ → Reply) : Prop := ∀ i < 3, (replies i).code = sqliteOk

/-- The loop comes to `SQLITE_DONE` after a step that failed. -/
def FailsThenDone (replies : ℕ → Reply) : Prop :=
  ∃ k, (replies (3 + k)).code = sqliteDone ∧
    (∀ j < k, (replies (3 + j)).code ≠ sqliteDone ∧
      ((replies (3 + j)).code = sqliteRow → (column (replies (3 + j)).row 27).columnText ≠ none)) ∧
    ∃ j < k, (replies (3 + j)).code ≠ sqliteRow

theorem getTableProperties_opened (h : Opened replies) (fuel : ℕ) :
    getTableProperties message replies fuel p errorMsg =
      loop (leavesLoop replies) (takeStep message replies) fuel 3 (some ⟨0, p, errorMsg⟩) := by
  rw [getTableProperties, if_neg (not_not.mpr (h 0 (by omega))), if_neg (not_not.mpr (h 1 (by omega))),
    if_neg (not_not.mpr (h 2 (by omega)))]

theorem reports_of_not_opened (h : ¬Opened replies) : Reports message replies p errorMsg := by
  by_cases h0 : (replies 0).code = sqliteOk
  · by_cases h1 : (replies 1).code = sqliteOk
    · have h2 : (replies 2).code ≠ sqliteOk := by
        intro h2
        apply h
        intro i hi
        obtain rfl | rfl | rfl : i = 0 ∨ i = 1 ∨ i = 2 := by omega
        · exact h0
        · exact h1
        · exact h2
      refine ⟨0, 2, Progress.fail message ⟨0, p, errorMsg⟩ (replies 2).code, ?_, Nat.one_ne_zero, rfl⟩
      rw [getTableProperties, if_neg (not_not.mpr h0), if_neg (not_not.mpr h1), if_pos h2]
    · refine ⟨0, 1, Progress.fail message ⟨0, p, errorMsg⟩ (replies 1).code, ?_, Nat.one_ne_zero, rfl⟩
      rw [getTableProperties, if_neg (not_not.mpr h0), if_pos h1]
  · exact ⟨0, 0, Progress.fail message ⟨0, p, errorMsg⟩ (replies 0).code, if_pos h0, Nat.one_ne_zero, rfl⟩

theorem leavesLoop_some {n : ℕ} {st : Progress} :
    leavesLoop replies n (some st) = true ↔ (replies n).code = sqliteDone := by
  simp [leavesLoop]

theorem not_leavesLoop {n : ℕ} {st : Option Progress} :
    leavesLoop replies n st = false ↔ st.isSome = true ∧ (replies n).code ≠ sqliteDone := by
  cases st <;> simp [leavesLoop]

theorem reports_iff (message : ℤ → Text) (replies : ℕ → Reply) (p : LoadedProperties) (errorMsg : List Text) :
    Reports message replies p errorMsg ↔ ¬Opened replies ∨ FailsThenDone replies := by
  by_cases hopened : Opened replies
  · rw [or_iff_right (not_not.mpr hopened)]
    constructor
    · rintro ⟨fuel, last, st, hrun, hresult, -⟩
      rw [getTableProperties_opened hopened] at hrun
      obtain ⟨k, rfl, hst, hstop, hgo⟩ := after_of_loop fuel hrun
      rw [← hst, leavesLoop_some] at hstop
      have hsome := after_isSome.mp (by rw [← hst]; rfl)
      refine ⟨k, hstop, fun j hj => ⟨(not_leavesLoop.mp (hgo j hj)).2, hsome j hj⟩, ?_⟩
      by_contra hrows
      push Not at hrows
      exact hresult ((after_result hst.symm).mpr ⟨rfl, hrows⟩)
    · rintro ⟨k, hdone, hbefore, j, hj, herror⟩
      have hsome (i : ℕ) (hi : i ≤ k) : (after (takeStep message replies) 3 (some ⟨0, p, errorMsg⟩) i).isSome = true :=
        after_isSome.mpr fun j hj => (hbefore j (by omega)).2
      obtain ⟨st, hst⟩ := Option.isSome_iff_exists.mp (hsome k le_rfl)
      refine ⟨k + 1, 3 + k, st, ?_, ?_, ?_⟩
      · rw [getTableProperties_opened hopened, ← hst]
        apply loop_of_after
        · rw [hst]
          exact leavesLoop_some.mpr hdone
        · exact fun i hi => not_leavesLoop.mpr ⟨hsome i (by omega), (hbefore i hi).1⟩
      · intro hzero
        exact herror (((after_result hst).mp hzero).2 j hj)
      · have hread := after_properties message replies 3 k ⟨0, p, errorMsg⟩
        rw [hst] at hread
        rw [Nat.add_sub_cancel_left]
        exact hread.symm
  · exact iff_of_true (reports_of_not_opened hopened) (Or.inl hopened)

end Ends

end DbHandler.Sqlite.FetchLoop

namespace DbHandler.Odbc.FetchLoop

open Foundation.Fetching

/-- What a call returns, and what `pkName` holds after it. -/
structure Reply where
  ret : Ret
  pkName : Text

structure Progress where
  result : ℕ
  pkFields : List Text
  deriving DecidableEq, Repr

section PrimaryKeys

variable (replies : ℕ → Reply)

/-- `( ret != SQL_SUCCESS || ret != SQL_SUCCESS_WITH_INFO ) && ret != SQL_NO_DATA`. -/
def goesOn (ret : Ret) : Bool := (ret ≠ .success || ret ≠ .successWithInfo) && ret ≠ .noData

def takeName (n : ℕ) (pkFields : List Text) : List Text := pkFields ++ [(replies n).pkName]

/-- `SQLFreeHandle`, `SQLDisconnect` and `SQLFreeHandle`; after one that fails there is no other. -/
def closeHandles (n : ℕ) (pkFields : List Text) : Progress :=
  if (replies n).ret.isOk && (replies (n + 1)).ret.isOk && (replies (n + 2)).ret.isOk then ⟨0, pkFields⟩ else ⟨1, []⟩

/-- The primary-key section of `AddDropTable`. Five calls lead to the loop, which leaves `ret` at `SQL_NO_DATA`, so
that the branch for a fetch that failed is never taken. -/
def primaryKeys (fuel : ℕ) : Option (ℕ × Progress) :=
  if (List.range 5).all fun i => (replies i).ret.isOk then
    (loop (fun n _ => !goesOn (replies n).ret) (takeName replies) fuel 5 []).map fun last =>
      (last.1, closeHandles replies (last.1 + 1) last.2)
  else some (0, ⟨1, []⟩)

/-- The rest of `AddDropTable` is left out where `result` is set. -/
def Progress.returned (st : Progress) (rest : ℕ) : ℕ := if st.result = 0 then rest else st.result

end PrimaryKeys

section Ends

variable {replies : ℕ → Reply} {rest n k : ℕ} {pkFields : List Text}

def namesFetched (replies : ℕ → Reply) (n k : ℕ) : List Text :=
  ((List.range k).filter fun i => (replies (n + i)).ret.isOk).map fun i => (replies (n + i)).pkName

/-- The call comes back with an error, and each name in `pk_fields` is from a fetch of its own that succeeded. -/
def Reports (replies : ℕ → Reply) (rest : ℕ) : Prop :=
  ∃ fuel last st, primaryKeys replies fuel = some (last, st) ∧ st.returned rest ≠ 0 ∧
    st.pkFields.Sublist (namesFetched replies 5 (last - 5))

def Succeeds (replies : ℕ → Reply) (n k : ℕ) : Prop := ∀ i < k, (replies (n + i)).ret.isOk = true

/-- The loop comes to `SQL_NO_DATA`, and either the handles cannot be closed after it, or no fetch failed and a later
part of the function does. -/
def FailsAfterEnd (replies : ℕ → Reply) (rest : ℕ) : Prop :=
  ∃ k, (replies (5 + k)).ret = .noData ∧ (∀ j < k, (replies (5 + j)).ret ≠ .noData) ∧
    (¬Succeeds replies (5 + k + 1) 3 ∨ rest ≠ 0 ∧ Succeeds replies 5 k)

theorem goesOn_iff {ret : Ret} : goesOn ret = true ↔ ret ≠ .noData := by cases ret <;> decide

theorem after_takeName (replies : ℕ → Reply) (n k : ℕ) :
    after (takeName replies) n [] k = (List.range k).map fun i => (replies (n + i)).pkName := by
  induction k with
  | zero => rfl
  | succ k ih =>
    rw [after, ih, List.range_succ, List.map_append]
    rfl

theorem sublist_names_iff : ((List.range k).map fun i => (replies (n + i)).pkName).Sublist (namesFetched replies n k) ↔
    Succeeds replies n k := by
  constructor
  · intro h
    have hlength := h.length_le
    rw [namesFetched, List.length_map, List.length_map] at hlength
    have hall := List.length_filter_eq_length_iff.mp (le_antisymm (List.length_filter_le _ _) hlength)
    exact fun i hi => hall i (List.mem_range.mpr hi)
  · intro h
    have hall : ((List.range k).filter fun i => (replies (n + i)).ret.isOk) = List.range k :=
      List.filter_eq_self.mpr fun i hi => h i (List.mem_range.mp hi)
    rw [namesFetched, hall]

theorem closeHandles_of_succeeds (h : Succeeds replies n 3) : closeHandles replies n pkFields = ⟨0, pkFields⟩ := by
  have h0 : (replies n).ret.isOk = true := h 0 (by omega)
  have h1 : (replies (n + 1)).ret.isOk = true := h 1 (by omega)
  have h2 : (replies (n + 2)).ret.isOk = true := h 2 (by omega)
  rw [closeHandles, h0, h1, h2]
  rfl

theorem closeHandles_of_not_succeeds (h : ¬Succeeds replies n 3) : closeHandles replies n pkFields = ⟨1, []⟩ := by
  apply if_neg
  intro hall
  simp only [Bool.and_eq_true] at hall
  apply h
  intro i hi
  obtain rfl | rfl | rfl : i = 0 ∨ i = 1 ∨ i = 2 := by omega
  · exact hall.1.1
  · exact hall.1.2
  · exact hall.2

theorem primaryKeys_opened (h : Succeeds replies 0 5) (fuel : ℕ) :
    primaryKeys replies fuel =
      (loop (fun n _ => !goesOn (replies n).ret) (takeName replies) fuel 5 []).map fun last =>
        (last.1, closeHandles replies (last.1 + 1) last.2) := by
  apply if_pos
  rw [List.all_eq_true]
  intro i hi
  have hok := h i (List.mem_range.mp hi)
  rwa [Nat.zero_add] at hok

theorem primaryKeys_not_opened (h : ¬Succeeds replies 0 5) (fuel : ℕ) :
    primaryKeys replies fuel = some (0, ⟨1, []⟩) := by
  apply if_neg
  rw [List.all_eq_true]
  intro hall
  apply h
  intro i hi
  rw [Nat.zero_add]
  exact hall i (List.mem_range.mpr hi)

theorem primaryKeys_ends_iff (h : Succeeds replies 0 5) {last : ℕ} {st : Progress} :
    (∃ fuel, primaryKeys replies fuel = some (last, st)) ↔
      ∃ k, last = 5 + k ∧ (replies (5 + k)).ret = .noData ∧ (∀ j < k, (replies (5 + j)).ret ≠ .noData) ∧
        st = closeHandles replies (5 + k + 1) ((List.range k).map fun i => (replies (5 + i)).pkName) := by
  constructor
  · rintro ⟨fuel, hrun⟩
    rw [primaryKeys_opened h, Option.map_eq_some_iff] at hrun
    obtain ⟨⟨n, names⟩, hloop, heq⟩ := hrun
    obtain ⟨rfl, rfl⟩ := Prod.mk.inj heq
    obtain ⟨k, rfl, rfl, hstop, hgo⟩ := after_of_loop fuel hloop
    refine ⟨k, rfl, ?_, ?_, ?_⟩
    · rw [Bool.not_eq_true', ← Bool.not_eq_true, goesOn_iff, not_not] at hstop
      exact hstop
    · intro j hj
      exact goesOn_iff.mp (Bool.not_eq_eq_eq_not.mp (hgo j hj))
    · rw [after_takeName]
  · rintro ⟨k, rfl, hend, hbefore, rfl⟩
    refine ⟨k + 1, ?_⟩
    rw [primaryKeys_opened h, loop_of_after k, after_takeName]
    · rfl
    · rw [hend]
      rfl
    · intro j hj
      exact Bool.not_eq_eq_eq_not.mpr (goesOn_iff.mpr (hbefore j hj))

theorem returned_zero {pkFields : List Text} : (⟨0, pkFields⟩ : Progress).returned rest = rest := rfl

theorem returned_one {pkFields : List Text} : (⟨1, pkFields⟩ : Progress).returned rest = 1 := rfl

theorem reports_iff (replies : ℕ → Reply) (rest : ℕ) :
    Reports replies rest ↔ ¬Succeeds replies 0 5 ∨ FailsAfterEnd replies rest := by
  by_cases hopened : Succeeds replies 0 5
  · rw [or_iff_right (not_not.mpr hopened)]
    constructor
    · rintro ⟨fuel, last, st, hrun, hresult, hnames⟩
      obtain ⟨k, rfl, hend, hbefore, rfl⟩ := (primaryKeys_ends_iff hopened).mp ⟨fuel, hrun⟩
      refine ⟨k, hend, hbefore, ?_⟩
      by_cases hclose : Succeeds replies (5 + k + 1) 3
      · rw [closeHandles_of_succeeds hclose] at hresult hnames
        rw [Nat.add_sub_cancel_left] at hnames
        exact Or.inr ⟨hresult, sublist_names_iff.mp hnames⟩
      · exact Or.inl hclose
    · rintro ⟨k, hend, hbefore, hfails⟩
      obtain ⟨fuel, hrun⟩ := (primaryKeys_ends_iff hopened).mpr ⟨k, rfl, hend, hbefore, rfl⟩
      refine ⟨fuel, 5 + k, _, hrun, ?_⟩
      rw [Nat.add_sub_cancel_left]
      by_cases hclose : Succeeds replies (5 + k + 1) 3
      · rw [closeHandles_of_succeeds hclose, returned_zero]
        obtain ⟨hrest, hfetched⟩ := hfails.resolve_left (not_not.mpr hclose)
        exact ⟨hrest, sublist_names_iff.mpr hfetched⟩
      · rw [closeHandles_of_not_succeeds hclose, returned_one]
        exact ⟨Nat.one_ne_zero, List.nil_sublist _⟩
  · apply iff_of_true _ (Or.inl hopened)
    exact ⟨0, 0, _, primaryKeys_not_opened hopened 0, Nat.one_ne_zero, List.nil_sublist _⟩

end Ends

end DbHandler.Odbc.FetchLoop

namespace DbHandler.FetchLoops

/-- A call of one of the two, with all that the library answers. -/
inductive Call
  | getTableProperties (message : ℤ → Text) (replies : ℕ → Sqlite.FetchLoop.Reply) (p : LoadedProperties)
      (errorMsg : List Text)
  | primaryKeys (replies : ℕ → Odbc.FetchLoop.Reply) (rest : ℕ)

def Call.Reports : Call → Prop
  | .getTableProperties message replies p errorMsg => Sqlite.FetchLoop.Reports message replies p errorMsg
  | .primaryKeys replies rest => Odbc.FetchLoop.Reports replies rest

def Call.Fails : Call → Prop
  | .getTableProperties _ replies _ _ => ¬Sqlite.FetchLoop.Opened replies ∨ Sqlite.FetchLoop.FailsThenDone replies
  | .primaryKeys replies rest => ¬Odbc.FetchLoop.Succeeds replies 0 5 ∨ Odbc.FetchLoop.FailsAfterEnd replies rest

theorem fetch_loops_report_iff (call : Call) : call.Reports ↔ call.Fails := by
  cases call with
  | getTableProperties message replies p errorMsg =>
    exact Sqlite.FetchLoop.reports_iff message replies p errorMsg
  | primaryKeys replies rest => exact Odbc.FetchLoop.reports_iff replies rest

def busyFrom (n : ℕ) : Sqlite.FetchLoop.Reply := ⟨if n < 3 then Sqlite.FetchLoop.sqliteOk else 5, []⟩

def lostFrom (n : ℕ) : Odbc.FetchLoop.Reply := ⟨if n < 5 then .success else .error, []⟩

theorem permanent_errors_never_end :
    (∀ message p errorMsg, ¬Sqlite.FetchLoop.Reports message busyFrom p errorMsg) ∧
      ∀ rest, ¬Odbc.FetchLoop.Reports lostFrom rest := by
  constructor
  · intro message p errorMsg
    rw [Sqlite.FetchLoop.reports_iff]
    rintro (hopened | ⟨k, hdone, -⟩)
    · exact hopened fun i hi => if_pos hi
    · have hbusy : (busyFrom (3 + k)).code = 5 := if_neg (by omega)
      rw [hbusy] at hdone
      exact absurd hdone (by decide)
  · intro rest
    rw [Odbc.FetchLoop.reports_iff]
    rintro (hopened | ⟨k, hend, -⟩)
    · apply hopened
      intro i hi
      have hret : (lostFrom (0 + i)).ret = .success := if_pos (by omega)
      rw [hret]
      rfl
    · have hlost : (lostFrom (5 + k)).ret = .error := if_neg (by omega)
      rw [hlost] at hend
      exact absurd hend (by decide)

end DbHandler.FetchLoops
