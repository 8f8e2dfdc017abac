import DbHandler.Connections.MySQLRoundTrip
import Mathlib.Logic.Function.Iterate

namespace DbHandler.Connections.MySQL

open Foundation.Decimal Foundation.Encoding Foundation.Separators

variable {δ : Type} {mysqlOptions : MysqlOptions δ} {c d : Connection δ} {tmp key value piece : Text}

section Entries

def IsField (key : Text) : Prop :=
  key ∈ ["host".toList, "user".toList, "password".toList, "dbname".toList, "socket".toList]

def IsNumber (key : Text) : Prop := key ∈ ["port".toList, "flags".toList]

instance : DecidablePred IsField := fun _ => inferInstanceAs (Decidable (_ ∈ _))

instance : DecidablePred IsNumber := fun _ => inferInstanceAs (Decidable (_ ∈ _))

def optionCall (key value : Text) : Call := (optionNamed key, utf8 (upToNul value))

structure Keeps (c d : Connection δ) : Prop where
  db : d.db = c.db
  errorMsg : d.errorMsg = c.errorMsg

theorem takeEntry_field (hkey : IsField key) (value : Text) (c : Connection δ) :
    ∃ d, takeEntry mysqlOptions key value c = .goesOn d ∧ Keeps c d := by
  simp only [IsField, List.mem_cons, List.not_mem_nil, or_false] at hkey
  rcases hkey with rfl | rfl | rfl | rfl | rfl
  · exact ⟨_, takeEntry_host value, rfl, rfl⟩
  · exact ⟨_, takeEntry_user value, rfl, rfl⟩
  · exact ⟨_, takeEntry_password value, rfl, rfl⟩
  · exact ⟨_, takeEntry_dbname value, rfl, rfl⟩
  · exact ⟨_, takeEntry_socket value, rfl, rfl⟩

theorem takeEntry_number (hkey : IsNumber key) (hvalue : stoi value ≠ none) (c : Connection δ) :
    ∃ d, takeEntry mysqlOptions key value c = .goesOn d ∧ Keeps c d := by
  obtain ⟨n, hn⟩ := Option.ne_none_iff_exists'.mp hvalue
  simp only [IsNumber, List.mem_cons, List.not_mem_nil, or_false] at hkey
  rcases hkey with rfl | rfl
  · refine ⟨{ c with port := n }, ?_, rfl, rfl⟩
    rw [takeEntry, if_neg (by decide), if_neg (by decide), if_neg (by decide), if_pos rfl, hn]
  · exact ⟨_, takeEntry_flags hn, rfl, rfl⟩

theorem takeEntry_unparsed (hkey : IsNumber key) (hvalue : stoi value = none) (c : Connection δ) :
    takeEntry mysqlOptions key value c = .throws c := by
  simp only [IsNumber, List.mem_cons, List.not_mem_nil, or_false] at hkey
  rcases hkey with rfl | rfl
  · rw [takeEntry, if_neg (by decide), if_neg (by decide), if_neg (by decide), if_pos rfl, hvalue]
  · rw [takeEntry, if_neg (by decide), if_neg (by decide), if_neg (by decide),
      if_neg (by decide), if_neg (by decide), if_neg (by decide), if_pos rfl, hvalue]

theorem takeEntry_option (hfield : ¬IsField key) (hnumber : ¬IsNumber key) (value : Text) (c : Connection δ) :
    takeEntry mysqlOptions key value c = setOption mysqlOptions (optionNamed key) value c := by
  simp only [IsField, List.mem_cons, List.not_mem_nil, or_false, not_or] at hfield
  simp only [IsNumber, List.mem_cons, List.not_mem_nil, or_false, not_or] at hnumber
  obtain ⟨hhost, huser, hpassword, hdbname, hsocket⟩ := hfield
  obtain ⟨hport, hflags⟩ := hnumber
  rw [takeEntry, if_neg hhost, if_neg huser, if_neg hpassword, if_neg hport, if_neg hdbname, if_neg hsocket,
    if_neg hflags]

theorem setOption_accepted (h : (mysqlOptions c.db (optionCall key value)).1 = none) :
    ∃ d, setOption mysqlOptions (optionNamed key) value c = .goesOn d ∧
      d.db = (mysqlOptions c.db (optionCall key value)).2 ∧ d.errorMsg = c.errorMsg := by
  rw [optionCall] at h
  rw [setOption_eq, h]
  exact ⟨_, rfl, rfl, rfl⟩

theorem setOption_refused {err : Text} (h : (mysqlOptions c.db (optionCall key value)).1 = some err) :
    ∃ d, setOption mysqlOptions (optionNamed key) value c = .breaks d ∧ d.errorMsg = c.errorMsg ++ [err] := by
  rw [optionCall] at h
  rw [setOption_eq, h]
  exact ⟨_, rfl, rfl⟩

end Entries

section Turns

variable (mysqlOptions) in
/-- The call returns and raises nothing; where it does not return 0 there is one more message. -/
def Completes (tmp : Text) (c : Connection δ) : Prop :=
  ∃ fuel result c', tokenizeConnectionString mysqlOptions fuel tmp c = some (.returns result c') ∧
    (result ≠ 0 → ∃ err, c'.errorMsg = c.errorMsg ++ [err])

variable (mysqlOptions) in
def takePiece (piece : Text) (c : Connection δ) : Control δ :=
  takeEntry mysqlOptions (before '=' piece) (after '=' piece) c

theorem tokenize_turn (hne : tmp ≠ []) (fuel : ℕ) (c : Connection δ) :
    tokenizeConnectionString mysqlOptions (fuel + 1) tmp c =
      match takePiece mysqlOptions (before ' ' tmp) c with
      | .goesOn c => tokenizeConnectionString mysqlOptions fuel (after ' ' tmp) c
      | .breaks c => some (.returns 1 c)
      | .throws c => some (.throws c) := by
  rw [tokenizeConnectionString, if_neg hne]
  rfl

theorem completes_nil (c : Connection δ) : Completes mysqlOptions [] c :=
  ⟨1, 0, c, rfl, fun h => absurd rfl h⟩

theorem completes_goesOn (hne : tmp ≠ []) (htake : takePiece mysqlOptions (before ' ' tmp) c = .goesOn d)
    (hmsg : d.errorMsg = c.errorMsg) :
    Completes mysqlOptions tmp c ↔ Completes mysqlOptions (after ' ' tmp) d := by
  constructor
  · rintro ⟨fuel, result, c', hrun, herr⟩
    cases fuel with
    | zero => exact absurd hrun (by simp [tokenizeConnectionString])
    | succ fuel =>
      rw [tokenize_turn hne, htake] at hrun
      rw [← hmsg] at herr
      exact ⟨fuel, result, c', hrun, herr⟩
  · rintro ⟨fuel, result, c', hrun, herr⟩
    rw [hmsg] at herr
    refine ⟨fuel + 1, result, c', ?_, herr⟩
    rw [tokenize_turn hne, htake]
    exact hrun

theorem completes_breaks {err : Text} (hne : tmp ≠ [])
    (htake : takePiece mysqlOptions (before ' ' tmp) c = .breaks d) (hmsg : d.errorMsg = c.errorMsg ++ [err]) :
    Completes mysqlOptions tmp c := by
  refine ⟨1, 1, d, ?_, fun _ => ⟨err, hmsg⟩⟩
  rw [tokenize_turn hne, htake]

theorem not_completes_throws (hne : tmp ≠ []) (htake : takePiece mysqlOptions (before ' ' tmp) c = .throws d) :
    ¬Completes mysqlOptions tmp c := by
  rintro ⟨fuel, result, c', hrun, -⟩
  have hthrown : tokenizeConnectionString mysqlOptions 1 tmp c = some (.throws d) := by
    rw [tokenize_turn hne, htake]
  exact absurd (tokenize_unique hrun hthrown) (by simp)

/-- Without a blank `tmp` stays as it is, so only a change of the handle can end the loop. -/
theorem tokenize_stuck {P : Connection δ → Prop} (hne : tmp ≠ []) (hblank : ' ' ∉ tmp)
    (hstep : ∀ c, P c → ∃ d, takePiece mysqlOptions tmp c = .goesOn d ∧ P d) (fuel : ℕ) (hc : P c) :
    tokenizeConnectionString mysqlOptions fuel tmp c = none := by
  induction fuel generalizing c with
  | zero => rfl
  | succ fuel ih =>
    obtain ⟨d, htake, hd⟩ := hstep c hc
    rw [tokenize_turn hne, before_of_not_mem hblank, htake, after_of_not_mem hblank]
    exact ih hd

theorem not_completes_stuck {P : Connection δ → Prop} (hne : tmp ≠ []) (hblank : ' ' ∉ tmp)
    (hstep : ∀ c, P c → ∃ d, takePiece mysqlOptions tmp c = .goesOn d ∧ P d) (hc : P c) :
    ¬Completes mysqlOptions tmp c := by
  rintro ⟨fuel, result, c', hrun, -⟩
  rw [tokenize_stuck hne hblank hstep fuel hc] at hrun
  exact absurd hrun (by simp)

end Turns

section Pieces

variable (mysqlOptions) in
def handleAfter (piece : Text) (db : δ) : δ :=
  (mysqlOptions db (optionCall (before '=' piece) (after '=' piece))).2

variable (mysqlOptions) in
def Refuses (piece : Text) (db : δ) : Prop :=
  (mysqlOptions db (optionCall (before '=' piece) (after '=' piece))).1 ≠ none

variable (mysqlOptions) in
/-- What is left after the last blank has to be empty, or an option that is refused when it is set again and
again. -/
def ReadableLast (db : δ) (piece : Text) : Prop :=
  piece = [] ∨ ¬IsField (before '=' piece) ∧ ¬IsNumber (before '=' piece) ∧
    ∃ n, Refuses mysqlOptions piece ((handleAfter mysqlOptions piece)^[n] db)

variable (mysqlOptions) in
def Readable : δ → List Text → Prop
  | _, [] => True
  | db, [piece] => ReadableLast mysqlOptions db piece
  | db, piece :: next :: pieces =>
    if IsField (before '=' piece) then Readable db (next :: pieces)
    else if IsNumber (before '=' piece) then stoi (after '=' piece) ≠ none ∧ Readable db (next :: pieces)
    else Refuses mysqlOptions piece db ∨ Readable (handleAfter mysqlOptions piece db) (next :: pieces)

theorem completes_refused (hne : tmp ≠ []) (hfield : ¬IsField (before '=' (before ' ' tmp)))
    (hnumber : ¬IsNumber (before '=' (before ' ' tmp))) (h : Refuses mysqlOptions (before ' ' tmp) c.db) :
    Completes mysqlOptions tmp c := by
  obtain ⟨err, herr⟩ := Option.ne_none_iff_exists'.mp h
  obtain ⟨d, hset, hmsg⟩ := setOption_refused herr
  apply completes_breaks hne _ hmsg
  exact (takeEntry_option hfield hnumber _ c).trans hset

theorem completes_accepted (hne : tmp ≠ []) (hfield : ¬IsField (before '=' (before ' ' tmp)))
    (hnumber : ¬IsNumber (before '=' (before ' ' tmp))) (h : ¬Refuses mysqlOptions (before ' ' tmp) c.db) :
    ∃ d, d.db = handleAfter mysqlOptions (before ' ' tmp) c.db ∧
      takePiece mysqlOptions (before ' ' tmp) c = .goesOn d ∧
      (Completes mysqlOptions tmp c ↔ Completes mysqlOptions (after ' ' tmp) d) := by
  obtain ⟨d, hset, hdb, hmsg⟩ := setOption_accepted (not_not.mp h)
  have htake : takePiece mysqlOptions (before ' ' tmp) c = .goesOn d :=
    (takeEntry_option hfield hnumber _ c).trans hset
  exact ⟨d, hdb, htake, completes_goesOn hne htake hmsg⟩

theorem completes_repeated (hne : tmp ≠ []) (hblank : ' ' ∉ tmp) (hfield : ¬IsField (before '=' tmp))
    (hnumber : ¬IsNumber (before '=' tmp)) (n : ℕ) (c : Connection δ)
    (hn : Refuses mysqlOptions tmp ((handleAfter mysqlOptions tmp)^[n] c.db)) : Completes mysqlOptions tmp c := by
  have hpiece : before ' ' tmp = tmp := before_of_not_mem hblank
  rw [← hpiece] at hfield hnumber
  induction n generalizing c with
  | zero =>
    apply completes_refused hne hfield hnumber
    rw [hpiece]
    exact hn
  | succ n ih =>
    by_cases hnow : Refuses mysqlOptions (before ' ' tmp) c.db
    · exact completes_refused hne hfield hnumber hnow
    · obtain ⟨d, hdb, -, hiff⟩ := completes_accepted hne hfield hnumber hnow
      rw [hiff, after_of_not_mem hblank]
      apply ih
      rw [hdb, hpiece]
      exact hn

theorem not_completes_accepting (hne : tmp ≠ []) (hblank : ' ' ∉ tmp) (hfield : ¬IsField (before '=' tmp))
    (hnumber : ¬IsNumber (before '=' tmp))
    (h : ∀ n, ¬Refuses mysqlOptions tmp ((handleAfter mysqlOptions tmp)^[n] c.db)) :
    ¬Completes mysqlOptions tmp c := by
  have hpiece : before ' ' tmp = tmp := before_of_not_mem hblank
  apply not_completes_stuck
    (P := fun c => ∀ n, ¬Refuses mysqlOptions tmp ((handleAfter mysqlOptions tmp)^[n] c.db)) hne hblank _ h
  intro c hc
  rw [← hpiece] at hfield hnumber
  obtain ⟨d, hdb, htake, -⟩ := completes_accepted hne hfield hnumber (by rw [hpiece]; exact hc 0)
  rw [hpiece] at hdb htake
  refine ⟨d, htake, fun n => ?_⟩
  rw [hdb]
  exact hc (n + 1)

theorem not_completes_field (hne : tmp ≠ []) (hblank : ' ' ∉ tmp) (hfield : IsField (before '=' tmp))
    (c : Connection δ) : ¬Completes mysqlOptions tmp c := by
  apply not_completes_stuck (P := fun _ => True) hne hblank _ trivial
  intro c _
  obtain ⟨d, htake, -⟩ := takeEntry_field hfield (after '=' tmp) c
  exact ⟨d, htake, trivial⟩

theorem not_completes_number (hne : tmp ≠ []) (hblank : ' ' ∉ tmp) (hnumber : IsNumber (before '=' tmp))
    (c : Connection δ) : ¬Completes mysqlOptions tmp c := by
  by_cases hvalue : stoi (after '=' tmp) = none
  · apply not_completes_throws hne
    rw [before_of_not_mem hblank]
    exact takeEntry_unparsed hnumber hvalue c
  · apply not_completes_stuck (P := fun _ => True) hne hblank _ trivial
    intro c _
    obtain ⟨d, htake, -⟩ := takeEntry_number hnumber hvalue c
    exact ⟨d, htake, trivial⟩

theorem completes_last (hblank : ' ' ∉ tmp) (c : Connection δ) :
    Completes mysqlOptions tmp c ↔ ReadableLast mysqlOptions c.db tmp := by
  by_cases hne : tmp = []
  · rw [hne]
    exact iff_of_true (completes_nil c) (Or.inl rfl)
  rw [ReadableLast, or_iff_right hne]
  by_cases hfield : IsField (before '=' tmp)
  · exact iff_of_false (not_completes_field hne hblank hfield c) fun h => h.1 hfield
  by_cases hnumber : IsNumber (before '=' tmp)
  · exact iff_of_false (not_completes_number hne hblank hnumber c) fun h => h.2.1 hnumber
  constructor
  · intro hcompletes
    refine ⟨hfield, hnumber, ?_⟩
    by_contra hrefuse
    rw [not_exists] at hrefuse
    exact not_completes_accepting hne hblank hfield hnumber hrefuse hcompletes
  · rintro ⟨-, -, n, hn⟩
    exact completes_repeated hne hblank hfield hnumber n c hn

theorem splitOn_blank (h : ' ' ∈ tmp) : tmp.splitOn ' ' = before ' ' tmp :: (after ' ' tmp).splitOn ' ' := by
  conv_lhs => rw [← before_append_after h]
  exact List.splitOn_append_cons_self_of_not_mem (not_mem_before ' ' tmp) _

theorem completes_piece {pieces : List Text} {next : Text} (hblank : ' ' ∈ tmp) (hpiece : before ' ' tmp = piece)
    (hrest : ∀ d : Connection δ,
      Completes mysqlOptions (after ' ' tmp) d ↔ Readable mysqlOptions d.db (next :: pieces)) (c : Connection δ) :
    Completes mysqlOptions tmp c ↔ Readable mysqlOptions c.db (piece :: next :: pieces) := by
  have hne : tmp ≠ [] := List.ne_nil_of_mem hblank
  rw [Readable]
  split_ifs with hfield hnumber
  · obtain ⟨d, htake, hkeeps⟩ := takeEntry_field hfield (after '=' piece) c
    rw [completes_goesOn hne (by rw [hpiece]; exact htake) hkeeps.errorMsg, hrest, hkeeps.db]
  · by_cases hvalue : stoi (after '=' piece) = none
    · apply iff_of_false
      · apply not_completes_throws hne
        rw [hpiece]
        exact takeEntry_unparsed hnumber hvalue c
      · rintro ⟨hparsed, -⟩
        exact hparsed hvalue
    · obtain ⟨d, htake, hkeeps⟩ := takeEntry_number hnumber hvalue c
      rw [completes_goesOn hne (by rw [hpiece]; exact htake) hkeeps.errorMsg, hrest, hkeeps.db]
      exact (and_iff_right hvalue).symm
  · rw [← hpiece] at hfield hnumber ⊢
    by_cases hrefuse : Refuses mysqlOptions (before ' ' tmp) c.db
    · exact iff_of_true (completes_refused hne hfield hnumber hrefuse) (Or.inl hrefuse)
    · obtain ⟨d, hdb, -, hiff⟩ := completes_accepted hne hfield hnumber hrefuse
      rw [hiff, hrest, hdb]
      exact (or_iff_right hrefuse).symm

theorem completes_pieces (pieces : List Text) (tmp : Text) (hsplit : tmp.splitOn ' ' = pieces) (c : Connection δ) :
    Completes mysqlOptions tmp c ↔ Readable mysqlOptions c.db pieces := by
  induction pieces generalizing tmp c with
  | nil => exact absurd hsplit (List.splitOn_ne_nil ' ' tmp)
  | cons piece pieces ih =>
    by_cases hblank : ' ' ∈ tmp
    · rw [splitOn_blank hblank] at hsplit
      obtain ⟨hpiece, hrest⟩ := List.cons.inj hsplit
      cases pieces with
      | nil => exact absurd hrest (List.splitOn_ne_nil ' ' _)
      | cons next pieces => exact completes_piece hblank hpiece (ih _ hrest) c
    · rw [List.splitOn_eq_singleton hblank] at hsplit
      obtain ⟨rfl, rfl⟩ := List.cons.inj hsplit
      exact completes_last hblank c

theorem tokenize_completes_iff (mysqlOptions : MysqlOptions δ) (connectStr : Text) (c : Connection δ) :
    Completes mysqlOptions connectStr c ↔ Readable mysqlOptions c.db (connectStr.splitOn ' ') :=
  completes_pieces _ connectStr rfl c

theorem hostOnly_never_ends : ¬Completes accepting "host=a".toList started :=
  not_completes_field (by decide) (by decide) (by decide) started

end Pieces

end DbHandler.Connections.MySQL
