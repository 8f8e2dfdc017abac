import DbHandler.Odbc.DataSources
import Mathlib.Data.List.Nodup
import DbHandler.Foundation.Neighbours

namespace DbHandler.Odbc

section Comparison

def nul : Char := Char.ofNat 0

def memory (t : Text) : Text := t ++ [nul]

/-- `none` is a read past the end of one of the two. -/
def equal : Text → Text → Option Bool
  | [], _ => none
  | d :: dest, src =>
    if d = nul then some true
    else
      match src with
      | [] => none
      | s :: src => if s = d then equal dest src else some false

/-- The loop runs over `dest` alone, so that a longer `src` is not told apart. -/
theorem equal_memory {dest src : Text} (hdest : nul ∉ dest) (hsrc : nul ∉ src) :
    equal (memory dest) (memory src) = some (decide (dest <+: src)) := by
  induction dest generalizing src with
  | nil => simp [memory, equal]
  | cons d dest ih =>
    rw [List.mem_cons, not_or] at hdest
    cases src with
    | nil => simp [memory, equal, Ne.symm hdest.1, hdest.1]
    | cons s src =>
      rw [List.mem_cons, not_or] at hsrc
      rw [memory, memory, List.cons_append, List.cons_append, equal, if_neg (Ne.symm hdest.1)]
      by_cases hsd : s = d
      · have hrest := ih hdest.2 hsrc.2
        rw [memory, memory] at hrest
        simp [hsd, hrest, List.cons_prefix_cons]
      · simp [hsd, List.cons_prefix_cons, Ne.symm hsd]

theorem equal_correct_iff {dest src : Text} (hdest : nul ∉ dest) (hsrc : nul ∉ src) :
    equal (memory dest) (memory src) = some (decide (dest = src)) ↔ ¬(dest <+: src ∧ dest ≠ src) := by
  rw [equal_memory hdest hsrc, Option.some_inj, decide_eq_decide]
  constructor
  · rintro h ⟨hbegins, hne⟩
    exact hne (h.mp hbegins)
  · intro h
    constructor
    · intro hbegins
      by_contra hne
      exact h ⟨hbegins, hne⟩
    · rintro rfl
      exact List.prefix_refl _

end Comparison

section Lookup

variable (r : Registry) (dsn : Text)

def findSource : ℕ → Direction → Position → Option (SourceReply × Bool)
  | 0, _, _ => none
  | fuel + 1, direct, p =>
    let (reply, p) := r.sqlDataSources direct p
    if reply.ret.isOk then
      match equal (memory dsn) (memory reply.dsn) with
      | some true => some (reply, true)
      | some false => findSource fuel .next p
      | none => none
    else some (reply, false)

structure LookupAnswer where
  result : ℕ
  driver : Text
  errorMsg : List Text
  deriving DecidableEq, Repr

/-- `none` is a read past the end of a name, or more turns than `fuel`. -/
def getDriverForDSN (fuel : ℕ) (p : Position) (driver : Text) (errorMsg : List Text) : Option LookupAnswer :=
  (findSource r dsn fuel .first p).map fun (reply, found) =>
    if reply.ret ≠ .success && reply.ret ≠ .noData then ⟨1, driver, errorMsg ++ r.diagnostics⟩
    else ⟨0, if found then driver ++ reply.dsnDescr else driver, errorMsg⟩

end Lookup

section Answers

def CText : Type := { t : Text // nul ∉ t }

/-- The data sources that every run gives. -/
structure SourceList where
  sources : List DataSource
  names_nodup : (sources.map DataSource.name).Nodup
  names_clean : ∀ s ∈ sources, nul ∉ s.name

variable {l : SourceList} {drivers : Enumeration InstalledDriver} {diagnostics : List Text} {dsn : CText}
  {direct : Direction} {p : Position} {s : DataSource} {driver : Text} {errorMsg : List Text}

def SourceList.registry (l : SourceList) (drivers : Enumeration InstalledDriver) (diagnostics : List Text) : Registry where
  drivers := drivers
  sources _ := ⟨l.sources, false⟩
  diagnostics := diagnostics

/-- The name begins with the requested one, as far as the buffer has it. -/
def beginsWith (dsn : Text) (s : DataSource) : Bool := decide (dsn <+: cutFor maxDsnLength s.name)

def foundReply (s : DataSource) : SourceReply where
  ret := if s.Whole then .success else .successWithInfo
  dsn := cutFor maxDsnLength s.name
  dsnDescr := cutFor dsnDescrLength s.description

theorem foundReply_isOk : (foundReply s).ret.isOk = true := by
  unfold foundReply
  dsimp only
  split_ifs <;> rfl

theorem equal_cutFor (dsn : CText) (hs : nul ∉ s.name) :
    equal (memory dsn.1) (memory (foundReply s).dsn) = some (beginsWith dsn.1 s) :=
  equal_memory dsn.2 fun h => hs (List.mem_of_mem_take h)

theorem findSource_eq (rest : List DataSource) (hrest : l.sources.drop (p.move direct).entry = rest)
    (fuel : ℕ) (hfuel : rest.length < fuel) :
    findSource (l.registry drivers diagnostics) dsn.1 fuel direct p =
      some (((rest.find? (beginsWith dsn.1)).map fun s => (foundReply s, true)).getD (⟨.noData, [], []⟩, false)) := by
  induction rest generalizing fuel direct p with
  | nil =>
    obtain ⟨fuel, rfl⟩ := Nat.exists_eq_add_one_of_ne_zero (Nat.ne_of_gt hfuel)
    have hreply := sqlDataSources_none (r := l.registry drivers diagnostics) (getElem?_of_drop_nil hrest)
    rw [findSource, hreply]
    rfl
  | cons s rest ih =>
    obtain ⟨fuel, rfl⟩ := Nat.exists_eq_add_one_of_ne_zero (Nat.ne_of_gt (Nat.zero_lt_of_lt hfuel))
    rw [List.length_cons] at hfuel
    obtain ⟨hentry, hnext⟩ := getElem?_of_drop hrest
    have hreply := sqlDataSources_some (r := l.registry drivers diagnostics) hentry
    have hclean : nul ∉ s.name := l.names_clean s (List.mem_of_getElem? hentry)
    have hturn : findSource (l.registry drivers diagnostics) dsn.1 (fuel + 1) direct p =
        if beginsWith dsn.1 s then some (foundReply s, true)
        else findSource (l.registry drivers diagnostics) dsn.1 fuel .next
          { p.move direct with entry := (p.move direct).entry + 1 } := by
      rw [findSource, hreply]
      change (if (foundReply s).ret.isOk then _ else _) = _
      rw [if_pos foundReply_isOk]
      change (match equal (memory dsn.1) (memory (foundReply s).dsn) with
        | some true => _
        | some false => _
        | none => _) = _
      rw [equal_cutFor dsn hclean]
      cases beginsWith dsn.1 s <;> rfl
    rw [hturn, List.find?_cons]
    cases hext : beginsWith dsn.1 s with
    | true => rfl
    | false =>
      rw [if_neg Bool.false_ne_true]
      apply ih
      · exact hnext
      · omega

def answerOf (driver : Text) (errorMsg : List Text) (diagnostics : List Text) : Option DataSource → LookupAnswer
  | none => ⟨0, driver, errorMsg⟩
  | some s => if s.Whole then ⟨0, driver ++ s.description, errorMsg⟩ else ⟨1, driver, errorMsg ++ diagnostics⟩

theorem getDriverForDSN_eq (l : SourceList) (drivers : Enumeration InstalledDriver) (diagnostics : List Text) (dsn : CText)
    (fuel : ℕ) (hfuel : l.sources.length < fuel) (p : Position) (driver : Text) (errorMsg : List Text) :
    getDriverForDSN (l.registry drivers diagnostics) dsn.1 fuel p driver errorMsg =
      some (answerOf driver errorMsg diagnostics (l.sources.find? (beginsWith dsn.1))) := by
  rw [getDriverForDSN, findSource_eq l.sources rfl fuel hfuel, Option.map_some]
  cases l.sources.find? (beginsWith dsn.1) with
  | none => rfl
  | some s =>
    rw [answerOf, Option.map_some, Option.getD_some]
    by_cases hwhole : s.Whole
    · simp [foundReply, hwhole, cutFor_of_lt hwhole.2]
    · simp [foundReply, hwhole, SourceList.registry]

/-- What is to be appended: the description of the data source of that name. -/
def SourceList.wanted (l : SourceList) (dsn : Text) : Text :=
  ((l.sources.find? fun s => s.name = dsn).map DataSource.description).getD []

theorem wanted_of_mem (hs : s ∈ l.sources) : l.wanted s.name = s.description := by
  have hfind : l.sources.find? (fun t => t.name = s.name) = some s :=
    Foundation.Neighbours.find_key l.names_nodup hs
  rw [SourceList.wanted, hfind]
  rfl

theorem wanted_of_absent (h : ∀ s ∈ l.sources, s.name ≠ dsn.1) : l.wanted dsn.1 = [] := by
  have hfind : l.sources.find? (fun t => t.name = dsn.1) = none :=
    List.find?_eq_none.mpr fun s hs => by simpa using h s hs
  rw [SourceList.wanted, hfind]
  rfl

/-- The call returns 0 with the description of the data source of that name appended, or nothing where there is none. -/
structure Right (l : SourceList) (dsn driver : Text) (answer : LookupAnswer) : Prop where
  result : answer.result = 0
  present : ∀ s ∈ l.sources, s.name = dsn → answer.driver = driver ++ s.description
  absent : (∀ s ∈ l.sources, s.name ≠ dsn) → answer.driver = driver

theorem right_iff {answer : LookupAnswer} :
    Right l dsn.1 driver answer ↔ answer.result = 0 ∧ answer.driver = driver ++ l.wanted dsn.1 := by
  by_cases hpresent : ∃ s ∈ l.sources, s.name = dsn.1
  · obtain ⟨s, hs, hname⟩ := hpresent
    have hwanted : l.wanted dsn.1 = s.description := by rw [← hname, wanted_of_mem hs]
    rw [hwanted]
    constructor
    · intro h
      exact ⟨h.result, h.present s hs hname⟩
    · rintro ⟨hresult, hdriver⟩
      refine ⟨hresult, ?_, fun habsent => absurd hname (habsent s hs)⟩
      intro t ht htname
      have hsame : l.wanted dsn.1 = t.description := by rw [← htname, wanted_of_mem ht]
      rw [hdriver, ← hwanted, hsame]
  · push Not at hpresent
    rw [wanted_of_absent hpresent, List.append_nil]
    constructor
    · intro h
      exact ⟨h.result, h.absent hpresent⟩
    · rintro ⟨hresult, hdriver⟩
      exact ⟨hresult, fun s hs hname => absurd hname (hpresent s hs), fun _ => hdriver⟩

/-- The first data source whose name begins with the requested one is given whole, and has the wanted description. -/
def FirstIsWanted (l : SourceList) (dsn : Text) : Prop :=
  match l.sources.find? (beginsWith dsn) with
  | some s => s.Whole ∧ s.description = l.wanted dsn
  | none => l.wanted dsn = []

theorem answer_iff (dsn : CText) (driver : Text) (errorMsg diagnostics : List Text) :
    (answerOf driver errorMsg diagnostics (l.sources.find? (beginsWith dsn.1))).result = 0 ∧
      (answerOf driver errorMsg diagnostics (l.sources.find? (beginsWith dsn.1))).driver = driver ++ l.wanted dsn.1 ↔
      FirstIsWanted l dsn.1 := by
  unfold FirstIsWanted
  cases l.sources.find? (beginsWith dsn.1) with
  | none =>
    dsimp only [answerOf]
    rw [and_iff_right rfl, List.self_eq_append_right]
  | some s =>
    dsimp only [answerOf]
    by_cases hwhole : s.Whole
    · rw [if_pos hwhole, and_iff_right rfl, List.append_cancel_left_eq, and_iff_right hwhole]
    · rw [if_neg hwhole]
      exact iff_of_false (fun h => Nat.one_ne_zero h.1) fun h => hwhole h.1

/-- With enough turns the call ends, and with the right answer. -/
def LooksUp (l : SourceList) (drivers : Enumeration InstalledDriver) (diagnostics : List Text) (dsn : CText) (p : Position)
    (driver : Text) (errorMsg : List Text) : Prop :=
  ∃ bound answer, (∀ fuel, bound < fuel →
    getDriverForDSN (l.registry drivers diagnostics) dsn.1 fuel p driver errorMsg = some answer) ∧
      Right l dsn.1 driver answer

theorem looksUp_iff (l : SourceList) (drivers : Enumeration InstalledDriver) (diagnostics : List Text) (dsn : CText)
    (p : Position) (driver : Text) (errorMsg : List Text) :
    LooksUp l drivers diagnostics dsn p driver errorMsg ↔ FirstIsWanted l dsn.1 := by
  have hrun (fuel : ℕ) (hfuel : l.sources.length < fuel) :=
    getDriverForDSN_eq l drivers diagnostics dsn fuel hfuel p driver errorMsg
  rw [← answer_iff dsn driver errorMsg diagnostics, ← right_iff]
  constructor
  · rintro ⟨bound, answer, hall, hright⟩
    have hsame := hall (max bound l.sources.length + 1) (by omega)
    rw [hrun _ (by omega)] at hsame
    obtain rfl := Option.some.inj hsame
    exact hright
  · intro hright
    exact ⟨l.sources.length, _, hrun, hright⟩

theorem driver_lookup_iff (l : SourceList) (drivers : Enumeration InstalledDriver) (diagnostics : List Text)
    (dsn src : CText) (p : Position) (driver : Text) (errorMsg : List Text) :
    (LooksUp l drivers diagnostics dsn p driver errorMsg ↔ FirstIsWanted l dsn.1) ∧
      (equal (memory dsn.1) (memory src.1)).isSome = true ∧
      (equal (memory dsn.1) (memory src.1) = some (decide (dsn.1 = src.1)) ↔ ¬(dsn.1 <+: src.1 ∧ dsn.1 ≠ src.1)) := by
  refine ⟨looksUp_iff l drivers diagnostics dsn p driver errorMsg, ?_, equal_correct_iff dsn.2 src.2⟩
  rw [equal_memory dsn.2 src.2]
  rfl

def twoSources : SourceList where
  sources := [⟨"sales2024".toList, "MySQL".toList⟩, ⟨"sales".toList, "PostgreSQL".toList⟩]
  names_nodup := by decide +kernel
  names_clean := by decide +kernel

def sales : CText := ⟨"sales".toList, by decide⟩

theorem sales_finds_mySQL :
    getDriverForDSN (twoSources.registry ⟨[], false⟩ []) sales.1 3 ⟨0, 0⟩ [] [] = some ⟨0, "MySQL".toList, []⟩ ∧
      ¬LooksUp twoSources ⟨[], false⟩ [] sales ⟨0, 0⟩ [] [] := by
  refine ⟨by decide +kernel, ?_⟩
  rw [looksUp_iff]
  rintro ⟨-, hwanted⟩
  exact absurd hwanted (by decide +kernel)

end Answers

end DbHandler.Odbc
