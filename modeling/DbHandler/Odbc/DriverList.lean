import DbHandler.Foundation.OrderedMap
import DbHandler.Odbc.DataSources
import Mathlib.Data.Char
import Mathlib.Data.List.Lex

namespace DbHandler.Odbc

open Foundation

abbrev DriverMap := OrderedMap Text (List Text)

/-- The variables of `GetDriverList`; `drivers` and `sources` are where the driver manager is. -/
structure ListLocals where
  s1 : Text
  s2 : Text
  dsnResult : Text
  direction : Direction
  direct : Direction
  drivers : Position
  sources : Position
  driversDSN : DriverMap
  result : Bool
  errMsg : List Text
  overrun : Bool

section Loops

variable (r : Registry)

def takeSource (dsn dsnDescr : Text) (l : ListLocals) : ListLocals :=
  let l := { l with s2 := l.s2 ++ dsnDescr }
  let l :=
    if l.s1 = l.s2 then
      { l with driversDSN := l.driversDSN.push l.s1 (l.dsnResult ++ dsn), dsnResult := [] }
    else l
  { l with direct := .next, s2 := [] }

def readSources : ℕ → ListLocals → Option (Ret × ListLocals)
  | 0, _ => none
  | fuel + 1, l =>
    let (reply, p) := r.sqlDataSources l.direct l.sources
    let l := { l with sources := p }
    if reply.ret = .success then readSources fuel (takeSource reply.dsn reply.dsnDescr l) else some (reply.ret, l)

def ListLocals.fail (l : ListLocals) : ListLocals :=
  { l with result := false, errMsg := l.errMsg ++ r.diagnostics, driversDSN := .empty }

/-- What follows the inner loop where it did not fail. -/
def nextDriver (l : ListLocals) : ListLocals :=
  { l with
    driversDSN := if l.driversDSN.lookup l.s1 = none then l.driversDSN.push l.s1 [] else l.driversDSN
    direct := .first
    direction := .next
    s1 := [] }

def readDrivers : ℕ → ListLocals → Option (Ret × ListLocals)
  | 0, _ => none
  | fuel + 1, l =>
    let (reply, p) := r.sqlDrivers l.direction l.drivers
    let l := { l with drivers := p, overrun := l.overrun || reply.overrun }
    if reply.ret = .success then
      match readSources r fuel { l with s1 := l.s1 ++ reply.driverDesc } with
      | none => none
      | some (ret2, l) =>
        if ret2 ≠ .success && ret2 ≠ .noData then some (reply.ret, l.fail r) else readDrivers fuel (nextDriver l)
    else some (reply.ret, l)

structure ListAnswer where
  result : Bool
  driversDSN : DriverMap
  errMsg : List Text
  overrun : Bool

/-- After `SQLAllocHandle` and `SQLSetEnvAttr`. The map is that of the caller, who passes an empty one. -/
def getDriverList (fuel : ℕ) (errMsg : List Text) : Option ListAnswer :=
  (readDrivers r fuel ⟨[], [], [], .first, .first, ⟨0, 0⟩, ⟨0, 0⟩, .empty, true, errMsg,
    false⟩).map fun (ret1, l) =>
    let l := if ret1 ≠ .success && ret1 ≠ .noData then l.fail r else l
    ⟨l.result, l.driversDSN, l.errMsg, l.overrun⟩

end Loops

section Sources

variable {r : Registry} {l : ListLocals} {dsn dsnDescr : Text} {rest : List DataSource}

/-- `dsn_result` and `s2` are empty between two data sources. -/
structure ListLocals.Clear (l : ListLocals) : Prop where
  s2 : l.s2 = []
  dsnResult : l.dsnResult = []

def collect (s1 : Text) (sources : List DataSource) (m : DriverMap) : DriverMap :=
  OrderedMap.gather (fun _ => s1) DataSource.name (sources.filter fun s => s.description = s1) m

theorem collect_cons (s1 : Text) (s : DataSource) (sources : List DataSource) (m : DriverMap) :
    collect s1 (s :: sources) m = collect s1 sources (if s1 = s.description then m.push s1 s.name else m) := by
  rw [collect, List.filter_cons]
  by_cases h : s.description = s1
  · rw [if_pos (decide_eq_true h), if_pos h.symm]
    rfl
  · rw [if_neg (by simpa using h), if_neg (Ne.symm h)]
    rfl

theorem takeSource_eq (h : l.Clear) : takeSource dsn dsnDescr l =
    { l with
      driversDSN := if l.s1 = dsnDescr then l.driversDSN.push l.s1 dsn else l.driversDSN
      direct := .next } := by
  obtain ⟨s1, s2, dsnResult, direction, direct, drivers, sources, driversDSN, result, errMsg, overrun⟩ := l
  obtain ⟨rfl, rfl⟩ : s2 = [] ∧ dsnResult = [] := ⟨h.s2, h.dsnResult⟩
  unfold takeSource
  dsimp only [List.nil_append]
  split_ifs <;> rfl

theorem readSources_eq (rest : List DataSource) (hclear : l.Clear)
    (hrest : (r.sources (l.sources.move l.direct).runs).entries.drop (l.sources.move l.direct).entry = rest)
    (hwhole : ∀ s ∈ rest, s.Whole) :
    ∃ direct, ∀ fuel, rest.length < fuel → readSources r fuel l = some ((r.sources (l.sources.move l.direct).runs).last,
      { l with
        direct := direct
        sources := ⟨(l.sources.move l.direct).runs, 0⟩
        driversDSN := collect l.s1 rest l.driversDSN }) := by
  induction rest generalizing l with
  | nil =>
    have hreply := sqlDataSources_none (r := r) (getElem?_of_drop_nil hrest)
    refine ⟨l.direct, fun fuel hfuel => ?_⟩
    obtain ⟨fuel, rfl⟩ := Nat.exists_eq_add_one_of_ne_zero (Nat.ne_of_gt hfuel)
    rw [readSources, hreply]
    exact if_neg (last_ne_success _)
  | cons s rest ih =>
    rw [List.forall_mem_cons] at hwhole
    obtain ⟨hentry, hnext⟩ := getElem?_of_drop hrest
    have hreply := sqlDataSources_whole (r := r) hentry hwhole.1
    have hturn (fuel : ℕ) : readSources r (fuel + 1) l = readSources r fuel
        { l with
          sources := { l.sources.move l.direct with entry := (l.sources.move l.direct).entry + 1 }
          driversDSN := if l.s1 = s.description then l.driversDSN.push l.s1 s.name else l.driversDSN
          direct := .next } := by
      rw [readSources, hreply]
      dsimp only
      rw [if_pos rfl]
      apply congrArg (readSources r fuel)
      exact takeSource_eq ⟨hclear.s2, hclear.dsnResult⟩
    obtain ⟨direct, hrun⟩ := ih (l := { l with
        sources := { l.sources.move l.direct with entry := (l.sources.move l.direct).entry + 1 }
        driversDSN := if l.s1 = s.description then l.driversDSN.push l.s1 s.name else l.driversDSN
        direct := .next }) ⟨hclear.s2, hclear.dsnResult⟩ hnext hwhole.2
    refine ⟨direct, fun fuel hfuel => ?_⟩
    obtain ⟨fuel, rfl⟩ := Nat.exists_eq_add_one_of_ne_zero (Nat.ne_of_gt (Nat.zero_lt_of_lt hfuel))
    rw [List.length_cons] at hfuel
    rw [hturn, hrun fuel (by omega), collect_cons]
    rfl

end Sources

section Drivers

variable {r : Registry} {l : ListLocals}

/-- What one driver adds to the map: the names of its data sources, or the empty name. -/
def loadDriver (d : InstalledDriver) (sources : List DataSource) (m : DriverMap) : DriverMap :=
  if (collect d.description sources m).lookup d.description = none then
    (collect d.description sources m).push d.description []
  else collect d.description sources m

def loadDrivers (r : Registry) : List InstalledDriver → ℕ → DriverMap → DriverMap
  | [], _, m => m
  | d :: rest, n, m => loadDrivers r rest (n + 1) (loadDriver d (r.sources (n + 1)).entries m)

/-- No run over the data sources before the `i`-th from here fails. -/
def Unfailed (r : Registry) (n i : ℕ) : Prop := ∀ j < i, (r.sources (n + j + 1)).failed = false

structure ListLocals.Between (l : ListLocals) (n : ℕ) : Prop extends l.Clear where
  s1 : l.s1 = []
  direct : l.direct = .first
  runs : l.sources.runs = n

/-- What the rest of the drivers makes of the variables. -/
structure ReadsDrivers (r : Registry) (rest : List InstalledDriver) (n : ℕ) (l : ListLocals) (ret : Ret)
    (l' : ListLocals) : Prop where
  overrun : l'.overrun = false ↔
    l.overrun = false ∧ ∀ i (h : i < rest.length), Unfailed r n i → (rest.get ⟨i, h⟩).Fits
  failed : ¬Unfailed r n rest.length → ret = .success ∧ l'.result = false ∧ l'.driversDSN.entries = []
  loaded : Unfailed r n rest.length →
    ret = r.drivers.last ∧ l'.result = l.result ∧ l'.driversDSN = loadDrivers r rest n l.driversDSN

theorem unfailed_succ {n i : ℕ} : Unfailed r n (i + 1) ↔ (r.sources (n + 1)).failed = false ∧ Unfailed r (n + 1) i := by
  constructor
  · intro h
    refine ⟨h 0 (by omega), fun j hj => ?_⟩
    have hlater := h (j + 1) (by omega)
    rwa [show n + (j + 1) + 1 = n + 1 + j + 1 by omega] at hlater
  · rintro ⟨hfirst, hrest⟩ j hj
    cases j with
    | zero => exact hfirst
    | succ j =>
      rw [show n + (j + 1) + 1 = n + 1 + j + 1 by omega]
      exact hrest j (by omega)

theorem forall_fits_cons {n : ℕ} {d : InstalledDriver} {rest : List InstalledDriver} :
    (∀ i (h : i < (d :: rest).length), Unfailed r n i → ((d :: rest).get ⟨i, h⟩).Fits) ↔
      d.Fits ∧ ((r.sources (n + 1)).failed = false →
        ∀ i (h : i < rest.length), Unfailed r (n + 1) i → (rest.get ⟨i, h⟩).Fits) := by
  constructor
  · intro h
    refine ⟨h 0 (by simp) fun j hj => absurd hj (by omega), fun hfirst i hi hrest => ?_⟩
    exact h (i + 1) (by simpa using hi) (unfailed_succ.mpr ⟨hfirst, hrest⟩)
  · rintro ⟨hd, hrest⟩ i hi hun
    cases i with
    | zero => exact hd
    | succ i =>
      obtain ⟨hfirst, hlater⟩ := unfailed_succ.mp hun
      exact hrest hfirst i (by simpa using hi) hlater

/-- The variables after a driver whose data sources were all read. -/
def afterDriver (r : Registry) (d : InstalledDriver) (n : ℕ) (l : ListLocals) : ListLocals :=
  { l with
    s1 := []
    direction := .next
    direct := .first
    drivers := { l.drivers.move l.direction with entry := (l.drivers.move l.direction).entry + 1 }
    sources := ⟨n + 1, 0⟩
    driversDSN := loadDriver d (r.sources (n + 1)).entries l.driversDSN
    overrun := l.overrun || !decide d.Fits }

theorem afterDriver_between {d : InstalledDriver} {n : ℕ} (hl : l.Between n) :
    (afterDriver r d n l).Between (n + 1) where
  s2 := hl.s2
  dsnResult := hl.dsnResult
  s1 := rfl
  direct := rfl
  runs := rfl

theorem readDrivers_turn {d : InstalledDriver} {n : ℕ} (hl : l.Between n)
    (hentry : r.drivers.entries[(l.drivers.move l.direction).entry]? = some d) (hd : d.Whole)
    (hwhole : ∀ s ∈ (r.sources (n + 1)).entries, s.Whole) :
    if (r.sources (n + 1)).failed then
      ∃ l', (∀ fuel, (r.sources (n + 1)).entries.length < fuel → readDrivers r (fuel + 1) l = some (.success, l')) ∧
        l'.result = false ∧ l'.driversDSN.entries = [] ∧ l'.overrun = (l.overrun || !decide d.Fits)
    else ∀ fuel, (r.sources (n + 1)).entries.length < fuel →
      readDrivers r (fuel + 1) l = readDrivers r fuel (afterDriver r d n l) := by
  have hmove : l.sources.move l.direct = ⟨n + 1, 0⟩ := by rw [hl.direct, Position.move, hl.runs]
  have hreply := sqlDrivers_some hentry hd
  obtain ⟨direct, hsources⟩ := readSources_eq (r := r)
    (l := { l with
      s1 := d.description
      drivers := { l.drivers.move l.direction with entry := (l.drivers.move l.direction).entry + 1 }
      overrun := l.overrun || !decide d.Fits })
    (r.sources (n + 1)).entries ⟨hl.s2, hl.dsnResult⟩ (by dsimp only; rw [hmove, List.drop_zero]) hwhole
  rw [hmove] at hsources
  have hturn (fuel : ℕ) (hfuel : (r.sources (n + 1)).entries.length < fuel) : readDrivers r (fuel + 1) l =
      if (r.sources (n + 1)).last ≠ .success && (r.sources (n + 1)).last ≠ .noData then
        some (.success, ListLocals.fail r { l with
          s1 := d.description
          drivers := { l.drivers.move l.direction with entry := (l.drivers.move l.direction).entry + 1 }
          overrun := l.overrun || !decide d.Fits
          direct := direct
          sources := ⟨n + 1, 0⟩
          driversDSN := collect d.description (r.sources (n + 1)).entries l.driversDSN })
      else readDrivers r fuel (afterDriver r d n l) := by
    rw [readDrivers, hreply]
    dsimp only
    rw [if_pos rfl, hl.s1, List.nil_append, hsources fuel hfuel]
    rfl
  split_ifs with hfailed
  · have hlast : (r.sources (n + 1)).last = .error := if_pos hfailed
    rw [hlast] at hturn
    exact ⟨_, hturn, rfl, rfl, rfl⟩
  · have hlast : (r.sources (n + 1)).last = .noData := if_neg hfailed
    rw [hlast] at hturn
    exact hturn

theorem readDrivers_spec (rest : List InstalledDriver) (n : ℕ) (hl : l.Between n)
    (hrest : r.drivers.entries.drop (l.drivers.move l.direction).entry = rest) (hdrivers : ∀ d ∈ rest, d.Whole)
    (hsources : ∀ n, ∀ s ∈ (r.sources n).entries, s.Whole) (bound : ℕ)
    (hbound : ∀ i < rest.length, (r.sources (n + i + 1)).entries.length < bound) :
    ∃ ret l', (∀ fuel, bound + rest.length < fuel → readDrivers r fuel l = some (ret, l')) ∧
      ReadsDrivers r rest n l ret l' := by
  induction rest generalizing n l with
  | nil =>
    have hreply := sqlDrivers_none (r := r) (getElem?_of_drop_nil hrest)
    refine ⟨r.drivers.last, { l with drivers := { l.drivers.move l.direction with entry := 0 } }, ?_, ?_⟩
    · intro fuel hfuel
      obtain ⟨fuel, rfl⟩ := Nat.exists_eq_add_one_of_ne_zero (Nat.ne_of_gt (Nat.zero_lt_of_lt hfuel))
      rw [readDrivers, hreply]
      dsimp only
      rw [if_neg (last_ne_success _), Bool.or_false]
    · refine ⟨?_, fun h => absurd (fun j hj => absurd hj (by simp)) h, fun _ => ⟨rfl, rfl, rfl⟩⟩
      exact (and_iff_left fun i hi => absurd hi (by simp)).symm
  | cons d rest ih =>
    rw [List.forall_mem_cons] at hdrivers
    obtain ⟨hentry, hnext⟩ := getElem?_of_drop hrest
    have hfirst := hbound 0 (by simp)
    rw [Nat.add_zero] at hfirst
    have hturn := readDrivers_turn hl hentry hdrivers.1 (hsources (n + 1))
    cases hfailed : (r.sources (n + 1)).failed with
    | true =>
      rw [hfailed, if_pos rfl] at hturn
      obtain ⟨l', hrun, hresult, hmap, hoverrun⟩ := hturn
      have hnot : ¬Unfailed r n (d :: rest).length := by
        intro h
        have hzero := (unfailed_succ.mp h).1
        rw [hfailed] at hzero
        exact Bool.noConfusion hzero
      refine ⟨.success, l', ?_, ?_, fun _ => ⟨rfl, hresult, hmap⟩, fun h => absurd h hnot⟩
      · intro fuel hfuel
        obtain ⟨fuel, rfl⟩ := Nat.exists_eq_add_one_of_ne_zero (Nat.ne_of_gt (Nat.zero_lt_of_lt hfuel))
        exact hrun fuel (by omega)
      rw [forall_fits_cons, hfailed, hoverrun]
      simp
    | false =>
      rw [hfailed, if_neg Bool.false_ne_true] at hturn
      obtain ⟨ret, l', hrun, hreads⟩ := ih (n + 1) (afterDriver_between (r := r) (d := d) hl) hnext hdrivers.2
        (fun i hi => by
          have hlater := hbound (i + 1) (by simpa using hi)
          rwa [show n + (i + 1) + 1 = n + 1 + i + 1 by omega] at hlater)
      refine ⟨ret, l', ?_, ?_, ?_, ?_⟩
      · intro fuel hfuel
        obtain ⟨fuel, rfl⟩ := Nat.exists_eq_add_one_of_ne_zero (Nat.ne_of_gt (Nat.zero_lt_of_lt hfuel))
        rw [List.length_cons] at hfuel
        rw [hturn fuel (by omega)]
        exact hrun fuel (by omega)
      · have hover : (afterDriver r d n l).overrun = false ↔ l.overrun = false ∧ d.Fits := by simp [afterDriver]
        rw [hreads.overrun, forall_fits_cons, hfailed, hover, and_assoc,
          imp_iff_right (rfl : false = false)]
      · intro h
        apply hreads.failed
        intro hrest
        exact h (unfailed_succ.mpr ⟨hfailed, hrest⟩)
      · intro h
        exact hreads.loaded (unfailed_succ.mp h).2

end Drivers

section Map

variable {m : DriverMap}

def namesOf (key : Text) (sources : List DataSource) : List Text :=
  (sources.filter fun s => s.description = key).map DataSource.name

/-- What a driver is mapped to: the single empty name stands for no data source. -/
def listed (key : Text) (sources : List DataSource) : List Text :=
  if namesOf key sources = [] then [[]] else namesOf key sources

theorem namesOf_cons (key : Text) (s : DataSource) (sources : List DataSource) :
    namesOf key (s :: sources) = if key = s.description then s.name :: namesOf key sources else namesOf key sources := by
  rw [namesOf, List.filter_cons]
  by_cases h : s.description = key
  · rw [if_pos (decide_eq_true h), if_pos h.symm]
    rfl
  · rw [if_neg (by simpa using h), if_neg (Ne.symm h)]
    rfl

theorem lookup_collect (s1 key : Text) (sources : List DataSource) (m : DriverMap) :
    (collect s1 sources m).lookup key =
      if key = s1 ∧ namesOf s1 sources ≠ [] then some ((m.lookup s1).getD [] ++ namesOf s1 sources)
      else m.lookup key := by
  induction sources generalizing m with
  | nil => simp [collect, namesOf, OrderedMap.gather]
  | cons s sources ih =>
    rw [collect_cons, ih, namesOf_cons]
    by_cases hs : s1 = s.description
    · rw [if_pos hs, if_pos hs, OrderedMap.push, OrderedMap.lookup_upsert, OrderedMap.lookup_upsert, if_pos rfl]
      by_cases hkey : key = s1
      · by_cases hnames : namesOf s1 sources = [] <;> simp [hkey, hnames]
      · simp [hkey]
    · rw [if_neg hs, if_neg hs]

theorem lookup_loadDriver {d : InstalledDriver} (hm : m.lookup d.description = none) (key : Text)
    (sources : List DataSource) :
    (loadDriver d sources m).lookup key = if key = d.description then some (listed key sources) else m.lookup key := by
  have hcollect (key : Text) := lookup_collect d.description key sources m
  rw [hm] at hcollect
  unfold loadDriver listed
  by_cases hnames : namesOf d.description sources = []
  · have hsame (key : Text) : (collect d.description sources m).lookup key = m.lookup key := by
      rw [hcollect key, if_neg fun h => h.2 hnames]
    rw [if_pos (by rw [hsame, hm]), OrderedMap.push, OrderedMap.lookup_upsert, hsame, hsame, hm]
    by_cases hkey : key = d.description
    · simp [hkey, hnames]
    · simp [hkey]
  · have hpresent : (collect d.description sources m).lookup d.description = some (namesOf d.description sources) := by
      rw [hcollect, if_pos ⟨rfl, hnames⟩]
      rfl
    rw [if_neg (by rw [hpresent]; exact Option.some_ne_none _)]
    by_cases hkey : key = d.description
    · rw [if_pos hkey, hkey, hpresent, if_neg hnames]
    · rw [if_neg hkey, hcollect, if_neg fun h => hkey h.1]

theorem lookup_loadDrivers {r : Registry} {sources : List DataSource} (rest : List InstalledDriver) (n : ℕ)
    (hnodup : (rest.map InstalledDriver.description).Nodup) (hm : ∀ d ∈ rest, m.lookup d.description = none)
    (hsources : ∀ j < rest.length, (r.sources (n + j + 1)).entries = sources) (key : Text) :
    (loadDrivers r rest n m).lookup key =
      if key ∈ rest.map InstalledDriver.description then some (listed key sources) else m.lookup key := by
  induction rest generalizing n m with
  | nil => simp [loadDrivers]
  | cons d rest ih =>
    rw [List.map_cons, List.nodup_cons] at hnodup
    rw [List.forall_mem_cons] at hm
    have hfirst : (r.sources (n + 1)).entries = sources := hsources 0 (by simp)
    have hload (key : Text) := lookup_loadDriver hm.1 key sources
    have hne (e : InstalledDriver) (he : e ∈ rest) : e.description ≠ d.description :=
      fun h => hnodup.1 (h ▸ List.mem_map_of_mem he)
    rw [loadDrivers, hfirst, ih (n + 1) hnodup.2]
    · rw [hload]
      simp only [List.map_cons, List.mem_cons]
      by_cases hrest : key ∈ rest.map InstalledDriver.description
      · rw [if_pos hrest, if_pos (Or.inr hrest)]
      · simp only [hrest, or_false, if_false]
    · intro e he
      rw [hload, if_neg (hne e he)]
      exact hm.2 e he
    · intro j hj
      have hlater := hsources (j + 1) (by simpa using hj)
      rwa [show n + (j + 1) + 1 = n + 1 + j + 1 by omega] at hlater

end Map

section Listing

/-- Drivers with distinct descriptions, and entries for which the calls return `SQL_SUCCESS`: the driver manager has
room for each of them in the buffers it was told of. -/
structure Installation extends Registry where
  descriptions_nodup : (drivers.entries.map InstalledDriver.description).Nodup
  drivers_whole : ∀ d ∈ drivers.entries, d.Whole
  sources_whole : ∀ n, ∀ s ∈ (sources n).entries, s.Whole

/-- No buffer is overrun; the map is complete where nothing failed, and empty where a run over the drivers or the data
sources ended with an error. -/
structure Listed (r : Registry) (answer : ListAnswer) : Prop where
  overrun : answer.overrun = false
  loaded : r.drivers.failed = false → ∀ sources, (∀ n < r.drivers.entries.length, r.sources (n + 1) = ⟨sources, false⟩) →
    answer.result = true ∧ ∀ key, answer.driversDSN.lookup key =
      if key ∈ r.drivers.entries.map InstalledDriver.description then some (listed key sources) else none
  failed : r.drivers.failed = true ∨ (∃ n < r.drivers.entries.length, (r.sources (n + 1)).failed = true) →
    answer.result = false ∧ answer.driversDSN.entries = []

def ListsDrivers (r : Registry) (errMsg : List Text) : Prop :=
  ∃ bound answer, (∀ fuel, bound < fuel → getDriverList r fuel errMsg = some answer) ∧ Listed r answer

def AllFit (r : Registry) : Prop :=
  ∀ i (h : i < r.drivers.entries.length), Unfailed r 0 i → (r.drivers.entries.get ⟨i, h⟩).Fits

theorem exists_bound (f : ℕ → ℕ) (n : ℕ) : ∃ bound, ∀ i < n, f i < bound := by
  induction n with
  | zero => exact ⟨0, fun i hi => absurd hi (by omega)⟩
  | succ n ih =>
    obtain ⟨bound, hbound⟩ := ih
    refine ⟨max bound (f n + 1), fun i hi => ?_⟩
    rcases Nat.lt_succ_iff_lt_or_eq.mp hi with hlt | rfl
    · have hlt' := hbound i hlt
      omega
    · omega

theorem not_unfailed_iff {r : Registry} {n : ℕ} :
    ¬Unfailed r 0 n ↔ ∃ j < n, (r.sources (j + 1)).failed = true := by
  simp only [Unfailed, Nat.zero_add]
  push Not
  simp

theorem getDriverList_spec (i : Installation) (errMsg : List Text) :
    ∃ bound answer, (∀ fuel, bound < fuel → getDriverList i.toRegistry fuel errMsg = some answer) ∧
      (answer.overrun = false ↔ AllFit i.toRegistry) ∧ (AllFit i.toRegistry → Listed i.toRegistry answer) := by
  let start : ListLocals := ⟨[], [], [], .first, .first, ⟨0, 0⟩, ⟨0, 0⟩, .empty, true, errMsg,
    false⟩
  obtain ⟨room, hroom⟩ := exists_bound (fun n => (i.sources (0 + n + 1)).entries.length) i.drivers.entries.length
  obtain ⟨ret, l', hrun, hreads⟩ := readDrivers_spec (r := i.toRegistry) (l := start) i.drivers.entries 0
    ⟨⟨rfl, rfl⟩, rfl, rfl, rfl⟩ rfl i.drivers_whole i.sources_whole room hroom
  let last := if ret ≠ .success && ret ≠ .noData then l'.fail i.toRegistry else l'
  have hoverrun : last.overrun = l'.overrun := by
    unfold last
    split_ifs <;> rfl
  refine ⟨room + i.drivers.entries.length, ⟨last.result, last.driversDSN, last.errMsg, last.overrun⟩, ?_, ?_, ?_⟩
  · intro fuel hfuel
    have hlist := hrun fuel hfuel
    unfold start at hlist
    rw [getDriverList, hlist]
    rfl
  · rw [hoverrun, hreads.overrun]
    exact and_iff_right rfl
  · intro hfit
    refine ⟨?_, ?_, ?_⟩
    · rw [hoverrun, hreads.overrun]
      exact ⟨rfl, hfit⟩
    · intro hdrivers sources hsources
      have hunfailed : Unfailed i.toRegistry 0 i.drivers.entries.length := by
        intro j hj
        rw [Nat.zero_add, hsources j hj]
      obtain ⟨hret, hresult, hmap⟩ := hreads.loaded hunfailed
      have hnoData : ret = .noData := hret.trans (by rw [Enumeration.last, hdrivers]; rfl)
      have hsame : last = l' := if_neg (by rw [hnoData]; exact Bool.false_ne_true)
      rw [hsame]
      refine ⟨hresult, fun key => ?_⟩
      rw [hmap, lookup_loadDrivers i.drivers.entries 0 i.descriptions_nodup (fun _ _ => rfl) _ key]
      · rfl
      · intro j hj
        rw [Nat.zero_add, hsources j hj]
    · intro hfailed
      by_cases hunfailed : Unfailed i.toRegistry 0 i.drivers.entries.length
      · have hdrivers : i.drivers.failed = true := by
          refine hfailed.resolve_right fun h => not_unfailed_iff.mpr h hunfailed
        have herror : ret = .error := (hreads.loaded hunfailed).1.trans (by rw [Enumeration.last, hdrivers]; rfl)
        have hsame : last = l'.fail i.toRegistry := if_pos (by rw [herror]; rfl)
        rw [hsame]
        exact ⟨rfl, rfl⟩
      · obtain ⟨hsuccess, hresult, hmap⟩ := hreads.failed hunfailed
        have hsame : last = l' := if_neg (by rw [hsuccess]; exact Bool.false_ne_true)
        rw [hsame]
        exact ⟨hresult, hmap⟩

theorem allFit_of_listsDrivers {i : Installation} {errMsg : List Text} (h : ListsDrivers i.toRegistry errMsg) :
    AllFit i.toRegistry := by
  obtain ⟨bound, answer, hrun, hoverrun, -⟩ := getDriverList_spec i errMsg
  obtain ⟨bound', answer', hrun', hlisted'⟩ := h
  have hsame := hrun (max bound bound' + 1) (by omega)
  rw [hrun' _ (by omega)] at hsame
  obtain rfl := Option.some.inj hsame
  exact hoverrun.mp hlisted'.overrun

theorem driver_list_iff (i : Installation) (errMsg : List Text) :
    ListsDrivers i.toRegistry errMsg ↔ AllFit i.toRegistry := by
  obtain ⟨bound, answer, hrun, -, hlisted⟩ := getDriverList_spec i errMsg
  exact ⟨allFit_of_listsDrivers, fun hfit => ⟨bound, answer, hrun, hlisted hfit⟩⟩

def wordyDriver : InstalledDriver := ⟨"FreeTDS".toList, List.replicate 300 'a'⟩

def wordyInstallation : Installation where
  drivers := ⟨[wordyDriver], false⟩
  sources _ := ⟨[], false⟩
  diagnostics := []
  descriptions_nodup := by decide
  drivers_whole := by decide +kernel
  sources_whole _ _ h := absurd h List.not_mem_nil

theorem wordy_driver_overruns : ¬ListsDrivers wordyInstallation.toRegistry [] := by
  intro hlists
  have hfit := allFit_of_listsDrivers hlists
  have hlength := (hfit 0 (by decide) fun _ _ => rfl).2
  change (List.replicate 300 'a').length ≤ driverAttributesSize at hlength
  rw [List.length_replicate] at hlength
  exact absurd hlength (by decide)

end Listing

end DbHandler.Odbc
