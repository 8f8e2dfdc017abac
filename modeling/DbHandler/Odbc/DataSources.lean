import DbHandler.Odbc.DriverManager

namespace DbHandler.Odbc

inductive Direction
  | first
  | next
  deriving DecidableEq, Repr

/-- The entries that a run over them gives, and whether it ends with an error instead of `SQL_NO_DATA`. -/
structure Enumeration (α : Type) where
  entries : List α
  failed : Bool

def Enumeration.last {α : Type} (e : Enumeration α) : Ret := if e.failed then .error else .noData

structure InstalledDriver where
  description : Text
  attributes : Text
  deriving DecidableEq, Repr

structure DataSource where
  name : Text
  description : Text
  deriving DecidableEq, Repr

/-- The driver manager with what is installed; `sources` is indexed by the runs over the data sources, and
`diagnostics` are the messages of the environment. -/
structure Registry where
  drivers : Enumeration InstalledDriver
  sources : ℕ → Enumeration DataSource
  diagnostics : List Text

/-- How many runs have been started, and the entry that is next in the last one. -/
structure Position where
  runs : ℕ
  entry : ℕ
  deriving DecidableEq, Repr

def Position.move (p : Position) : Direction → Position
  | .first => ⟨p.runs + 1, 0⟩
  | .next => p

section Calls

def fits (size : ℕ) (t : Text) : Bool := t.length < size

/-- What a buffer of so many characters is given of a text. -/
def cutFor (size : ℕ) (t : Text) : Text := t.take (size - 1)

/-- The lengths that `SQLDrivers` is given, in characters: `sizeof( driverDesc ) - 1` and `sizeof( driverAttributes )`. -/
def driverDescLength : ℕ := 2047

def driverAttributesLength : ℕ := 512

/-- The characters there are in `driverDesc` and in `driverAttributes`. -/
def driverDescSize : ℕ := 1024

def driverAttributesSize : ℕ := 256

def maxDsnLength : ℕ := 32

def dsnDescrLength : ℕ := 254

/-- `overrun`: the call has written past the end of a buffer. -/
structure DriverReply where
  ret : Ret
  driverDesc : Text
  overrun : Bool

structure SourceReply where
  ret : Ret
  dsn : Text
  dsnDescr : Text

def InstalledDriver.Whole (d : InstalledDriver) : Prop :=
  d.description.length < driverDescLength ∧ d.attributes.length ≤ driverAttributesLength

def InstalledDriver.Fits (d : InstalledDriver) : Prop :=
  d.description.length < driverDescSize ∧ d.attributes.length ≤ driverAttributesSize

def DataSource.Whole (s : DataSource) : Prop :=
  s.name.length < maxDsnLength ∧ s.description.length < dsnDescrLength

instance : DecidablePred InstalledDriver.Whole := fun _ => inferInstanceAs (Decidable (_ ∧ _))

instance : DecidablePred InstalledDriver.Fits := fun _ => inferInstanceAs (Decidable (_ ∧ _))

instance : DecidablePred DataSource.Whole := fun _ => inferInstanceAs (Decidable (_ ∧ _))

variable (r : Registry)

/-- The attributes come with their terminators. -/
def Registry.sqlDrivers (direction : Direction) (p : Position) : DriverReply × Position :=
  let p := p.move direction
  match r.drivers.entries[p.entry]? with
  | some d =>
    (⟨if d.Whole then .success else .successWithInfo, cutFor driverDescLength d.description, !decide d.Fits⟩,
      { p with entry := p.entry + 1 })
  | none => (⟨r.drivers.last, [], false⟩, { p with entry := 0 })

def Registry.sqlDataSources (direct : Direction) (p : Position) : SourceReply × Position :=
  let p := p.move direct
  match (r.sources p.runs).entries[p.entry]? with
  | some s =>
    (⟨if s.Whole then .success else .successWithInfo, cutFor maxDsnLength s.name,
      cutFor dsnDescrLength s.description⟩, { p with entry := p.entry + 1 })
  | none => (⟨(r.sources p.runs).last, [], []⟩, { p with entry := 0 })

end Calls

section Lemmas

variable {r : Registry} {p : Position} {direct : Direction} {d : InstalledDriver} {s : DataSource}

theorem getElem?_of_drop {α : Type} {xs rest : List α} {i : ℕ} {x : α} (h : xs.drop i = x :: rest) :
    xs[i]? = some x ∧ xs.drop (i + 1) = rest := by
  constructor
  · rw [← Nat.add_zero i, ← List.getElem?_drop, h]
    rfl
  · rw [← List.tail_drop, h, List.tail_cons]

theorem getElem?_of_drop_nil {α : Type} {xs : List α} {i : ℕ} (h : xs.drop i = []) : xs[i]? = none :=
  List.getElem?_eq_none (List.drop_eq_nil_iff.mp h)

theorem cutFor_of_lt {size : ℕ} {t : Text} (h : t.length < size) : cutFor size t = t := by
  apply List.take_of_length_le
  omega

theorem last_ne_success {α : Type} (e : Enumeration α) : e.last ≠ .success := by
  unfold Enumeration.last
  split_ifs <;> exact Ret.noConfusion

theorem sqlDrivers_some (h : r.drivers.entries[(p.move direct).entry]? = some d) (hd : d.Whole) :
    r.sqlDrivers direct p = (⟨.success, d.description, !decide d.Fits⟩,
      { p.move direct with entry := (p.move direct).entry + 1 }) := by
  simp only [Registry.sqlDrivers, h, if_pos hd, cutFor_of_lt hd.1]

theorem sqlDrivers_none (h : r.drivers.entries[(p.move direct).entry]? = none) :
    r.sqlDrivers direct p = (⟨r.drivers.last, [], false⟩, { p.move direct with entry := 0 }) := by
  simp only [Registry.sqlDrivers, h]

theorem sqlDataSources_some (h : (r.sources (p.move direct).runs).entries[(p.move direct).entry]? = some s) :
    r.sqlDataSources direct p =
      (⟨if s.Whole then .success else .successWithInfo, cutFor maxDsnLength s.name,
        cutFor dsnDescrLength s.description⟩, { p.move direct with entry := (p.move direct).entry + 1 }) := by
  simp only [Registry.sqlDataSources, h]

theorem sqlDataSources_whole (h : (r.sources (p.move direct).runs).entries[(p.move direct).entry]? = some s)
    (hs : s.Whole) : r.sqlDataSources direct p =
      (⟨.success, s.name, s.description⟩, { p.move direct with entry := (p.move direct).entry + 1 }) := by
  rw [sqlDataSources_some h, if_pos hs, cutFor_of_lt hs.1, cutFor_of_lt hs.2]

theorem sqlDataSources_none (h : (r.sources (p.move direct).runs).entries[(p.move direct).entry]? = none) :
    r.sqlDataSources direct p =
      (⟨(r.sources (p.move direct).runs).last, [], []⟩, { p.move direct with entry := 0 }) := by
  simp only [Registry.sqlDataSources, h]

end Lemmas

end DbHandler.Odbc
