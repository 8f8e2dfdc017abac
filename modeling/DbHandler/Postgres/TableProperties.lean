import Mathlib.Algebra.Group.Nat.Defs
import Mathlib.Algebra.Group.Int.Defs
import Mathlib.Data.List.TakeWhile
import DbHandler.Postgres.Client
import DbHandler.TableProperties.Loading

namespace DbHandler.Postgres

open Foundation.Encoding

variable {δ : Type}

def isTablePropertiesExist (c : Client δ) (t : DatabaseTable) (s : Session δ) : Bool × Session δ :=
  let tname := PropertyStatements.qualifiedName t
  let (status, s) := s.execParams c .tablePropertiesExist [utf8 tname, utf8 t.owner]
  match status with
  | .failed err => (true, s.fail (executingQuery ++ err))
  | .tuplesOk rows => (!rows.isEmpty, s)
  | .commandOk => (false, s)

def setTableProperties (c : Client δ) (connectedUser : Text) (t : DatabaseTable) (p : TableProperties) (isLog : Bool)
    (command : Text) (s : Session δ) : ℕ × Text × Session δ :=
  let (begun, s) := s.exec c .beginTransaction
  let (done, command, s) :=
    if begun = .commandOk then
      let (exist, s) := isTablePropertiesExist c t s
      if s.errorMsg ≠ [] then (false, command, s)
      else
        let command := PropertyStatements.Driver.postgres.command exist connectedUser t p
        if isLog then (true, command, s)
        else
          let (status, s) := s.exec c (.command command)
          if status = .commandOk then (true, command, s) else (false, command, s.fail status.message)
    else (false, command, s.fail begun.message)
  let (ended, s) := s.exec c (if done then .commit else .rollback)
  if ended = .commandOk then (if done then 0 else 1, command, s) else (1, command, s.fail ended.message)

def valueText (value : Text) : Text := value.takeWhile (· ≠ Char.ofNat 0)

def isSpace (c : Char) : Bool := c = ' ' || 9 ≤ c.toNat && c.toNat ≤ 13

def decimal (t : Text) : ℕ := Nat.ofDigitChars 10 (t.takeWhile Char.isDigit) 0

def atoi (t : Text) : ℤ :=
  match t.dropWhile isSpace with
  | '-' :: ds => -decimal ds
  | '+' :: ds => decimal ds
  | ds => decimal ds

theorem ofDigitChars_lt {t : Text} (h : ∀ c ∈ t, c.isDigit = true) (init : ℕ) :
    Nat.ofDigitChars 10 t init < (init + 1) * 10 ^ t.length := by
  induction t generalizing init with
  | nil => simp
  | cons c t ih =>
    have hdigit : c.toNat - '0'.toNat ≤ 9 := by
      have hc := h c List.mem_cons_self
      simp only [Char.isDigit, Bool.and_eq_true, decide_eq_true_eq] at hc
      have hle : c.toNat ≤ 57 := hc.2
      have hzero : '0'.toNat = 48 := rfl
      omega
    rw [Nat.ofDigitChars_cons, List.length_cons, Nat.pow_succ]
    refine lt_of_lt_of_le (ih (fun d hd => h d (List.mem_cons_of_mem _ hd)) _) ?_
    calc (10 * init + (c.toNat - '0'.toNat) + 1) * 10 ^ t.length
        ≤ ((init + 1) * 10) * 10 ^ t.length := Nat.mul_le_mul_right _ (by omega)
      _ = (init + 1) * (10 ^ t.length * 10) := by rw [Nat.mul_assoc, Nat.mul_comm 10]

theorem decimal_lt (t : Text) : decimal t < 10 ^ t.length := by
  have hdigits : ∀ c ∈ t.takeWhile Char.isDigit, c.isDigit = true := fun c hc => List.mem_takeWhile_imp hc
  have hlt := ofDigitChars_lt hdigits 0
  have hlength : (t.takeWhile Char.isDigit).length ≤ t.length := (List.takeWhile_sublist _).length_le
  have hpow : 10 ^ (t.takeWhile Char.isDigit).length ≤ 10 ^ t.length := Nat.pow_le_pow_right (by omega) hlength
  rw [decimal]
  omega

theorem atoi_bounds (t : Text) : -(10 ^ t.length : ℤ) < atoi t ∧ atoi t < 10 ^ t.length := by
  have hdrop : (t.dropWhile isSpace).length ≤ t.length := (List.dropWhile_sublist _).length_le
  have hbound : ∀ us : Text, us.length ≤ t.length → (decimal us : ℤ) < 10 ^ t.length := by
    intro us hus
    have hlt := decimal_lt us
    have hpow : 10 ^ us.length ≤ 10 ^ t.length := Nat.pow_le_pow_right (by omega) hus
    exact_mod_cast hlt.trans_le hpow
  rw [atoi]
  split
  · rename_i us hus
    have hlt := hbound us (by rw [hus, List.length_cons] at hdrop; omega)
    omega
  · rename_i us hus
    have hlt := hbound us (by rw [hus, List.length_cons] at hdrop; omega)
    omega
  · have hlt := hbound _ hdrop
    omega

/-- The result is binary, and the integers are read as if it were text. -/
def readInt (row : List Text) (i : ℕ) : ℤ := atoi (valueText (row.getD i []))

def readText (row : List Text) (i : ℕ) : Text := valueText (row.getD i [])

def readFont (first : ℕ) (row : List Text) (f : LoadedFont) : LoadedFont where
  font :=
    { size := readInt row first
      weight := readInt row (first + 1)
      italic := readText row (first + 2) = ['Y']
      underline := readInt row (first + 3) ≠ 0
      strikethrough := readInt row (first + 4) ≠ 0
      encoding := f.font.encoding
      pixelSize := readInt row (first + 6)
      name := readText row (first + 7) }
  characterSet := readInt row (first + 5)

def readTableProperties (p : LoadedProperties) (row : List Text) : LoadedProperties :=
  ⟨readText row 27, readFont 3 row p.data, readFont 11 row p.heading, readFont 19 row p.label⟩

def getTableProperties (c : Client δ) (t : DatabaseTable) (p : LoadedProperties) (s : Session δ) :
    ℕ × LoadedProperties × Session δ :=
  let tname := PropertyStatements.qualifiedName t
  let (status, s) := s.execParams c .tableProperties [utf8 tname, utf8 t.owner]
  match status with
  | .failed err => (1, p, s.fail (executingQuery ++ err))
  | .tuplesOk rows => (0, rows.foldl readTableProperties p, s)
  | .commandOk => (0, p, s)

end DbHandler.Postgres
