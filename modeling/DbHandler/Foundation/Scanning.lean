import DbHandler.Foundation.Decimal

namespace Foundation.Scanning

open Decimal

/-- `printf` of `%d` or `%ld`. -/
def ofInt : ℤ → List Char
  | .ofNat n => Nat.toDigits 10 n
  | .negSucc n => '-' :: Nat.toDigits 10 (n + 1)

def afterSign : List Char → List Char
  | '-' :: t => t
  | '+' :: t => t
  | t => t

/-- `scanf` of one `%d`: the number that is read, and the text behind it. -/
def scan (t : List Char) : Option (ℤ × List Char) :=
  (signed (t.dropWhile isSpace)).map fun n => (n, (afterSign (t.dropWhile isSpace)).dropWhile Char.isDigit)

/-- `scanf` of `count` numbers with a separator between them: the ones that are read before it stops. -/
def scanAll (sep : Char) : ℕ → List Char → List ℤ
  | 0, _ => []
  | count + 1, t =>
    match scan t with
    | none => []
    | some (n, c :: rest) => if c = sep then n :: scanAll sep count rest else [n]
    | some (n, []) => [n]

/-- `strtol` where the text has to be a number from end to end. -/
def whole (t : List Char) : Option ℤ :=
  match scan t with
  | some (n, []) => some n
  | _ => none

theorem takeWhile_isDigit_append (n : ℕ) {rest : List Char} (h : ∀ c ∈ rest.head?, c.isDigit = false) :
    (Nat.toDigits 10 n ++ rest).takeWhile Char.isDigit = Nat.toDigits 10 n ∧
      (Nat.toDigits 10 n ++ rest).dropWhile Char.isDigit = rest := by
  have hdigits : ∀ c ∈ Nat.toDigits 10 n, c.isDigit = true :=
    fun c hc => Nat.isDigit_of_mem_toDigits (by omega) (by omega) hc
  rw [List.takeWhile_append_of_pos hdigits, List.dropWhile_append_of_pos hdigits]
  cases rest with
  | nil => simp
  | cons c rest =>
    have hc : c.isDigit = false := h c rfl
    simp [hc]

theorem natural_append (n : ℕ) {rest : List Char} (h : ∀ c ∈ rest.head?, c.isDigit = false) :
    natural (Nat.toDigits 10 n ++ rest) = some n := by
  rw [natural, (takeWhile_isDigit_append n h).1, if_neg Nat.toDigits_ne_nil, Nat.ofDigitChars_ten_toDigits]

theorem exists_digit (n : ℕ) : ∃ c t, Nat.toDigits 10 n = c :: t ∧ c.isDigit = true := by
  obtain ⟨c, t, hct⟩ := List.exists_cons_of_ne_nil (Nat.toDigits_ne_nil (b := 10) (n := n))
  refine ⟨c, t, hct, ?_⟩
  apply Nat.isDigit_of_mem_toDigits (b := 10) (n := n) (by omega) (by omega)
  rw [hct]
  exact List.mem_cons_self

theorem afterSign_of_isDigit {c : Char} (t : List Char) (hc : c.isDigit = true) : afterSign (c :: t) = c :: t := by
  unfold afterSign
  split
  · next h =>
    obtain ⟨rfl, -⟩ := List.cons.inj h
    exact absurd hc (by decide)
  · next h =>
    obtain ⟨rfl, -⟩ := List.cons.inj h
    exact absurd hc (by decide)
  · rfl

/-- A printed number is read back, up to the text behind it. -/
theorem scan_ofInt (n : ℤ) (rest : List Char) (h : ∀ c ∈ rest.head?, c.isDigit = false) :
    scan (ofInt n ++ rest) = some (n, rest) := by
  cases n with
  | ofNat n =>
    obtain ⟨c, t, hct, hc⟩ := exists_digit n
    have hdrop : (Nat.toDigits 10 n ++ rest).dropWhile isSpace = Nat.toDigits 10 n ++ rest := by
      rw [hct, List.cons_append, List.dropWhile_cons_of_neg (by simp [isSpace_of_isDigit hc])]
    have hnatural := natural_append n h
    have hbehind := (takeWhile_isDigit_append n h).2
    rw [ofInt, scan, hdrop]
    rw [hct, List.cons_append] at hnatural hbehind ⊢
    rw [signed_of_isDigit _ hc, afterSign_of_isDigit _ hc, hnatural, hbehind]
    rfl
  | negSucc n =>
    have hdrop : ('-' :: Nat.toDigits 10 (n + 1) ++ rest).dropWhile isSpace =
        '-' :: (Nat.toDigits 10 (n + 1) ++ rest) := rfl
    rw [ofInt, scan, hdrop, signed, afterSign, natural_append _ h, (takeWhile_isDigit_append _ h).2]
    rfl

theorem whole_ofInt (n : ℤ) : whole (ofInt n) = some n := by
  have hscan := scan_ofInt n [] (by simp)
  rw [List.append_nil] at hscan
  rw [whole, hscan]

theorem scanAll_intercalate (sep : Char) (hsep : sep.isDigit = false) (ns : List ℤ) :
    scanAll sep ns.length ([sep].intercalate (ns.map ofInt)) = ns := by
  induction ns with
  | nil => rfl
  | cons n ns ih =>
    cases ns with
    | nil =>
      have hscan := scan_ofInt n [] (by simp)
      rw [List.append_nil] at hscan
      simp [scanAll, hscan]
    | cons m ns =>
      have hscan := scan_ofInt n (sep :: [sep].intercalate ((m :: ns).map ofInt)) (by simp [hsep])
      have htext : [sep].intercalate ((n :: m :: ns).map ofInt) =
          ofInt n ++ sep :: [sep].intercalate ((m :: ns).map ofInt) := by
        rw [List.map_cons, List.map_cons, List.intercalate_cons_cons, List.append_assoc, List.singleton_append]
      rw [htext, List.length_cons, scanAll, hscan]
      simp only [if_true]
      rw [ih]

theorem not_mem_ofInt {c : Char} (hdigit : c.isDigit = false) (hsign : c ≠ '-') (n : ℤ) : c ∉ ofInt n := by
  cases n with
  | ofNat n => exact not_mem_toDigits hdigit n
  | negSucc n =>
    rw [ofInt, List.mem_cons, not_or]
    exact ⟨hsign, not_mem_toDigits hdigit _⟩

theorem ofInt_ne_nil (n : ℤ) : ofInt n ≠ [] := by
  cases n with
  | ofNat n => exact Nat.toDigits_ne_nil
  | negSucc n => exact List.cons_ne_nil _ _

theorem ofInt_injective : Function.Injective ofInt := by
  intro n m h
  have hn := whole_ofInt n
  rw [h, whole_ofInt] at hn
  exact (Option.some.inj hn).symm

/-- `wxStringTokenizer` with `wxTOKEN_STRTOK`: empty tokens are left out. -/
def tokens (sep : Char) (t : List Char) : List (List Char) := (t.splitOn sep).filter (· ≠ [])

theorem tokens_intercalate {sep : Char} {parts : List (List Char)} (hsep : ∀ part ∈ parts, sep ∉ part)
    (hparts : ∀ part ∈ parts, part ≠ []) (hne : parts ≠ []) : tokens sep ([sep].intercalate parts) = parts := by
  rw [tokens, List.splitOn_intercalate sep hsep hne]
  apply List.filter_eq_self.mpr
  intro part hpart
  simpa using hparts part hpart

end Foundation.Scanning
