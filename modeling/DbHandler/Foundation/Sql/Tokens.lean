import Mathlib.Data.List.Basic

namespace Foundation.Sql

inductive Token
  | word (s : List Char)
  | name (s : List Char)
  | literal (s : List Char)
  | symbol (c : Char)
  deriving DecidableEq, Repr

def apostrophe : Char := Char.ofNat 39

def quotation : Char := Char.ofNat 34

/-- Where a scanner stands: the characters of the token it is in are kept in reverse. -/
inductive Mode
  | between
  | word (acc : List Char)
  | quoted (quote : Char) (acc : List Char)
  | closed (quote : Char) (acc : List Char)
  deriving DecidableEq, Repr

structure Scan where
  done : List Token
  mode : Mode
  deriving DecidableEq, Repr

def isBlank (c : Char) : Bool := c == ' ' || c == '\n' || c == '\t' || c == '\r'

def isSymbol (c : Char) : Bool := c == ',' || c == '(' || c == ')' || c == '=' || c == ';'

def isQuote (c : Char) : Bool := c == apostrophe || c == quotation

def quotedToken (quote : Char) (s : List Char) : Token :=
  if quote = quotation then .name s else .literal s

def start (done : List Token) (c : Char) : Scan :=
  if isQuote c then ⟨done, .quoted c []⟩
  else if isBlank c then ⟨done, .between⟩
  else if isSymbol c then ⟨.symbol c :: done, .between⟩
  else ⟨done, .word [c]⟩

/-- A quote inside its own kind of token ends it, unless the next character doubles it. -/
def scanStep (s : Scan) (c : Char) : Scan :=
  match s.mode with
  | .between => start s.done c
  | .word acc =>
    if isQuote c || isBlank c || isSymbol c then start (.word acc.reverse :: s.done) c
    else ⟨s.done, .word (c :: acc)⟩
  | .quoted quote acc => if c = quote then ⟨s.done, .closed quote acc⟩ else ⟨s.done, .quoted quote (c :: acc)⟩
  | .closed quote acc =>
    if c = quote then ⟨s.done, .quoted quote (c :: acc)⟩
    else start (quotedToken quote acc.reverse :: s.done) c

def scan (s : Scan) (text : List Char) : Scan := text.foldl scanStep s

def Scan.finish (s : Scan) : Option (List Token) :=
  match s.mode with
  | .between => some s.done.reverse
  | .word acc => some (.word acc.reverse :: s.done).reverse
  | .quoted _ _ => none
  | .closed quote acc => some (quotedToken quote acc.reverse :: s.done).reverse

def tokens (text : List Char) : Option (List Token) := (scan ⟨[], .between⟩ text).finish

theorem scan_append (s : Scan) (text rest : List Char) : scan s (text ++ rest) = scan (scan s text) rest :=
  List.foldl_append

@[simp] theorem scan_nil (s : Scan) : scan s [] = s := rfl

theorem scan_cons (s : Scan) (c : Char) (text : List Char) : scan s (c :: text) = scan (scanStep s c) text := rfl

theorem scan_quoted (done : List Token) (quote : Char) (acc : List Char) {s : List Char} (h : quote ∉ s) :
    scan ⟨done, .quoted quote acc⟩ s = ⟨done, .quoted quote (s.reverse ++ acc)⟩ := by
  induction s generalizing acc with
  | nil => rfl
  | cons c s ih =>
    rw [List.mem_cons, not_or] at h
    have hc : scanStep ⟨done, .quoted quote acc⟩ c = ⟨done, .quoted quote (c :: acc)⟩ := if_neg (Ne.symm h.1)
    rw [scan_cons, hc, ih _ h.2]
    simp

def isWordChar (c : Char) : Bool := !(isQuote c || isBlank c || isSymbol c)

theorem scan_word (done : List Token) (acc : List Char) {s : List Char} (h : ∀ c ∈ s, isWordChar c = true) :
    scan ⟨done, .word acc⟩ s = ⟨done, .word (s.reverse ++ acc)⟩ := by
  induction s generalizing acc with
  | nil => rfl
  | cons c s ih =>
    have hword : (isQuote c || isBlank c || isSymbol c) = false := by simpa [isWordChar] using h c (by simp)
    have hc : scanStep ⟨done, .word acc⟩ c = ⟨done, .word (c :: acc)⟩ := if_neg (by simp [hword])
    rw [scan_cons, hc, ih _ fun c hc => h c (by simp [hc])]
    simp

def Scan.AtRest (s : Scan) : Prop :=
  match s.mode with
  | .quoted _ _ => False
  | _ => True

def Scan.flush (s : Scan) : Scan :=
  match s.mode with
  | .word acc => ⟨.word acc.reverse :: s.done, .between⟩
  | .closed quote acc => ⟨quotedToken quote acc.reverse :: s.done, .between⟩
  | _ => s

def isBreak (c : Char) : Bool := isBlank c || isSymbol c

theorem isBreak_not_isQuote {c : Char} (h : isBreak c = true) : isQuote c = false := by
  simp only [isBreak, isBlank, isSymbol, Bool.or_eq_true, beq_iff_eq] at h
  rcases h with (((rfl | rfl) | rfl) | rfl) | (((rfl | rfl) | rfl) | rfl) | rfl <;> rfl

theorem scanStep_break {s : Scan} {c : Char} (hs : s.AtRest) (hc : isBreak c = true)
    (hquote : ∀ quote acc, s.mode = .closed quote acc → isQuote quote = true) :
    scanStep s c = scanStep s.flush c := by
  obtain ⟨done, mode⟩ := s
  have hnot := isBreak_not_isQuote hc
  cases mode with
  | between => rfl
  | word acc =>
    rw [isBreak] at hc
    exact if_pos (by simp only [Bool.or_assoc, hc, Bool.or_true])
  | quoted quote acc => exact hs.elim
  | closed quote acc =>
    have hne : c ≠ quote := by
      rintro rfl
      simp [hquote c acc rfl] at hnot
    exact if_neg hne

/-- Scanned from rest, the text yields these tokens, the last of which may still be open to more text. -/
structure Reads (text : List Char) (toks : List Token) : Prop where
  rest : ∀ done, (scan ⟨done, .between⟩ text).AtRest
  quote : ∀ done quote acc, (scan ⟨done, .between⟩ text).mode = .closed quote acc → isQuote quote = true
  flush : ∀ done, (scan ⟨done, .between⟩ text).flush = ⟨toks.reverse ++ done, .between⟩

def ReadsClean (text : List Char) (toks : List Token) : Prop :=
  ∀ done, scan ⟨done, .between⟩ text = ⟨toks.reverse ++ done, .between⟩

def StartsWithBreak (text : List Char) : Prop := ∀ c ∈ text.head?, isBreak c = true

namespace Reads

theorem append {a b : List Char} {as bs : List Token} (ha : Reads a as) (hb : Reads b bs)
    (hbreak : StartsWithBreak b) : Reads (a ++ b) (as ++ bs) := by
  rcases b with _ | ⟨c, b⟩
  · have hnil : bs = [] := by simpa [Scan.flush] using hb.flush []
    simpa [hnil] using ha
  · have hscan : ∀ done, scan ⟨done, .between⟩ (a ++ c :: b) = scan ⟨as.reverse ++ done, .between⟩ (c :: b) := by
      intro done
      rw [scan_append, scan_cons, scanStep_break (ha.rest done) (hbreak c rfl) (ha.quote done), ha.flush done]
      rfl
    refine ⟨fun done => ?_, fun done => ?_, fun done => ?_⟩ <;> rw [hscan]
    · exact hb.rest _
    · exact hb.quote _
    · rw [hb.flush]
      simp

theorem tokens_eq {text : List Char} {toks : List Token} (h : Reads text toks) : tokens text = some toks := by
  have hrest := h.rest []
  have hflush := h.flush []
  rw [tokens]
  cases hs : scan ⟨[], .between⟩ text with
  | mk done mode =>
    rw [hs] at hrest hflush
    cases mode with
    | quoted quote acc => exact hrest.elim
    | between | word acc | closed quote acc =>
      simp only [Scan.flush, Scan.mk.injEq, and_true, List.append_nil] at hflush
      simp [Scan.finish, hflush]

theorem literal {s : List Char} (h : apostrophe ∉ s) : Reads (apostrophe :: s ++ [apostrophe]) [.literal s] := by
  have hscan : ∀ done, scan ⟨done, .between⟩ (apostrophe :: s ++ [apostrophe]) = ⟨done, .closed apostrophe s.reverse⟩ := by
    intro done
    rw [scan_append, scan_cons]
    change scan (scan ⟨done, .quoted apostrophe []⟩ s) [apostrophe] = _
    rw [scan_quoted _ _ _ h, List.append_nil]
    rfl
  refine ⟨fun done => ?_, fun done quote acc => ?_, fun done => ?_⟩ <;> rw [hscan]
  · trivial
  · rintro ⟨⟩
    rfl
  · simp [Scan.flush, quotedToken, apostrophe, quotation]

theorem name {s : List Char} (h : quotation ∉ s) : Reads (quotation :: s ++ [quotation]) [.name s] := by
  have hscan : ∀ done, scan ⟨done, .between⟩ (quotation :: s ++ [quotation]) = ⟨done, .closed quotation s.reverse⟩ := by
    intro done
    rw [scan_append, scan_cons]
    change scan (scan ⟨done, .quoted quotation []⟩ s) [quotation] = _
    rw [scan_quoted _ _ _ h, List.append_nil]
    rfl
  refine ⟨fun done => ?_, fun done quote acc => ?_, fun done => ?_⟩ <;> rw [hscan]
  · trivial
  · rintro ⟨⟩
    rfl
  · simp [Scan.flush, quotedToken]

theorem word {s : List Char} (hne : s ≠ []) (h : ∀ c ∈ s, isWordChar c = true) : Reads s [.word s] := by
  have hscan : ∀ done, scan ⟨done, .between⟩ s = ⟨done, .word s.reverse⟩ := by
    intro done
    cases s with
    | nil => exact absurd rfl hne
    | cons c s =>
      have hc : isQuote c = false ∧ isBlank c = false ∧ isSymbol c = false := by
        simpa [isWordChar, and_assoc] using h c (by simp)
      have hstep : scanStep ⟨done, .between⟩ c = ⟨done, .word [c]⟩ := by
        simp [scanStep, start, hc.1, hc.2.1, hc.2.2]
      rw [scan_cons, hstep, scan_word _ _ fun c hc => h c (by simp [hc])]
      simp
  refine ⟨fun done => ?_, fun done quote acc => ?_, fun done => ?_⟩ <;> rw [hscan]
  · trivial
  · rintro ⟨⟩
  · simp [Scan.flush]

end Reads

namespace ReadsClean

theorem reads {text : List Char} {toks : List Token} (h : ReadsClean text toks) : Reads text toks := by
  refine ⟨fun done => ?_, fun done quote acc => ?_, fun done => ?_⟩ <;> rw [h done]
  · trivial
  · rintro ⟨⟩
  · rfl

theorem append {a b : List Char} {as bs : List Token} (ha : ReadsClean a as) (hb : Reads b bs) :
    Reads (a ++ b) (as ++ bs) := by
  have hscan : ∀ done, scan ⟨done, .between⟩ (a ++ b) = scan ⟨as.reverse ++ done, .between⟩ b := by
    intro done
    rw [scan_append, ha done]
  refine ⟨fun done => ?_, fun done => ?_, fun done => ?_⟩ <;> rw [hscan]
  · exact hb.rest _
  · exact hb.quote _
  · rw [hb.flush]
    simp

theorem trans {a b : List Char} {as bs : List Token} (ha : ReadsClean a as) (hb : ReadsClean b bs) :
    ReadsClean (a ++ b) (as ++ bs) := by
  intro done
  rw [scan_append, ha done, hb, List.reverse_append, List.append_assoc]

end ReadsClean

section Words

structure IsWord (s : List Char) : Prop where
  nonempty : s ≠ []
  chars : ∀ c ∈ s, isWordChar c = true

theorem scan_isWord (done : List Token) {s : List Char} (h : IsWord s) :
    scan ⟨done, .between⟩ s = ⟨done, .word s.reverse⟩ := by
  cases s with
  | nil => exact absurd rfl h.nonempty
  | cons c s =>
    have hc : isQuote c = false ∧ isBlank c = false ∧ isSymbol c = false := by
      simpa [isWordChar, and_assoc] using h.chars c (by simp)
    have hstep : scanStep ⟨done, .between⟩ c = ⟨done, .word [c]⟩ := by
      simp [scanStep, start, hc.1, hc.2.1, hc.2.2]
    rw [scan_cons, hstep, scan_word _ _ fun c hc => h.chars c (by simp [hc])]
    simp

theorem ReadsClean.word {s : List Char} (h : IsWord s) : ReadsClean (s ++ [' ']) [.word s] := by
  intro done
  rw [scan_append, scan_isWord done h, scan_cons]
  change start (.word s.reverse.reverse :: done) ' ' = _
  rw [List.reverse_reverse]
  rfl

theorem ReadsClean.wordSymbol {s : List Char} (h : IsWord s) {c : Char} (hc : isSymbol c = true) :
    ReadsClean (s ++ [c]) [.word s, .symbol c] := by
  intro done
  have hbreak : isBreak c = true := by simp [isBreak, hc]
  have hquote := isBreak_not_isQuote hbreak
  have hblank : isBlank c = false := by
    simp only [isSymbol, Bool.or_eq_true, beq_iff_eq] at hc
    rcases hc with (((rfl | rfl) | rfl) | rfl) | rfl <;> rfl
  have hstep : scanStep ⟨done, .word s.reverse⟩ c = start (.word s.reverse.reverse :: done) c := if_pos (by simp [hc])
  rw [scan_append, scan_isWord done h, scan_cons, hstep, List.reverse_reverse, start, if_neg (by simp [hquote]),
    if_neg (by simp [hblank]), if_pos hc]
  rfl

def Scan.Worded (s : Scan) : Prop :=
  (∀ w, Token.word w ∈ s.done → IsWord w) ∧ ∀ acc, s.mode = .word acc → IsWord acc.reverse

theorem worded_start {done : List Token} (h : ∀ w, Token.word w ∈ done → IsWord w) (c : Char) :
    (start done c).Worded := by
  rw [start]
  split_ifs with hquote hblank hsymbol
  · exact ⟨h, by simp⟩
  · exact ⟨h, by simp⟩
  · exact ⟨by simpa using h, by simp⟩
  · refine ⟨h, fun acc hacc => ?_⟩
    obtain rfl : [c] = acc := by simpa using hacc
    exact ⟨by simp, by simp [isWordChar, hquote, hblank, hsymbol]⟩

theorem Scan.Worded.step {s : Scan} (h : s.Worded) (c : Char) : (scanStep s c).Worded := by
  obtain ⟨done, mode⟩ := s
  obtain ⟨hdone, hmode⟩ := h
  rw [scanStep]
  cases mode with
  | between => exact worded_start hdone c
  | word acc =>
    dsimp only
    split_ifs with hc
    · refine worded_start (fun w hw => ?_) c
      rcases List.mem_cons.mp hw with heq | hw
      · obtain rfl : w = acc.reverse := by simpa using heq
        exact hmode acc rfl
      · exact hdone w hw
    · refine ⟨hdone, fun acc' hacc => ?_⟩
      obtain rfl : c :: acc = acc' := by simpa using hacc
      have hchar : isWordChar c = true := by simpa [isWordChar] using hc
      refine ⟨by simp, fun d hd => ?_⟩
      simp only [List.reverse_cons, List.mem_append, List.mem_singleton] at hd
      exact hd.elim ((hmode acc rfl).chars d) fun heq => heq ▸ hchar
  | quoted quote acc =>
    dsimp only
    split_ifs <;> exact ⟨hdone, by simp⟩
  | closed quote acc =>
    dsimp only
    split_ifs
    · exact ⟨hdone, by simp⟩
    · refine worded_start (fun w hw => ?_) c
      rcases List.mem_cons.mp hw with heq | hw
      · rw [quotedToken] at heq
        split_ifs at heq
      · exact hdone w hw

theorem Scan.Worded.scan {s : Scan} (h : s.Worded) (text : List Char) : (scan s text).Worded := by
  induction text generalizing s with
  | nil => exact h
  | cons c text ih => exact ih (h.step c)

theorem isWord_of_mem_tokens {text : List Char} {toks : List Token} (h : tokens text = some toks) {w : List Char}
    (hw : .word w ∈ toks) : IsWord w := by
  have hworded : (scan ⟨[], .between⟩ text).Worded := Scan.Worded.scan ⟨by simp, by simp⟩ text
  rw [tokens, Scan.finish] at h
  obtain ⟨hdone, hmode⟩ := hworded
  split at h
  · obtain rfl := Option.some.inj h
    exact hdone w (List.mem_reverse.mp hw)
  · rename_i acc hacc
    obtain rfl := Option.some.inj h
    rcases List.mem_cons.mp (List.mem_reverse.mp hw) with heq | hw
    · obtain rfl : w = acc.reverse := by simpa using heq
      exact hmode acc hacc
    · exact hdone w hw
  · cases h
  · obtain rfl := Option.some.inj h
    rcases List.mem_cons.mp (List.mem_reverse.mp hw) with heq | hw
    · rw [quotedToken] at heq
      split_ifs at heq
    · exact hdone w hw

end Words

end Foundation.Sql
