import DbHandler.Foundation.Sql.Tokens

namespace Foundation.Sql

/-- What a character belongs to; a dash or a slash may begin a comment. -/
inductive Lexical
  | plain
  | afterDash
  | afterSlash
  | quoted (close : Char)
  | lineComment
  | blockComment
  | afterStar
  deriving DecidableEq, Repr

/-- A place of a text, with the number of parentheses that are open there. -/
structure Place where
  lexical : Lexical
  depth : ℕ
  deriving DecidableEq, Repr

def backtick : Char := Char.ofNat 96

def quoteEnd (c : Char) : Option Char :=
  if c = apostrophe ∨ c = quotation ∨ c = backtick then some c
  else if c = '[' then some ']'
  else none

/-- A parenthesis that was not opened in the text ends the scan. -/
def openStep (depth : ℕ) (c : Char) : Option Place :=
  if c = '(' then some ⟨.plain, depth + 1⟩
  else if c = ')' then (if depth = 0 then none else some ⟨.plain, depth - 1⟩)
  else if c = '-' then some ⟨.afterDash, depth⟩
  else if c = '/' then some ⟨.afterSlash, depth⟩
  else match quoteEnd c with
    | some close => some ⟨.quoted close, depth⟩
    | none => some ⟨.plain, depth⟩

/-- A doubled quote closes and opens its text again. -/
def placeStep (p : Place) (c : Char) : Option Place :=
  match p.lexical with
  | .plain => openStep p.depth c
  | .afterDash => if c = '-' then some ⟨.lineComment, p.depth⟩ else openStep p.depth c
  | .afterSlash => if c = '*' then some ⟨.blockComment, p.depth⟩ else openStep p.depth c
  | .quoted close => if c = close then some ⟨.plain, p.depth⟩ else some p
  | .lineComment => if c = '\n' then some ⟨.plain, p.depth⟩ else some p
  | .blockComment => if c = '*' then some ⟨.afterStar, p.depth⟩ else some p
  | .afterStar =>
    if c = '/' then some ⟨.plain, p.depth⟩ else if c = '*' then some p else some ⟨.blockComment, p.depth⟩

def scanPlaces (p : Place) (text : List Char) : Option Place := text.foldlM placeStep p

def Lexical.isOpen : Lexical → Bool
  | .plain => true
  | .afterDash => true
  | .afterSlash => true
  | _ => false

/-- Every parenthesis of the text is closed in it, and every quote and comment. -/
def Balanced (text : List Char) : Prop :=
  ∃ l : Lexical, l.isOpen = true ∧ scanPlaces ⟨.plain, 0⟩ text = some ⟨l, 0⟩

theorem scanPlaces_append (p : Place) (text rest : List Char) :
    scanPlaces p (text ++ rest) = (scanPlaces p text).bind fun q => scanPlaces q rest := List.foldlM_append

theorem scanPlaces_cons (p : Place) (c : Char) (text : List Char) :
    scanPlaces p (c :: text) = (placeStep p c).bind fun q => scanPlaces q text := rfl

/-- A character that neither ends nor begins anything reads the same after a dash or a slash. -/
theorem placeStep_open {l : Lexical} (h : l.isOpen = true) {c : Char} (hdash : c ≠ '-') (hstar : c ≠ '*') (depth : ℕ) :
    placeStep ⟨l, depth⟩ c = placeStep ⟨.plain, depth⟩ c := by
  cases l with
  | plain => rfl
  | afterDash => exact if_neg hdash
  | afterSlash => exact if_neg hstar
  | quoted | lineComment | blockComment | afterStar => cases h

theorem balanced_append_cons_iff {text : List Char} (h : Balanced text) {c : Char} (hdash : c ≠ '-') (hstar : c ≠ '*')
    (rest : List Char) : Balanced (text ++ c :: rest) ↔ Balanced (c :: rest) := by
  obtain ⟨l, hl, hscan⟩ := h
  have hrest : scanPlaces ⟨.plain, 0⟩ (text ++ c :: rest) = scanPlaces ⟨.plain, 0⟩ (c :: rest) := by
    rw [scanPlaces_append, hscan, Option.bind_some, scanPlaces_cons, scanPlaces_cons, placeStep_open hl hdash hstar]
  rw [Balanced, Balanced, hrest]

instance (text : List Char) : Decidable (Balanced text) :=
  match h : scanPlaces ⟨.plain, 0⟩ text with
  | none => isFalse fun ⟨_, _, hl⟩ => by rw [h] at hl; cases hl
  | some ⟨l, depth⟩ =>
    if hopen : l.isOpen = true ∧ depth = 0 then isTrue ⟨l, hopen.1, by rw [h, hopen.2]⟩
    else isFalse fun ⟨_, hm, hscan⟩ => hopen <| by
      obtain ⟨rfl, rfl⟩ := Place.mk.inj (Option.some.inj (h.symm.trans hscan))
      exact ⟨hm, rfl⟩

theorem balanced_nil : Balanced [] := by decide

end Foundation.Sql
