import Mathlib.Data.Int.Notation
import DbHandler.Foundation.Sql.Tokens

namespace Foundation.Sql

inductive Value
  | text (s : List Char)
  | number (n : ℤ)
  deriving DecidableEq, Repr

def Value.content : Value → List Char
  | text s => s
  | number n => (toString n).toList

def Value.render : Value → List Char
  | text s => apostrophe :: s ++ [apostrophe]
  | number n => (toString n).toList

def Value.token : Value → Token
  | text s => .literal s
  | number n => .word (toString n).toList

def Value.QuoteFree : Value → Prop
  | text s => apostrophe ∉ s
  | number _ => True

@[simp] theorem Value.text_quoteFree (s : List Char) : (Value.text s).QuoteFree ↔ apostrophe ∉ s := Iff.rfl

@[simp] theorem Value.number_quoteFree (n : ℤ) : (Value.number n).QuoteFree := trivial

abbrev Pair := List Char × Token

structure Update where
  table : List Char
  assignments : List Pair
  conditions : List Pair
  deriving DecidableEq, Repr

def pairTokens (separator : Token) : List Pair → List Token
  | [] => []
  | [(column, value)] => [.name column, .symbol '=', value]
  | (column, value) :: ps => .name column :: .symbol '=' :: value :: separator :: pairTokens separator ps

def Update.tokens (u : Update) : List Token :=
  .word "UPDATE".toList :: .name u.table :: .word "SET".toList ::
    (pairTokens (.symbol ',') u.assignments ++ .word "WHERE".toList ::
      (pairTokens (.word "AND".toList) u.conditions ++ [.symbol ';']))

def parsePairs (separator : Token) : List Token → Option (List Pair × List Token)
  | .name column :: .symbol c :: value :: t :: rest =>
    if c = '=' then
      if t = separator then (parsePairs separator rest).map fun r => ((column, value) :: r.1, r.2)
      else some ([(column, value)], t :: rest)
    else none
  | _ => none

def parseUpdate : List Token → Option Update
  | .word update :: .name table :: .word set :: toks =>
    if update = "UPDATE".toList ∧ set = "SET".toList then
      match parsePairs (.symbol ',') toks with
      | some (assignments, .word w :: toks) =>
        if w = "WHERE".toList then
          match parsePairs (.word "AND".toList) toks with
          | some (conditions, toks) => if toks = [.symbol ';'] then some ⟨table, assignments, conditions⟩ else none
          | none => none
        else none
      | _ => none
    else none
  | _ => none

def interpretUpdate (text : List Char) : Option Update := (tokens text).bind parseUpdate

theorem parsePairs_pairTokens {separator t : Token} (ht : t ≠ separator) (rest : List Token) {ps : List Pair}
    (hps : ps ≠ []) : parsePairs separator (pairTokens separator ps ++ t :: rest) = some (ps, t :: rest) := by
  induction ps with
  | nil => exact absurd rfl hps
  | cons p ps ih =>
    obtain ⟨column, value⟩ := p
    cases ps with
    | nil => simp [pairTokens, parsePairs, ht]
    | cons q ps =>
      have hrest := ih (List.cons_ne_nil q ps)
      simp [pairTokens, parsePairs, hrest]

theorem parseUpdate_tokens {u : Update} (ha : u.assignments ≠ []) (hc : u.conditions ≠ []) :
    parseUpdate u.tokens = some u := by
  have hset := parsePairs_pairTokens (show Token.word "WHERE".toList ≠ .symbol ',' by simp)
    (pairTokens (.word "AND".toList) u.conditions ++ [.symbol ';']) ha
  have hwhere := parsePairs_pairTokens (show Token.symbol ';' ≠ .word "AND".toList by simp) [] hc
  rw [Update.tokens, parseUpdate, if_pos ⟨rfl, rfl⟩, hset]
  simp only [if_true, hwhere]

structure Insert where
  table : List Char
  values : List Token
  deriving DecidableEq, Repr

def valueTokens : List Token → List Token
  | [] => []
  | [value] => [value]
  | value :: values => value :: .symbol ',' :: valueTokens values

def Insert.tokens (i : Insert) : List Token :=
  .word "INSERT".toList :: .word "INTO".toList :: .name i.table :: .word "VALUES".toList :: .symbol '(' ::
    (valueTokens i.values ++ [.symbol ')', .symbol ';'])

def parseValues : List Token → Option (List Token × List Token)
  | value :: .symbol c :: rest =>
    if c = ',' then (parseValues rest).map fun r => (value :: r.1, r.2)
    else if c = ')' then some ([value], rest)
    else none
  | _ => none

def parseInsert : List Token → Option Insert
  | .word insert :: .word into :: .name table :: .word values :: .symbol c :: toks =>
    if insert = "INSERT".toList ∧ into = "INTO".toList ∧ values = "VALUES".toList ∧ c = '(' then
      match parseValues toks with
      | some (values, toks) => if toks = [.symbol ';'] then some ⟨table, values⟩ else none
      | none => none
    else none
  | _ => none

def interpretInsert (text : List Char) : Option Insert := (tokens text).bind parseInsert

theorem parseValues_valueTokens (rest : List Token) {vs : List Token} (hvs : vs ≠ []) :
    parseValues (valueTokens vs ++ .symbol ')' :: rest) = some (vs, rest) := by
  induction vs with
  | nil => exact absurd rfl hvs
  | cons v vs ih =>
    cases vs with
    | nil => simp [valueTokens, parseValues]
    | cons w vs =>
      have hrest := ih (List.cons_ne_nil w vs)
      simp [valueTokens, parseValues, hrest]

theorem parseInsert_tokens {i : Insert} (h : i.values ≠ []) : parseInsert i.tokens = some i := by
  rw [Insert.tokens, parseInsert, if_pos ⟨rfl, rfl, rfl, rfl⟩, parseValues_valueTokens _ h]
  simp

abbrev Row := List Char → Option (List Char)

def Token.content : Token → List Char
  | .word s => s
  | .name s => s
  | .literal s => s
  | .symbol c => [c]

/-- Where a column is assigned more than once, the last assignment stands. -/
def Update.apply (u : Update) (row : Row) : Row := fun column =>
  match u.assignments.reverse.find? (·.1 = column) with
  | some p => some p.2.content
  | none => row column

def Update.Selects (u : Update) (row : Row) : Prop := ∀ p ∈ u.conditions, row p.1 = some p.2.content

def Insert.row (columns : List (List Char)) (i : Insert) : Row := fun column =>
  ((columns.zip i.values).find? (·.1 = column)).map (·.2.content)

instance (u : Update) (row : Row) : Decidable (u.Selects row) :=
  inferInstanceAs (Decidable (∀ p ∈ u.conditions, row p.1 = some p.2.content))

def pairText (column : List Char) (value : Value) : List Char :=
  quotation :: column ++ [quotation] ++ " = ".toList ++ value.render

def pairsText (first : List Char × Value) (others : List (List Char × List Char × Value)) : List Char :=
  pairText first.1 first.2 ++ others.flatMap fun p => p.1 ++ pairText p.2.1 p.2.2

def valuesText (first : Value) (others : List Value) : List Char :=
  first.render ++ others.flatMap fun v => ", ".toList ++ v.render

theorem isWordChar_of_isDigit {c : Char} (h : c.isDigit = true) : isWordChar c = true := by
  rcases Bool.eq_false_or_eq_true (isQuote c || isBlank c || isSymbol c) with hc | hc
  · simp only [isQuote, isBlank, isSymbol, apostrophe, quotation, Bool.or_eq_true, beq_iff_eq] at hc
    rcases hc with ((rfl | rfl) | (((rfl | rfl) | rfl) | rfl)) | (((rfl | rfl) | rfl) | rfl) | rfl <;> cases h
  · simp [isWordChar, hc]

theorem nat_repr_wordChar (n : ℕ) : ∀ c ∈ n.repr.toList, isWordChar c = true := by
  intro c hc
  rw [Nat.toList_repr] at hc
  exact isWordChar_of_isDigit (Nat.isDigit_of_mem_toDigits (by decide) (by decide) hc)

theorem int_toString_wordChar (n : ℤ) : ∀ c ∈ (toString n).toList, isWordChar c = true := by
  intro c hc
  rw [Int.toString_eq_repr, Int.repr_eq_if] at hc
  split_ifs at hc
  · exact nat_repr_wordChar _ c hc
  · rw [String.toList_append, List.mem_append] at hc
    rcases hc with hc | hc
    · obtain rfl : c = '-' := by simpa using hc
      rfl
    · exact nat_repr_wordChar _ c hc

theorem int_toString_ne_nil (n : ℤ) : (toString n).toList ≠ [] := by
  rw [Int.toString_eq_repr, Int.repr_eq_if]
  split_ifs
  · rw [Nat.toList_repr]
    exact Nat.toDigits_ne_nil
  · rw [String.toList_append]
    exact List.append_ne_nil_of_left_ne_nil (List.cons_ne_nil '-' []) _

theorem reads_value {v : Value} (h : v.QuoteFree) : Reads v.render [v.token] := by
  cases v with
  | text s => exact Reads.literal h
  | number n => exact Reads.word (int_toString_ne_nil n) (int_toString_wordChar n)

theorem reads_pairText {column : List Char} {value : Value} (hcolumn : quotation ∉ column)
    (hvalue : value.QuoteFree) :
    Reads (pairText column value) [.name column, .symbol '=', value.token] := by
  have heq : ReadsClean " = ".toList [.symbol '='] := fun done => rfl
  have hbreak : StartsWithBreak (" = ".toList ++ value.render) := by
    rintro c ⟨⟩
    rfl
  rw [pairText, List.append_assoc]
  exact (Reads.name hcolumn).append (heq.append (reads_value hvalue)) hbreak

def pairOf (column : List Char) (value : Value) : Pair := (column, value.token)

theorem reads_append_flatMap {α : Type*} {text : α → List Char} {toks : α → List Token} {ps : List α}
    {a : List Char} {as : List Token} (ha : Reads a as)
    (hps : ∀ p ∈ ps, Reads (text p) (toks p) ∧ StartsWithBreak (text p)) :
    Reads (a ++ ps.flatMap text) (as ++ ps.flatMap toks) := by
  induction ps generalizing a as with
  | nil => simpa using ha
  | cons p ps ih =>
    obtain ⟨hread, hbreak⟩ := hps p (by simp)
    simpa using ih (ha.append hread hbreak) fun q hq => hps q (by simp [hq])

theorem pairTokens_cons (separator : Token) (p : Pair) (ps : List Pair) :
    pairTokens separator (p :: ps) = [.name p.1, .symbol '=', p.2] ++
      ps.flatMap fun q => [separator, .name q.1, .symbol '=', q.2] := by
  induction ps generalizing p with
  | nil => rfl
  | cons q ps ih => simp [pairTokens, ih q]

theorem valueTokens_cons (v : Token) (vs : List Token) :
    valueTokens (v :: vs) = [v] ++ vs.flatMap fun w => [.symbol ',', w] := by
  induction vs generalizing v with
  | nil => rfl
  | cons w vs ih => simp [valueTokens, ih w]

theorem StartsWithBreak.append {a : List Char} (ha : StartsWithBreak a) (hne : a ≠ []) (b : List Char) :
    StartsWithBreak (a ++ b) := by
  cases a with
  | nil => exact absurd rfl hne
  | cons c a => simpa [StartsWithBreak] using ha

structure IsSeparator (text : List Char) (separator : Token) : Prop where
  clean : ReadsClean text [separator]
  nonempty : text ≠ []
  breaks : StartsWithBreak text

theorem reads_pairsText {separator : Token} {first : List Char × Value}
    {others : List (List Char × List Char × Value)} (hfirst : quotation ∉ first.1 ∧ first.2.QuoteFree)
    (hothers : ∀ p ∈ others, IsSeparator p.1 separator ∧ quotation ∉ p.2.1 ∧ p.2.2.QuoteFree) :
    Reads (pairsText first others)
      (pairTokens separator (pairOf first.1 first.2 :: others.map fun p => pairOf p.2.1 p.2.2)) := by
  rw [pairTokens_cons, List.flatMap_map]
  refine reads_append_flatMap (reads_pairText hfirst.1 hfirst.2) fun p hp => ?_
  obtain ⟨hsep, hcolumn, hvalue⟩ := hothers p hp
  exact ⟨hsep.clean.append (reads_pairText hcolumn hvalue), hsep.breaks.append hsep.nonempty _⟩

theorem reads_valuesText {first : Value} {others : List Value} (hfirst : first.QuoteFree)
    (hothers : ∀ v ∈ others, v.QuoteFree) :
    Reads (valuesText first others) (valueTokens (first.token :: others.map Value.token)) := by
  have hcomma : IsSeparator ", ".toList (.symbol ',') := by
    refine ⟨fun done => rfl, List.cons_ne_nil ',' _, ?_⟩
    rintro c ⟨⟩
    rfl
  rw [valueTokens_cons, List.flatMap_map]
  exact reads_append_flatMap (reads_value hfirst) fun v hv =>
    ⟨hcomma.clean.append (reads_value (hothers v hv)), hcomma.breaks.append hcomma.nonempty _⟩

def updateText (table : List Char) (first : List Char × Value) (others : List (List Char × List Char × Value))
    (firstKey : List Char × Value) (otherKeys : List (List Char × List Char × Value)) : List Char :=
  "UPDATE ".toList ++ (quotation :: table ++ [quotation]) ++ " SET ".toList ++ pairsText first others ++
    " WHERE ".toList ++ pairsText firstKey otherKeys ++ ";".toList

def insertText (table : List Char) (first : Value) (others : List Value) : List Char :=
  "INSERT INTO ".toList ++ (quotation :: table ++ [quotation]) ++ " VALUES( ".toList ++
    valuesText first others ++ " );".toList

theorem startsWithBreak_blank (text : List Char) : StartsWithBreak (' ' :: text) := by
  rintro c ⟨⟩
  rfl

def updateStatement (table : List Char) (first : List Char × Value) (others : List (List Char × List Char × Value))
    (firstKey : List Char × Value) (otherKeys : List (List Char × List Char × Value)) : Update where
  table := table
  assignments := pairOf first.1 first.2 :: others.map fun p => pairOf p.2.1 p.2.2
  conditions := pairOf firstKey.1 firstKey.2 :: otherKeys.map fun p => pairOf p.2.1 p.2.2

def insertStatement (table : List Char) (first : Value) (others : List Value) : Insert where
  table := table
  values := first.token :: others.map Value.token

theorem tokens_updateText {table : List Char} {first : List Char × Value}
    {others : List (List Char × List Char × Value)} {firstKey : List Char × Value}
    {otherKeys : List (List Char × List Char × Value)} (htable : quotation ∉ table)
    (hfirst : quotation ∉ first.1 ∧ first.2.QuoteFree)
    (hothers : ∀ p ∈ others, IsSeparator p.1 (.symbol ',') ∧ quotation ∉ p.2.1 ∧ p.2.2.QuoteFree)
    (hfirstKey : quotation ∉ firstKey.1 ∧ firstKey.2.QuoteFree)
    (hotherKeys : ∀ p ∈ otherKeys, IsSeparator p.1 (.word "AND".toList) ∧ quotation ∉ p.2.1 ∧ p.2.2.QuoteFree) :
    tokens (updateText table first others firstKey otherKeys) =
      some (updateStatement table first others firstKey otherKeys).tokens := by
  have hupdate : ReadsClean "UPDATE ".toList [.word "UPDATE".toList] := fun done => rfl
  have hset : ReadsClean " SET ".toList [.word "SET".toList] := fun done => rfl
  have hwhere : ReadsClean " WHERE ".toList [.word "WHERE".toList] := fun done => rfl
  have hend : ReadsClean ";".toList [.symbol ';'] := fun done => rfl
  have hbreak : StartsWithBreak ";".toList := by
    rintro c ⟨⟩
    rfl
  have hkeys := (reads_pairsText hfirstKey hotherKeys).append hend.reads hbreak
  have hassign := (reads_pairsText hfirst hothers).append (hwhere.append hkeys) (startsWithBreak_blank _)
  have hread := hupdate.append ((Reads.name htable).append (hset.append hassign) (startsWithBreak_blank _))
  have htext : updateText table first others firstKey otherKeys = "UPDATE ".toList ++
      (quotation :: table ++ [quotation] ++ (" SET ".toList ++ (pairsText first others ++
        (" WHERE ".toList ++ (pairsText firstKey otherKeys ++ ";".toList))))) := by
    unfold updateText
    simp only [List.append_assoc]
  rw [htext, hread.tokens_eq]
  rfl

theorem tokens_insertText {table : List Char} {first : Value} {others : List Value}
    (htable : quotation ∉ table) (hfirst : first.QuoteFree) (hothers : ∀ v ∈ others, v.QuoteFree) :
    tokens (insertText table first others) = some (insertStatement table first others).tokens := by
  have hinsert : ReadsClean "INSERT INTO ".toList [.word "INSERT".toList, .word "INTO".toList] := fun done => rfl
  have hvalues : ReadsClean " VALUES( ".toList [.word "VALUES".toList, .symbol '('] := fun done => rfl
  have hend : ReadsClean " );".toList [.symbol ')', .symbol ';'] := fun done => rfl
  have hlist := (reads_valuesText hfirst hothers).append hend.reads (startsWithBreak_blank _)
  have hread := hinsert.append ((Reads.name htable).append (hvalues.append hlist) (startsWithBreak_blank _))
  have htext : insertText table first others = "INSERT INTO ".toList ++ (quotation :: table ++ [quotation] ++
      (" VALUES( ".toList ++ (valuesText first others ++ " );".toList))) := by
    unfold insertText
    simp only [List.append_assoc]
  rw [htext, hread.tokens_eq]
  rfl

theorem interpretUpdate_updateText {table : List Char} {first : List Char × Value}
    {others : List (List Char × List Char × Value)} {firstKey : List Char × Value}
    {otherKeys : List (List Char × List Char × Value)} (htable : quotation ∉ table)
    (hfirst : quotation ∉ first.1 ∧ first.2.QuoteFree)
    (hothers : ∀ p ∈ others, IsSeparator p.1 (.symbol ',') ∧ quotation ∉ p.2.1 ∧ p.2.2.QuoteFree)
    (hfirstKey : quotation ∉ firstKey.1 ∧ firstKey.2.QuoteFree)
    (hotherKeys : ∀ p ∈ otherKeys, IsSeparator p.1 (.word "AND".toList) ∧ quotation ∉ p.2.1 ∧ p.2.2.QuoteFree) :
    interpretUpdate (updateText table first others firstKey otherKeys) =
      some (updateStatement table first others firstKey otherKeys) := by
  rw [interpretUpdate, tokens_updateText htable hfirst hothers hfirstKey hotherKeys, Option.bind_some]
  exact parseUpdate_tokens (List.cons_ne_nil _ _) (List.cons_ne_nil _ _)

theorem interpretInsert_insertText {table : List Char} {first : Value} {others : List Value}
    (htable : quotation ∉ table) (hfirst : first.QuoteFree) (hothers : ∀ v ∈ others, v.QuoteFree) :
    interpretInsert (insertText table first others) = some (insertStatement table first others) := by
  rw [interpretInsert, tokens_insertText htable hfirst hothers, Option.bind_some]
  exact parseInsert_tokens (List.cons_ne_nil _ _)

end Foundation.Sql
