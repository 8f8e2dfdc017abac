import Mathlib.Algebra.GroupWithZero.Nat
import DbHandler.Foundation.Sql.Statements

namespace Foundation.Sql

def quotes (s : List Char) : ℕ := s.count apostrophe

@[simp] theorem quotes_nil : quotes [] = 0 := rfl

@[simp] theorem quotes_append (s t : List Char) : quotes (s ++ t) = quotes s + quotes t := List.count_append

@[simp] theorem quotes_reverse (s : List Char) : quotes s.reverse = quotes s := List.count_reverse

theorem quotes_cons (c : Char) (s : List Char) : quotes (c :: s) = quotes s + if c = apostrophe then 1 else 0 := by
  rw [quotes, List.count_cons, quotes]
  simp only [beq_iff_eq]

theorem quotes_eq_zero_iff {s : List Char} : quotes s = 0 ↔ apostrophe ∉ s := List.count_eq_zero

/-- The apostrophes with which a token is written: those of a literal are doubled. -/
def Token.quotes : Token → ℕ
  | .literal s => 2 + 2 * Sql.quotes s
  | .name s => Sql.quotes s
  | .word _ => 0
  | .symbol _ => 0

@[simp] theorem Token.literal_quotes (s : List Char) : (Token.literal s).quotes = 2 + 2 * Sql.quotes s := rfl

@[simp] theorem Token.name_quotes (s : List Char) : (Token.name s).quotes = Sql.quotes s := rfl

@[simp] theorem Token.word_quotes (s : List Char) : (Token.word s).quotes = 0 := rfl

@[simp] theorem Token.symbol_quotes (c : Char) : (Token.symbol c).quotes = 0 := rfl

def tokenQuotes (toks : List Token) : ℕ := (toks.map Token.quotes).sum

@[simp] theorem tokenQuotes_nil : tokenQuotes [] = 0 := rfl

@[simp] theorem tokenQuotes_cons (t : Token) (ts : List Token) : tokenQuotes (t :: ts) = t.quotes + tokenQuotes ts := by
  rw [tokenQuotes, List.map_cons, List.sum_cons, tokenQuotes]

@[simp] theorem tokenQuotes_append (ts us : List Token) : tokenQuotes (ts ++ us) = tokenQuotes ts + tokenQuotes us := by
  rw [tokenQuotes, List.map_append, List.sum_append, tokenQuotes, tokenQuotes]

theorem tokenQuotes_reverse (ts : List Token) : tokenQuotes ts.reverse = tokenQuotes ts := by
  rw [tokenQuotes, List.map_reverse, List.sum_reverse, tokenQuotes]

def Mode.quotes : Mode → ℕ
  | .between => 0
  | .word _ => 0
  | .quoted quote acc => if quote = apostrophe then 1 + 2 * Sql.quotes acc else Sql.quotes acc
  | .closed quote acc => if quote = apostrophe then 2 + 2 * Sql.quotes acc else Sql.quotes acc

def Scan.quotes (s : Scan) : ℕ := tokenQuotes s.done + s.mode.quotes

def Mode.Quotes : Mode → Prop
  | .quoted quote _ => isQuote quote = true
  | .closed quote _ => isQuote quote = true
  | _ => True

theorem apostrophe_ne_quotation : apostrophe ≠ quotation := by decide

theorem quotedToken_quotes {quote : Char} (h : isQuote quote = true) (acc : List Char) :
    (quotedToken quote acc.reverse).quotes = (Mode.closed quote acc).quotes := by
  rw [isQuote, Bool.or_eq_true, beq_iff_eq, beq_iff_eq] at h
  rcases h with rfl | rfl
  · rw [quotedToken, if_neg apostrophe_ne_quotation, Mode.quotes, if_pos rfl, Token.quotes, quotes_reverse]
  · rw [quotedToken, if_pos rfl, Mode.quotes, if_neg apostrophe_ne_quotation.symm, Token.quotes, quotes_reverse]

theorem start_quotes (done : List Token) (c : Char) :
    (start done c).quotes = tokenQuotes done + (if c = apostrophe then 1 else 0) ∧ (start done c).mode.Quotes := by
  rw [start]
  by_cases hc : c = apostrophe
  · subst hc
    exact ⟨rfl, rfl⟩
  · rw [if_neg hc]
    split_ifs with hquote
    · exact ⟨by simp [Scan.quotes, Mode.quotes, hc], hquote⟩
    · exact ⟨rfl, trivial⟩
    · exact ⟨by simp [Scan.quotes, Mode.quotes, Token.quotes], trivial⟩
    · exact ⟨rfl, trivial⟩

theorem scanStep_quotes {s : Scan} (h : s.mode.Quotes) (c : Char) :
    (scanStep s c).quotes = s.quotes + (if c = apostrophe then 1 else 0) ∧ (scanStep s c).mode.Quotes := by
  obtain ⟨done, mode⟩ := s
  cases mode with
  | between => exact start_quotes done c
  | word acc =>
    simp only [scanStep]
    split_ifs with hend hc hc
    · simpa [hc, Scan.quotes, Mode.quotes, Token.quotes] using start_quotes (.word acc.reverse :: done) c
    · simpa [hc, Scan.quotes, Mode.quotes, Token.quotes] using start_quotes (.word acc.reverse :: done) c
    · simp [hc, isQuote] at hend
    · exact ⟨rfl, trivial⟩
  | quoted quote acc =>
    simp only [scanStep]
    by_cases hc : c = quote
    · subst hc
      rw [if_pos rfl]
      refine ⟨?_, h⟩
      simp only [Scan.quotes, Mode.quotes]
      split_ifs
      · omega
      · omega
    · rw [if_neg hc]
      refine ⟨?_, h⟩
      simp only [Scan.quotes, Mode.quotes, quotes_cons]
      have hquote : ¬ (quote = apostrophe ∧ c = apostrophe) := fun hq => hc (hq.2.trans hq.1.symm)
      split_ifs with h₁ h₂
      · exact absurd ⟨h₁, h₂⟩ hquote
      · omega
      · omega
      · omega
  | closed quote acc =>
    simp only [scanStep]
    by_cases hc : c = quote
    · subst hc
      rw [if_pos rfl]
      refine ⟨?_, h⟩
      simp only [Scan.quotes, Mode.quotes, quotes_cons]
      split_ifs
      · omega
      · omega
    · rw [if_neg hc]
      obtain ⟨hstart, hquotes⟩ := start_quotes (quotedToken quote acc.reverse :: done) c
      refine ⟨?_, hquotes⟩
      rw [hstart, tokenQuotes_cons, quotedToken_quotes h, Scan.quotes]
      dsimp only
      omega

theorem scan_quotes {s : Scan} (h : s.mode.Quotes) (text : List Char) :
    (scan s text).quotes = s.quotes + quotes text ∧ (scan s text).mode.Quotes := by
  induction text generalizing s with
  | nil => exact ⟨rfl, h⟩
  | cons c text ih =>
    obtain ⟨hstep, hquotes⟩ := scanStep_quotes h c
    obtain ⟨hscan, hrest⟩ := ih hquotes
    refine ⟨?_, hrest⟩
    rw [scan_cons, hscan, hstep, quotes_cons]
    omega

theorem quotes_of_tokens {text : List Char} {toks : List Token} (h : tokens text = some toks) :
    quotes text = tokenQuotes toks := by
  obtain ⟨hscan, hquotes⟩ := scan_quotes (s := ⟨[], .between⟩) trivial text
  have htext : quotes text = (scan ⟨[], .between⟩ text).quotes := by
    rw [hscan]
    simp [Scan.quotes, Mode.quotes]
  rw [htext]
  rw [tokens, Scan.finish] at h
  cases hs : scan ⟨[], .between⟩ text with
  | mk done mode =>
    rw [hs] at h hquotes
    cases mode with
    | between =>
      obtain rfl := Option.some.inj h
      exact (tokenQuotes_reverse done).symm
    | word acc =>
      obtain rfl := Option.some.inj h
      simp [Scan.quotes, Mode.quotes, Token.quotes, tokenQuotes_reverse]
    | quoted quote acc => cases h
    | closed quote acc =>
      obtain rfl := Option.some.inj h
      rw [tokenQuotes_reverse, tokenQuotes_cons, quotedToken_quotes hquotes, Scan.quotes]
      dsimp only
      omega

def Value.missing : Value → ℕ
  | text s => Sql.quotes s
  | number _ => 0

theorem Value.missing_eq_zero_iff (v : Value) : v.missing = 0 ↔ v.QuoteFree := by
  cases v with
  | text s => exact quotes_eq_zero_iff
  | number n => exact iff_of_true rfl trivial

theorem quotes_of_wordChars {s : List Char} (h : ∀ c ∈ s, isWordChar c = true) : quotes s = 0 := by
  rw [quotes_eq_zero_iff]
  intro hmem
  exact absurd (h _ hmem) (by decide)

theorem Value.token_quotes (v : Value) : v.token.quotes = Sql.quotes v.render + v.missing := by
  cases v with
  | text s =>
    simp only [Value.token, Value.render, Value.missing, Token.quotes, quotes_append, quotes_cons, quotes_nil, if_true]
    omega
  | number n =>
    simp only [Value.token, Value.render, Value.missing, Token.quotes]
    rw [quotes_of_wordChars (int_toString_wordChar n)]

theorem quotes_pairText (column : List Char) (value : Value) :
    quotes (pairText column value) = quotes column + quotes value.render := by
  have hquotation : ¬ quotation = apostrophe := apostrophe_ne_quotation.symm
  have hequals : quotes " = ".toList = 0 := by decide
  simp only [pairText, quotes_append, quotes_cons, quotes_nil, if_neg hquotation, hequals]
  omega

theorem tokenQuotes_pairTokens {separator : Token} (hseparator : separator.quotes = 0)
    (first : List Char × Value) {others : List (List Char × List Char × Value)} (hothers : ∀ p ∈ others, quotes p.1 = 0) :
    tokenQuotes (pairTokens separator (pairOf first.1 first.2 :: others.map fun p => pairOf p.2.1 p.2.2)) =
      quotes (pairsText first others) + (first.2.missing + (others.map fun p => p.2.2.missing).sum) := by
  rw [pairTokens_cons, List.flatMap_map, pairsText, tokenQuotes_append, quotes_append, quotes_pairText]
  have hrest : tokenQuotes (others.flatMap fun p => [separator, .name p.2.1, .symbol '=', p.2.2.token]) =
      quotes (others.flatMap fun p => p.1 ++ pairText p.2.1 p.2.2) + (others.map fun p => p.2.2.missing).sum := by
    induction others with
    | nil => rfl
    | cons p others ih =>
      have hp := hothers p List.mem_cons_self
      have htail := ih fun q hq => hothers q (List.mem_cons_of_mem _ hq)
      simp only [List.flatMap_cons, List.map_cons, List.sum_cons, tokenQuotes_append, tokenQuotes_cons, tokenQuotes_nil,
        quotes_append, quotes_pairText, Value.token_quotes, htail, hp, hseparator, Token.name_quotes, Token.symbol_quotes]
      omega
  simp only [pairOf] at hrest ⊢
  rw [hrest]
  simp only [tokenQuotes_cons, tokenQuotes_nil, Value.token_quotes, Token.name_quotes, Token.symbol_quotes]
  omega

theorem tokenQuotes_valueTokens (first : Value) (others : List Value) :
    tokenQuotes (valueTokens (first.token :: others.map Value.token)) =
      quotes (valuesText first others) + (first.missing + (others.map Value.missing).sum) := by
  rw [valueTokens_cons, List.flatMap_map, valuesText, tokenQuotes_append, quotes_append]
  have hcomma : quotes ", ".toList = 0 := by decide
  have hrest : tokenQuotes (others.flatMap fun v => [.symbol ',', v.token]) =
      quotes (others.flatMap fun v => ", ".toList ++ v.render) + (others.map Value.missing).sum := by
    induction others with
    | nil => rfl
    | cons v others ih =>
      simp only [List.flatMap_cons, List.map_cons, List.sum_cons, tokenQuotes_append, tokenQuotes_cons, tokenQuotes_nil,
        quotes_append, Value.token_quotes, ih, hcomma, Token.symbol_quotes]
      omega
  rw [hrest]
  simp only [tokenQuotes_cons, tokenQuotes_nil, Value.token_quotes]
  omega

theorem quotes_quotation (s : List Char) : quotes (quotation :: s ++ [quotation]) = quotes s := by
  have hquotation : ¬ quotation = apostrophe := apostrophe_ne_quotation.symm
  simp only [quotes_append, quotes_cons, quotes_nil, if_neg hquotation]
  omega

theorem missing_sum_eq_zero_iff {α : Type*} (value : α → Value) (l : List α) :
    (l.map fun a => (value a).missing).sum = 0 ↔ ∀ a ∈ l, (value a).QuoteFree := by
  induction l with
  | nil => simp
  | cons a l ih =>
    rw [List.map_cons, List.sum_cons, Nat.add_eq_zero_iff, ih, Value.missing_eq_zero_iff, List.forall_mem_cons]

theorem quotes_parts {a b c : List Char} (ha : quotes a = 0) (hb : quotes b = 0) (hc : quotes c = 0)
    (x y : List Char) : quotes (a ++ x ++ b ++ y ++ c) = quotes x + quotes y := by
  simp only [quotes_append, ha, hb, hc]
  omega

theorem quotes_updateText (table : List Char) (first : List Char × Value)
    (others : List (List Char × List Char × Value)) (firstKey : List Char × Value)
    (otherKeys : List (List Char × List Char × Value)) :
    quotes (updateText table first others firstKey otherKeys) =
      quotes table + quotes (pairsText first others) + quotes (pairsText firstKey otherKeys) := by
  have hupdate : quotes "UPDATE ".toList = 0 := by decide
  have hassign : quotes " SET ".toList = 0 := by decide
  have hwhere : quotes " WHERE ".toList = 0 := by decide
  have hend : quotes ";".toList = 0 := by decide
  have hhead := quotes_parts hupdate hassign hwhere (quotation :: table ++ [quotation]) (pairsText first others)
  rw [quotes_quotation] at hhead
  have hwhole := quotes_parts quotes_nil quotes_nil hend
    ("UPDATE ".toList ++ (quotation :: table ++ [quotation]) ++ " SET ".toList ++ pairsText first others ++
      " WHERE ".toList) (pairsText firstKey otherKeys)
  rw [List.nil_append, List.append_nil, hhead] at hwhole
  exact hwhole

theorem quotes_insertText (table : List Char) (first : Value) (others : List Value) :
    quotes (insertText table first others) = quotes table + quotes (valuesText first others) := by
  have hinsert : quotes "INSERT INTO ".toList = 0 := by decide
  have hvalues : quotes " VALUES( ".toList = 0 := by decide
  have hend : quotes " );".toList = 0 := by decide
  have hwhole := quotes_parts hinsert hvalues hend (quotation :: table ++ [quotation]) (valuesText first others)
  rw [quotes_quotation] at hwhole
  exact hwhole

theorem Update.tokenQuotes_tokens (u : Update) :
    tokenQuotes u.tokens = Sql.quotes u.table + tokenQuotes (pairTokens (.symbol ',') u.assignments) +
      tokenQuotes (pairTokens (.word "AND".toList) u.conditions) := by
  simp only [Update.tokens, tokenQuotes_append, tokenQuotes_cons, tokenQuotes_nil, Token.word_quotes, Token.name_quotes,
    Token.symbol_quotes]
  omega

theorem Insert.tokenQuotes_tokens (i : Insert) :
    tokenQuotes i.tokens = Sql.quotes i.table + tokenQuotes (valueTokens i.values) := by
  simp only [Insert.tokens, tokenQuotes_append, tokenQuotes_cons, tokenQuotes_nil, Token.word_quotes, Token.name_quotes,
    Token.symbol_quotes]
  omega

theorem tokens_updateText_iff {table : List Char} {first : List Char × Value}
    {others : List (List Char × List Char × Value)} {firstKey : List Char × Value}
    {otherKeys : List (List Char × List Char × Value)} (htable : quotation ∉ table) (hfirst : quotation ∉ first.1)
    (hothers : ∀ p ∈ others, IsSeparator p.1 (.symbol ',') ∧ quotation ∉ p.2.1) (hfirstKey : quotation ∉ firstKey.1)
    (hotherKeys : ∀ p ∈ otherKeys, IsSeparator p.1 (.word "AND".toList) ∧ quotation ∉ p.2.1) :
    tokens (updateText table first others firstKey otherKeys) =
        some (updateStatement table first others firstKey otherKeys).tokens ↔
      (first.2.QuoteFree ∧ ∀ p ∈ others, p.2.2.QuoteFree) ∧
        firstKey.2.QuoteFree ∧ ∀ p ∈ otherKeys, p.2.2.QuoteFree := by
  have hseparator {text : List Char} {t : Token} (h : IsSeparator text t) (ht : t.quotes = 0) : quotes text = 0 := by
    rw [quotes_of_tokens (ReadsClean.reads h.clean).tokens_eq]
    simp [ht]
  constructor
  · intro h
    have hcount := quotes_of_tokens h
    have hset := tokenQuotes_pairTokens (Token.symbol_quotes ',') first fun p hp => hseparator (hothers p hp).1 rfl
    have hkeys := tokenQuotes_pairTokens (Token.word_quotes "AND".toList) firstKey fun p hp =>
      hseparator (hotherKeys p hp).1 rfl
    rw [quotes_updateText, Update.tokenQuotes_tokens] at hcount
    dsimp only [updateStatement] at hcount
    rw [hset, hkeys] at hcount
    have hzero : (first.2.missing = 0 ∧ (others.map fun p => p.2.2.missing).sum = 0) ∧
        firstKey.2.missing = 0 ∧ (otherKeys.map fun p => p.2.2.missing).sum = 0 := by omega
    simpa only [Value.missing_eq_zero_iff, missing_sum_eq_zero_iff] using hzero
  · rintro ⟨⟨h₁, h₂⟩, h₃, h₄⟩
    exact tokens_updateText htable ⟨hfirst, h₁⟩ (fun p hp => ⟨(hothers p hp).1, (hothers p hp).2, h₂ p hp⟩)
      ⟨hfirstKey, h₃⟩ fun p hp => ⟨(hotherKeys p hp).1, (hotherKeys p hp).2, h₄ p hp⟩

theorem tokens_insertText_iff {table : List Char} {first : Value} {others : List Value} (htable : quotation ∉ table) :
    tokens (insertText table first others) = some (insertStatement table first others).tokens ↔
      first.QuoteFree ∧ ∀ v ∈ others, v.QuoteFree := by
  constructor
  · intro h
    have hcount := quotes_of_tokens h
    rw [quotes_insertText, Insert.tokenQuotes_tokens] at hcount
    dsimp only [insertStatement] at hcount
    rw [tokenQuotes_valueTokens] at hcount
    have hzero : first.missing = 0 ∧ (others.map Value.missing).sum = 0 := by omega
    simpa only [Value.missing_eq_zero_iff, missing_sum_eq_zero_iff fun v => v] using hzero
  · rintro ⟨hfirst, hothers⟩
    exact tokens_insertText htable hfirst hothers

end Foundation.Sql
