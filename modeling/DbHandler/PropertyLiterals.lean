import DbHandler.Foundation.Sql.Quotes
import DbHandler.FieldProperties.Commands
import DbHandler.TableProperties.RoundTrip

namespace DbHandler.PropertyLiterals

open Foundation.Sql FieldCommands PropertyStatements

inductive Writer
  | sqlite
  | postgres
  deriving DecidableEq, Repr

def Writer.driver : Writer → Driver
  | .sqlite => .sqlite
  | .postgres => .postgres

def Writer.naming : Writer → Naming
  | .sqlite => .quoted
  | .postgres => .plain

/-- The statements of `SetTableProperties` and of `SetFieldProperties`, by what the existence test answered. -/
inductive Statement
  | table (exist : Bool) (user : Text) (t : DatabaseTable) (p : TableProperties)
  | field (exist : Bool) (key : ColumnKey) (p : FieldProperties)

def Statement.text (w : Writer) : Statement → Text
  | .table exist user t p => w.driver.command exist user t p
  | .field exist key p => fieldCommand w.naming (assignments w.naming p) exist key p

def nameToken : Naming → Text → Token
  | .plain, name => .word name
  | .quoted, name => .name name

def catalogToken : Naming → Token
  | .plain => .word "abcatcol".toList
  | .quoted => .name "sys.abcatcol".toList

def listTokens (separator : Token) (parts : List (List Token)) : List Token := [separator].intercalate parts

def equationTokens (naming : Naming) (column : String) (value : Token) : List Token :=
  [nameToken naming column.toList, .symbol '=', value]

def insertTokens (naming : Naming) (key : ColumnKey) (p : FieldProperties) : List Token :=
  [.word "INSERT".toList, .word "INTO".toList, catalogToken naming, .symbol '('] ++
    listTokens (.symbol ',') (columns.map fun c => [nameToken naming c]) ++
    [.symbol ')', .word "VALUES".toList, .symbol '('] ++
    listTokens (.symbol ',') [[.literal key.tableName], [.literal key.ownerName], [.literal key.fieldName],
      [.literal p.label], [.word (digits p.labelPosition)], [.literal p.heading], [.word (digits p.headingPosition)],
      [.literal p.comment]] ++
    [.symbol ')', .symbol ';']

def updateTokens (naming : Naming) (key : ColumnKey) (p : FieldProperties) : List Token :=
  [.word "UPDATE".toList, catalogToken naming, .word "SET".toList] ++
    listTokens (.symbol ',') [equationTokens naming "abc_labl" (.literal p.label),
      equationTokens naming "abc_lpos" (.word (digits p.labelPosition)),
      equationTokens naming "abc_hdr" (.literal p.heading),
      equationTokens naming "abc_hpos" (.word (digits p.headingPosition)),
      equationTokens naming "abc_cmnt" (.literal p.comment)] ++
    [.word "WHERE".toList] ++
    listTokens (.word "AND".toList) [equationTokens naming "abc_tnam" (.literal key.tableName),
      equationTokens naming "abc_ownr" (.literal key.ownerName),
      equationTokens naming "abc_cnam" (.literal key.fieldName)] ++
    [.symbol ';']

def Statement.intended : Writer → Statement → List Token
  | w, .field exist key p => if exist then insertTokens w.naming key p else updateTokens w.naming key p
  | .sqlite, .table true _ t p =>
    (updateOf "sys.abcattbl" t.tableName t.objectId t.owner (SQLite.updateFonts p) p.comment t.owner).tokens
  | .sqlite, .table false _ t p =>
    (insertOf "sys.abcattbl" t.tableName t.objectId t.owner (SQLite.insertFonts p) p.comment).tokens
  | .postgres, .table true user t p =>
    (updateOf "abcattbl" (qualifiedName t) t.objectId user (Postgres.updateFonts p) p.comment user).tokens
  | .postgres, .table false user t p =>
    (insertOf "abcattbl" (qualifiedName t) t.objectId user (Postgres.insertFonts p) p.comment).tokens

def Statement.ReadsAsIntended (w : Writer) (st : Statement) : Prop := tokens (st.text w) = some (st.intended w)

def tableStrings (w : Writer) (user : Text) (t : DatabaseTable) (p : TableProperties) : List Text :=
  (match w with
    | .sqlite => [t.tableName, t.owner]
    | .postgres => [qualifiedName t, user]) ++
    [p.dataFontName, p.headingFontName, p.labelFontName, p.comment]

def Statement.Plain (w : Writer) : Statement → Prop
  | .table _ user t p => ∀ s ∈ tableStrings w user t p, apostrophe ∉ s
  | .field _ _ _ => False

theorem tokens_updateCommand_iff {catalog : String} (hcatalog : quotation ∉ catalog.toList) (tnam : Text) (tid : ℕ)
    (ownr : Text) {fonts : List (List Char × List Char × Value)} (hfonts : ∀ e ∈ fonts, Separated e)
    (comment whereOwner : Text) :
    tokens (updateCommand catalog tnam tid ownr fonts comment whereOwner) =
        some (updateOf catalog tnam tid ownr fonts comment whereOwner).tokens ↔
      apostrophe ∉ tnam ∧ apostrophe ∉ ownr ∧ (∀ e ∈ fonts, e.2.2.QuoteFree) ∧ apostrophe ∉ comment ∧
        apostrophe ∉ whereOwner := by
  have htnam : quotation ∉ "abt_tnam".toList := by decide
  have htid : quotation ∉ "abt_tid".toList := by decide
  have hownr : quotation ∉ "abt_ownr".toList := by decide
  have hcmnt : quotation ∉ "abt_cmnt".toList := by decide
  refine (tokens_updateText_iff hcatalog htnam (fun e he => ?_) htnam fun e he => ?_).trans ?_
  · change Separated e
    simp only [List.mem_append, List.mem_cons, List.not_mem_nil, or_false] at he
    rcases he with ((rfl | rfl) | he) | rfl
    · exact assign_separated _ htid
    · exact assign_separated _ hownr
    · exact hfonts e he
    · exact assign_separated _ hcmnt
  · simp only [List.mem_cons, List.not_mem_nil, or_false] at he
    rcases he with rfl | rfl
    · exact ⟨compare_separates _ _, htid⟩
    · exact ⟨compare_separates _ _, hownr⟩
  · simp only [List.forall_mem_append, List.forall_mem_cons, assign, PropertyStatements.compare,
      Value.text_quoteFree, Value.number_quoteFree, true_and, List.not_mem_nil, false_implies, implies_true, and_true]
    constructor
    · rintro ⟨⟨h₁, ⟨h₂, h₃⟩, h₄⟩, -, h₅⟩
      exact ⟨h₁, h₂, h₃, h₄, h₅⟩
    · rintro ⟨h₁, h₂, h₃, h₄, h₅⟩
      exact ⟨⟨h₁, ⟨h₂, h₃⟩, h₄⟩, h₁, h₅⟩

theorem tokens_insertCommand_iff {catalog : String} (hcatalog : quotation ∉ catalog.toList) (tnam : Text) (tid : ℕ)
    (ownr : Text) (fonts : List Value) (comment : Text) :
    tokens (insertCommand catalog tnam tid ownr fonts comment) =
        some (insertOf catalog tnam tid ownr fonts comment).tokens ↔
      apostrophe ∉ tnam ∧ apostrophe ∉ ownr ∧ (∀ v ∈ fonts, v.QuoteFree) ∧ apostrophe ∉ comment := by
  refine (tokens_insertText_iff hcatalog).trans ?_
  simp only [List.forall_mem_append, List.forall_mem_cons, Value.text_quoteFree, Value.number_quoteFree, true_and,
    List.not_mem_nil, false_implies, implies_true, and_true, and_assoc]

theorem fonts_quoteFree_iff {heading : FontColumns} {underline : Bool → Value}
    (hunderline : ∀ b, (underline b).QuoteFree) (strikethrough : Bool) (p : TableProperties) :
    (∀ e ∈ fontAssignments dataColumns underline strikethrough p.dataFont ++
        fontAssignments heading underline strikethrough p.headingFont ++
        fontAssignments labelColumns underline strikethrough p.labelFont, e.2.2.QuoteFree) ↔
      apostrophe ∉ p.dataFontName ∧ apostrophe ∉ p.headingFontName ∧ apostrophe ∉ p.labelFontName := by
  rw [List.forall_mem_append, List.forall_mem_append, fontAssignments_quoteFree_iff hunderline,
    fontAssignments_quoteFree_iff hunderline, fontAssignments_quoteFree_iff hunderline, and_assoc]
  rfl

theorem fonts_separated {heading : FontColumns} (hheading : ∀ s ∈ heading.names, quotation ∉ s.toList)
    (underline : Bool → Value) (strikethrough : Bool) (p : TableProperties) :
    ∀ e ∈ fontAssignments dataColumns underline strikethrough p.dataFont ++
        fontAssignments heading underline strikethrough p.headingFont ++
        fontAssignments labelColumns underline strikethrough p.labelFont, Separated e := by
  rw [List.forall_mem_append, List.forall_mem_append]
  exact ⟨⟨fontAssignments_separated (by decide) underline strikethrough _,
    fontAssignments_separated hheading underline strikethrough _⟩,
    fontAssignments_separated (by decide) underline strikethrough _⟩

theorem insertFonts_quoteFree_iff {d h l : Value} (hd : d.QuoteFree) (hh : h.QuoteFree) (hl : l.QuoteFree)
    (b : Bool × Bool × Bool) (p : TableProperties) :
    (∀ v ∈ fontValues d [digit b.1] p.dataFont ++ fontValues h [digit b.2.1] p.headingFont ++
        fontValues l [digit b.2.2] p.labelFont, v.QuoteFree) ↔
      apostrophe ∉ p.dataFontName ∧ apostrophe ∉ p.headingFontName ∧ apostrophe ∉ p.labelFontName := by
  have hdigit (b : Bool) : ∀ v ∈ [digit b], v.QuoteFree := by
    intro v hv
    rw [List.mem_singleton.mp hv]
    exact digit_quoteFree b
  rw [List.forall_mem_append, List.forall_mem_append, fontValues_quoteFree_iff hd (hdigit _),
    fontValues_quoteFree_iff hh (hdigit _), fontValues_quoteFree_iff hl (hdigit _), and_assoc]
  rfl

theorem table_reads_iff (w : Writer) (exist : Bool) (user : Text) (t : DatabaseTable) (p : TableProperties) :
    (Statement.table exist user t p).ReadsAsIntended w ↔ (Statement.table exist user t p).Plain w := by
  have hlabel : (Value.text (digit p.labelFontUnderline).content).QuoteFree := by
    cases p.labelFontUnderline with
    | true => exact (by decide : apostrophe ∉ "1".toList)
    | false => exact (by decide : apostrophe ∉ "0".toList)
  cases w with
  | sqlite =>
    simp only [Statement.Plain, tableStrings, List.forall_mem_append, List.forall_mem_cons, List.not_mem_nil,
      false_implies, implies_true, and_true]
    cases exist with
    | true =>
      refine (tokens_updateCommand_iff (by decide) _ _ _ (fonts_separated (by decide) _ true p) _ _).trans ?_
      rw [fonts_quoteFree_iff digit_quoteFree]
      tauto
    | false =>
      refine (tokens_insertCommand_iff (by decide) _ _ _ _ _).trans ?_
      rw [SQLite.insertFonts, insertFonts_quoteFree_iff (digit_quoteFree _) (digit_quoteFree _) hlabel
        (p.dataFontStrikethrough, p.headingFontStrikethrough, p.labelFontStrikethrough)]
      tauto
  | postgres =>
    simp only [Statement.Plain, tableStrings, List.forall_mem_append, List.forall_mem_cons, List.not_mem_nil,
      false_implies, implies_true, and_true]
    cases exist with
    | true =>
      refine (tokens_updateCommand_iff (by decide) _ _ _ (fonts_separated (by decide) _ true p) _ _).trans ?_
      rw [fonts_quoteFree_iff digit_quoteFree]
      tauto
    | false =>
      refine (tokens_insertCommand_iff (by decide) _ _ _ _ _).trans ?_
      rw [Postgres.insertFonts, insertFonts_quoteFree_iff (digit_quoteFree _) (digit_quoteFree _) (digit_quoteFree _)
        (p.dataFontStrikethrough, p.headingFontSize != 0, p.labelFontStrikethrough)]
      tauto

theorem quotes_intercalate {separator : Text} (hseparator : quotes separator = 0) (parts : List Text) :
    quotes (separator.intercalate parts) = (parts.map quotes).sum := by
  induction parts with
  | nil => rfl
  | cons part parts ih =>
    cases parts with
    | nil => simp
    | cons next parts =>
      rw [List.intercalate_cons_cons, quotes_append, quotes_append, hseparator, ih]
      simp only [List.map_cons, List.sum_cons]
      omega

theorem tokenQuotes_listTokens {separator : Token} (hseparator : separator.quotes = 0) (parts : List (List Token)) :
    tokenQuotes (listTokens separator parts) = (parts.map tokenQuotes).sum := by
  rw [listTokens]
  induction parts with
  | nil => rfl
  | cons part parts ih =>
    cases parts with
    | nil => simp
    | cons next parts =>
      rw [List.intercalate_cons_cons, tokenQuotes_append, tokenQuotes_append, tokenQuotes_cons, tokenQuotes_nil,
        hseparator, ih]
      simp only [List.map_cons, List.sum_cons]
      omega

def fieldQuotes (key : ColumnKey) (p : FieldProperties) : ℕ :=
  quotes key.tableName + quotes key.ownerName + quotes key.fieldName + quotes p.label + quotes p.heading +
    quotes p.comment

theorem quotes_digits (n : ℤ) : quotes (digits n) = 0 := quotes_of_wordChars (int_toString_wordChar n)

theorem quotes_comma : quotes comma = 0 := by decide

theorem quotes_insertCommand (naming : Naming) (key : ColumnKey) (p : FieldProperties) :
    quotes (FieldCommands.insertCommand naming key p) = fieldQuotes key p := by
  have hhead : quotes insertHead = 0 := by decide
  have hmiddle : quotes ") VALUES(".toList = 0 := by decide
  have hend : quotes ");".toList = 0 := by decide
  have hcatalog : quotes naming.catalog = 0 := by cases naming <;> decide
  have hcolumns : quotes ('(' :: comma.intercalate (columns.map naming.name)) = 0 := by cases naming <;> decide
  rw [FieldCommands.insertCommand, quotes_append, quotes_append, quotes_append, quotes_append, quotes_append, hhead,
    hmiddle, hend, hcatalog, hcolumns, quotes_intercalate quotes_comma]
  simp only [List.map_cons, List.map_nil, List.sum_cons, List.sum_nil, quotes_digits, fieldQuotes]
  omega

theorem quotes_name (naming : Naming) {column : Text} (h : column ∈ columns) : quotes (naming.name column) = 0 := by
  have hall : ∀ column ∈ columns, quotes (naming.name column) = 0 := by cases naming <;> decide
  exact hall column h

theorem quotes_assignment (naming : Naming) {column : String} (h : column.toList ∈ columns) (value : Text) :
    quotes (assignment naming column value) = quotes value := by
  have hequals : quotes " = ".toList = 0 := by decide
  rw [assignment, quotes_append, quotes_append, quotes_name naming h, hequals]
  omega

theorem quotes_updateCommand (naming : Naming) (key : ColumnKey) (p : FieldProperties) :
    quotes (FieldCommands.updateCommand naming key (assignments naming p)) = fieldQuotes key p := by
  have hhead : quotes updateHead = 0 := by decide
  have hset : quotes " SET ".toList = 0 := by decide
  have hwhere : quotes "WHERE ".toList = 0 := by decide
  have hand : quotes " AND ".toList = 0 := by decide
  have hend : quotes [';'] = 0 := by decide
  have hcatalog : quotes naming.catalog = 0 := by cases naming <;> decide
  rw [FieldCommands.updateCommand, quotes_append, quotes_append, quotes_append, quotes_append, quotes_append,
    quotes_append, hhead, hset, hwhere, hend, hcatalog, quotes_intercalate quotes_comma, quotes_intercalate hand]
  simp only [assignments, List.map_cons, List.map_nil, List.sum_cons, List.sum_nil]
  rw [quotes_assignment naming (by decide), quotes_assignment naming (by decide), quotes_assignment naming (by decide),
    quotes_assignment naming (by decide), quotes_assignment naming (by decide), quotes_assignment naming (by decide),
    quotes_assignment naming (by decide), quotes_assignment naming (by decide), quotes_digits, quotes_digits, fieldQuotes]
  omega

theorem field_never_reads (w : Writer) (exist : Bool) (key : ColumnKey) (p : FieldProperties) :
    ¬ (Statement.field exist key p).ReadsAsIntended w := by
  intro h
  have hcount := quotes_of_tokens h
  cases exist with
  | true =>
    have htext : quotes (Statement.text w (.field true key p)) = fieldQuotes key p := quotes_insertCommand w.naming key p
    have htokens : fieldQuotes key p < tokenQuotes (insertTokens w.naming key p) := by
      simp only [insertTokens, tokenQuotes_append, tokenQuotes_listTokens (Token.symbol_quotes ','), List.map_cons,
        List.map_nil, List.sum_cons, List.sum_nil, tokenQuotes_cons, tokenQuotes_nil, Token.literal_quotes, fieldQuotes]
      omega
    rw [htext] at hcount
    exact htokens.ne hcount
  | false =>
    have htext : quotes (Statement.text w (.field false key p)) = fieldQuotes key p := quotes_updateCommand w.naming key p
    have htokens : fieldQuotes key p < tokenQuotes (updateTokens w.naming key p) := by
      simp only [updateTokens, equationTokens, tokenQuotes_append, tokenQuotes_listTokens (Token.symbol_quotes ','),
        tokenQuotes_listTokens (Token.word_quotes "AND".toList), List.map_cons, List.map_nil, List.sum_cons,
        List.sum_nil, tokenQuotes_cons, tokenQuotes_nil, Token.literal_quotes, fieldQuotes]
      omega
    rw [htext] at hcount
    exact htokens.ne hcount

theorem reads_as_intended_iff (w : Writer) (st : Statement) : st.ReadsAsIntended w ↔ st.Plain w := by
  cases st with
  | table exist user t p => exact table_reads_iff w exist user t p
  | field exist key p => exact iff_of_false (field_never_reads w exist key p) not_false

theorem apostrophe_and_label_not_literals :
    ¬ (Statement.table false [] plainTable { plainProperties with comment := "Rob's".toList }).ReadsAsIntended .sqlite ∧
      ¬ (Statement.field true ⟨"invoice".toList, "rob".toList, "total".toList⟩
        ⟨"sum".toList, "Total".toList, "Total".toList, 0, 0⟩).ReadsAsIntended .postgres := by
  refine ⟨fun h => ?_, field_never_reads .postgres true _ _⟩
  rw [table_reads_iff] at h
  exact h "Rob's".toList (by decide) (by decide)

end DbHandler.PropertyLiterals
