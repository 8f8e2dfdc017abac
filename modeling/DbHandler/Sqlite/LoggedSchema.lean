import DbHandler.Foundation.Faults
import DbHandler.Foundation.Sql.Quotes
import DbHandler.Sqlite.SchemaText
import DbHandler.Sqlite.Transactions

namespace DbHandler.SqliteSchema

open Foundation Foundation.Sql Sqlite Sqlite.ForeignKeys
open AlterTable (ForeignKeyCall)

def mark : Token := .word ['?']

/-- The update of the schema, with what stands for its two parameters. -/
def updateTokens (sql name : Token) : List Token :=
  [.word "UPDATE".toList, .word "sqlite_master".toList, .word "SET".toList, .word "sql".toList, .symbol '=', sql,
    .word "WHERE".toList, .word "type".toList, .symbol '=', .literal "table".toList, .word "AND".toList,
    .word "name".toList, .symbol '=', name, .symbol ';']

def setText : Text := "UPDATE sqlite_master SET sql = ".toList

def whereText : Text := " WHERE type = ".toList ++ quoted "table".toList ++ " AND name =".toList

theorem updateSchemaText_eq : updateSchemaText = setText ++ '?' :: (whereText ++ " ?;".toList) := rfl

theorem replaceMark_append {u : Text} (h : '?' ∉ u) (text v : Text) : replaceMark text (u ++ '?' :: v) = u ++ text ++ v := by
  have htake : (u ++ '?' :: v).takeWhile (· ≠ '?') = u := by
    rw [List.takeWhile_append_of_pos]
    · simp
    · intro c hc
      have hne : c ≠ '?' := fun hmark => h (hmark ▸ hc)
      simpa using hne
  have hdrop : (u ++ '?' :: v).dropWhile (· ≠ '?') = '?' :: v := by
    rw [List.dropWhile_append_of_pos]
    · simp
    · intro c hc
      have hne : c ≠ '?' := fun hmark => h (hmark ▸ hc)
      simpa using hne
  rw [replaceMark, htake, hdrop, List.tail_cons]

theorem not_mem_quoted {text : Text} (h : '?' ∉ text) : '?' ∉ quoted text := by
  rw [quoted, List.mem_append, List.mem_cons, List.mem_singleton]
  rintro ((hmark | hmem) | hmark)
  · exact absurd hmark (by decide)
  · exact h hmem
  · exact absurd hmark (by decide)

theorem logCommand_unmarked {sql : Text} (h : '?' ∉ sql) (name : Text) :
    logCommand sql name = setText ++ (quoted sql ++ (whereText ++ (' ' :: (quoted name ++ ";".toList)))) := by
  have hset : '?' ∉ setText := by decide
  have hwhere : '?' ∉ whereText ++ " ".toList := by decide
  have hmiddle : '?' ∉ setText ++ quoted sql ++ (whereText ++ " ".toList) := by
    simp only [List.mem_append, not_or]
    exact ⟨⟨hset, not_mem_quoted h⟩, not_or.mp (List.mem_append.not.mp hwhere)⟩
  have hfirst : replaceMark (quoted sql) updateSchemaText =
      setText ++ quoted sql ++ (whereText ++ " ".toList) ++ '?' :: ";".toList := by
    rw [updateSchemaText_eq, replaceMark_append hset]
    simp only [List.append_assoc]
    rfl
  rw [logCommand, hfirst, replaceMark_append hmiddle]
  simp only [List.append_assoc]
  rfl

/-- The second parameter goes to the first mark of the text that was written for the first. -/
theorem logCommand_marked {u : Text} (h : '?' ∉ u) (v name : Text) :
    logCommand (u ++ '?' :: v) name =
      setText ++ ('\'' :: u) ++ quoted name ++ (v ++ '\'' :: whereText) ++ " ?;".toList := by
  have hset : '?' ∉ setText := by decide
  have hmiddle : '?' ∉ setText ++ '\'' :: u := by
    rw [List.mem_append, List.mem_cons, not_or, not_or]
    exact ⟨hset, by decide, h⟩
  have hfirst : replaceMark (quoted (u ++ '?' :: v)) updateSchemaText =
      (setText ++ '\'' :: u) ++ '?' :: (v ++ '\'' :: whereText ++ " ?;".toList) := by
    rw [updateSchemaText_eq, replaceMark_append hset, quoted]
    simp only [List.append_assoc, List.cons_append]
    rfl
  rw [logCommand, hfirst, replaceMark_append hmiddle]
  simp only [List.append_assoc]

/-- A mark that no literal swallows is a word of its own. -/
theorem tokens_mark_last {text : Text} {toks : List Token} (h : tokens (text ++ " ?;".toList) = some toks) :
    ∃ before, toks = before ++ [mark, .symbol ';'] := by
  have hquotes : (scan ⟨[], .between⟩ text).mode.Quotes := (scan_quotes (s := ⟨[], .between⟩) trivial text).2
  rw [tokens, scan_append] at h
  cases hscan : scan ⟨[], .between⟩ text with
  | mk done mode =>
    rw [hscan] at h hquotes
    have hend (done : List Token) : scan ⟨done, .between⟩ "?;".toList = ⟨.symbol ';' :: mark :: done, .between⟩ := rfl
    have hblank : " ?;".toList = ' ' :: "?;".toList := rfl
    have hbetween (done : List Token) :
        (scan ⟨done, .between⟩ "?;".toList).finish = some (done.reverse ++ [mark, .symbol ';']) := by
      rw [hend, Scan.finish]
      simp
    cases mode with
    | between =>
      have hstep : scanStep ⟨done, .between⟩ ' ' = ⟨done, .between⟩ := rfl
      rw [hblank, scan_cons, hstep, hbetween] at h
      exact ⟨_, (Option.some.inj h).symm⟩
    | word acc =>
      have hstep : scanStep ⟨done, .word acc⟩ ' ' = ⟨.word acc.reverse :: done, .between⟩ := rfl
      rw [hblank, scan_cons, hstep, hbetween] at h
      exact ⟨_, (Option.some.inj h).symm⟩
    | quoted quote acc =>
      have hquote : isQuote quote = true := hquotes
      have hchars : " ?;".toList = [' ', '?', ';'] := rfl
      have hout : quote ∉ " ?;".toList := by
        rw [hchars, List.mem_cons, List.mem_cons, List.mem_singleton]
        rintro (rfl | rfl | rfl) <;> exact absurd hquote (by decide)
      rw [scan_quoted done quote acc hout] at h
      cases h
    | closed quote acc =>
      have hquote : isQuote quote = true := hquotes
      have hne : ' ' ≠ quote := by
        rintro rfl
        exact absurd hquote (by decide)
      have hstep : scanStep ⟨done, .closed quote acc⟩ ' ' = ⟨quotedToken quote acc.reverse :: done, .between⟩ := if_neg hne
      rw [hblank, scan_cons, hstep, hbetween] at h
      exact ⟨_, (Option.some.inj h).symm⟩

theorem tokens_unmarked {sql name : Text} (hmark : '?' ∉ sql) (hsql : Sql.apostrophe ∉ sql) (hname : Sql.apostrophe ∉ name) :
    tokens (logCommand sql name) = some (updateTokens (.literal sql) (.literal name)) := by
  have hset : ReadsClean setText [.word "UPDATE".toList, .word "sqlite_master".toList, .word "SET".toList,
      .word "sql".toList, .symbol '='] := fun _ => rfl
  have hwhere : ReadsClean whereText [.word "WHERE".toList, .word "type".toList, .symbol '=', .literal "table".toList,
      .word "AND".toList, .word "name".toList, .symbol '='] := fun _ => rfl
  have hblank : ReadsClean " ".toList [] := fun _ => rfl
  have hend : Reads ";".toList [.symbol ';'] := ReadsClean.reads fun _ => rfl
  have hnamed := (Reads.literal hname).append hend fun _ h => by
    obtain rfl := Option.some.inj h
    rfl
  have hrest := hwhere.append (hblank.append hnamed)
  have hvalue := (Reads.literal hsql).append hrest fun _ h => by
    obtain rfl := Option.some.inj h
    rfl
  rw [logCommand_unmarked hmark]
  exact (hset.append hvalue).tokens_eq

theorem quotes_quoted (text : Text) : quotes (quoted text) = 2 + quotes text := by
  have hone : quotes [Sqlite.apostrophe] = 1 := rfl
  have hcons : quotes (Sqlite.apostrophe :: text) = quotes text + 1 := quotes_cons _ _
  rw [quoted, quotes_append, hone, hcons]
  omega

theorem quotes_unmarked {sql : Text} (hmark : '?' ∉ sql) (name : Text) :
    quotes (logCommand sql name) = 6 + quotes sql + quotes name := by
  have hset : quotes setText = 0 := by decide
  have hwhere : quotes whereText = 2 := by decide
  have hend : quotes ";".toList = 0 := by decide
  have hblank : quotes (' ' :: (quoted name ++ ";".toList)) = quotes (quoted name ++ ";".toList) := by
    rw [quotes_cons, if_neg (by decide), Nat.add_zero]
  rw [logCommand_unmarked hmark]
  simp only [quotes_append, quotes_quoted, hset, hwhere, hblank, hend]
  omega

theorem tokenQuotes_update (sql name : Text) :
    tokenQuotes (updateTokens (.literal sql) (.literal name)) = 6 + 2 * quotes sql + 2 * quotes name := by
  have htable : quotes "table".toList = 0 := by decide
  simp only [updateTokens, tokenQuotes_cons, tokenQuotes_nil, Token.word_quotes, Token.symbol_quotes, Token.literal_quotes,
    htable]
  omega

/-- The statement reads as the update exactly if the values need no escape and the first has no mark. -/
def Loggable (sql name : Text) : Prop := '?' ∉ sql ∧ Sql.apostrophe ∉ sql ∧ Sql.apostrophe ∉ name

theorem tokens_logCommand_iff (sql name : Text) :
    tokens (logCommand sql name) = some (updateTokens (.literal sql) (.literal name)) ↔ Loggable sql name := by
  constructor
  · intro h
    by_cases hmark : '?' ∈ sql
    · obtain ⟨u, v, rfl, hu⟩ := List.eq_append_cons_of_mem hmark
      rw [logCommand_marked hu] at h
      obtain ⟨before, hbefore⟩ := tokens_mark_last h
      have hlast := congrArg (fun toks => toks.dropLast.getLast?) hbefore
      have hinit : before ++ [mark, .symbol ';'] = (before ++ [mark]) ++ [.symbol ';'] := by simp
      rw [hinit] at hlast
      simp [updateTokens, mark] at hlast
    · have hcount := quotes_of_tokens h
      rw [quotes_unmarked hmark, tokenQuotes_update] at hcount
      exact ⟨hmark, quotes_eq_zero_iff.mp (by omega), quotes_eq_zero_iff.mp (by omega)⟩
  · rintro ⟨hmark, hsql, hname⟩
    exact tokens_unmarked hmark hsql hname

section Calls

variable {δ : Type} {client : Client δ} {c : ForeignKeyCall} {s : KeySession δ} {sql written : Text} {next : Session δ}

/-- Only the keys of the table may have changed when the text is written. -/
theorem applyForeignKey_written (hreads : ReadsSql client c s sql next)
    (hwritten : rewritten c s.table s.newFK sql = .ok written) :
    ∃ t : KeySession δ, t.session = next ∧ t.table.tableName = s.table.tableName ∧
      applyForeignKey client c s = writeText client c written t := by
  rw [applyForeignKey_reads hreads, rewriteSchema]
  rw [rewritten] at hwritten
  by_cases hnew : c.isNew = true
  · rw [if_pos hnew] at hwritten ⊢
    exact ⟨s.withSession next, rfl, rfl, writeSchema_eq hwritten⟩
  · rw [if_neg hnew] at hwritten ⊢
    obtain ⟨⟨dropped, m⟩, hdropped, hwritten⟩ := Faults.bind_ok hwritten
    have htable : (s.withSession next).table = s.table := rfl
    rw [htable, hdropped]
    exact ⟨(s.withSession next).setForeignKeys m, rfl, rfl, writeSchema_eq hwritten⟩

end Calls

/-- The same call, executed. -/
def executed (c : ForeignKeyCall) : ForeignKeyCall := { c with logOnly := false }

/-- A call that executes stores the text with the two values bound to the parameters of the update. -/
def Binds {δ : Type} (client : Client δ) (c : ForeignKeyCall) (s : KeySession δ) (next : Session δ) (written : Text) : Prop :=
  ∃ t : KeySession δ, t.session = next ∧
    applyForeignKey client c s = writeText client c written t ∧
    (applyForeignKey client c s).state.session = (storeSql client written s.table.tableName next).2

/-- The command of a call is the update that its execution performs. -/
structure LogsTheUpdate {δ : Type} (client : Client δ) (c : ForeignKeyCall) (s : KeySession δ) (sql written : Text) : Prop where
  logged : ∃ t, applyForeignKey client c s = .returned 0 t ∧
    tokens t.command = some (updateTokens (.literal written) (.literal s.table.tableName))
  bound : ∀ {ε : Type} (other : Client ε) (u : KeySession ε) (next : Session ε), u.table = s.table → u.newFK = s.newFK →
    ReadsSql other (executed c) u sql next → Binds other (executed c) u next written

theorem writeText_state {δ : Type} (client : Client δ) {c : ForeignKeyCall} (h : c.logOnly = false) (written : Text)
    (t : KeySession δ) :
    (writeText client c written t).state.session = (storeSql client written t.table.tableName t.session).2 := by
  rw [writeText, h]
  simp only [Bool.false_eq_true, if_false]
  split <;> rfl

section Logging

variable {δ : Type} {client : Client δ} {c : ForeignKeyCall} {s : KeySession δ} {sql written : Text} {next : Session δ}

theorem applyForeignKey_logged (hlog : c.logOnly = true) (hreads : ReadsSql client c s sql next)
    (hwritten : rewritten c s.table s.newFK sql = .ok written) :
    ∃ t : KeySession δ, applyForeignKey client c s = .returned 0 t ∧ t.command = logCommand written s.table.tableName := by
  obtain ⟨t, -, hname, hcall⟩ := applyForeignKey_written hreads hwritten
  refine ⟨⟨t.session, t.table, logCommand written s.table.tableName, t.newFK⟩, ?_, rfl⟩
  rw [hcall, writeText, if_pos hlog, hname]

theorem loggable_of_logs (hlog : c.logOnly = true) (hreads : ReadsSql client c s sql next)
    (hwritten : rewritten c s.table s.newFK sql = .ok written) (h : LogsTheUpdate client c s sql written) :
    Loggable written s.table.tableName := by
  obtain ⟨t, hreturned, hcommand⟩ := applyForeignKey_logged hlog hreads hwritten
  obtain ⟨after, hafter, htokens⟩ := h.logged
  rw [hreturned] at hafter
  obtain ⟨-, rfl⟩ := Ending.returned.inj hafter
  rw [hcommand] at htokens
  exact (tokens_logCommand_iff written s.table.tableName).mp htokens

theorem binds_executed {ε : Type} {other : Client ε} {u : KeySession ε} {next : Session ε}
    (hwritten : rewritten c s.table s.newFK sql = .ok written) (htable : u.table = s.table) (hkeys : u.newFK = s.newFK)
    (hreads : ReadsSql other (executed c) u sql next) : Binds other (executed c) u next written := by
  have hexecuted : rewritten (executed c) u.table u.newFK sql = .ok written := by
    rw [htable, hkeys]
    exact hwritten
  obtain ⟨t, hsession, hname, hcall⟩ := applyForeignKey_written hreads hexecuted
  refine ⟨t, hsession, hcall, ?_⟩
  rw [hcall, writeText_state other rfl, hsession, hname]

end Logging

theorem logged_command_iff {δ : Type} (client : Client δ) {c : ForeignKeyCall} (hlog : c.logOnly = true) {s : KeySession δ}
    {next : Session δ} {sql written : Text} (hreads : ReadsSql client c s sql next)
    (hwritten : rewritten c s.table s.newFK sql = .ok written) :
    LogsTheUpdate client c s sql written ↔ Loggable written s.table.tableName := by
  constructor
  · exact loggable_of_logs hlog hreads hwritten
  · intro h
    obtain ⟨t, hreturned, hcommand⟩ := applyForeignKey_logged hlog hreads hwritten
    refine ⟨⟨t, hreturned, ?_⟩, fun _ _ _ htable hkeys hu => binds_executed hwritten htable hkeys hu⟩
    rw [hcommand]
    exact (tokens_logCommand_iff written s.table.tableName).mpr h

def loggedCall : ForeignKeyCall := addCall.select .cascade .noAction

def ordersText : Text := plainOrders.text.dropLast ++ constraintClause loggedCall clientKey []

theorem plain_orders_is_logged : LogsTheUpdate (storedClient plainOrders.text) loggedCall ordersSession plainOrders.text ordersText ↔
    Loggable ordersText "orders".toList :=
  logged_command_iff (storedClient plainOrders.text) rfl (readsSql_stored plainOrders loggedCall rfl) rfl

/-- A column whose default is a question mark. -/
def markedOrders : CreateTable where
  head := "CREATE TABLE orders".toList
  body := "client INT DEFAULT '?'".toList
  tail := []
  head_balanced := orders_balanced
  body_balanced := by decide
  tail_balanced := balanced_nil

def markedText : Text := markedOrders.text.dropLast ++ constraintClause loggedCall clientKey []

theorem marked_orders_is_not_logged :
    ¬ LogsTheUpdate (storedClient markedOrders.text) loggedCall ordersSession markedOrders.text markedText := by
  intro h
  have hloggable : Loggable markedText ordersTable.tableName :=
    loggable_of_logs rfl (readsSql_stored markedOrders loggedCall rfl) rfl h
  have hmark : '?' ∈ markedText := by
    rw [markedText, List.mem_append]
    exact Or.inl (by decide)
  exact hloggable.1 hmark

end DbHandler.SqliteSchema
