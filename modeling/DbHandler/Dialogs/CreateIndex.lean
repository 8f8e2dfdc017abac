import DbHandler.Dialogs.ColumnLists
import DbHandler.Foundation.Sql.Beginnings

namespace DbHandler.Dialogs

open Foundation.Sql

structure Control (α : Type) where
  enabled : Bool
  value : α
  deriving DecidableEq, Repr

/-- What `GenerateQuery` reads of the dialog; the radio buttons for the place of nulls are read by nothing. -/
structure IndexDialog where
  dbType : Text
  dbSubType : Text
  tableName : Text
  indexName : Text
  columns : List (Text × Bool)
  unique : Bool := false
  unclustered : Bool := false
  clustered : Bool := false
  fullText : Bool := false
  spatial : Bool := false
  concurrently : Bool := false
  indextypeBtree : Bool := false
  indextypeHash : Bool := false
  indextypeGist : Bool := false
  indextypeGin : Bool := false
  algorythmInPlace : Control Bool := ⟨true, false⟩
  algorythmCopy : Control Bool := ⟨true, false⟩
  lockNone : Control Bool := ⟨true, false⟩
  lockShared : Control Bool := ⟨true, false⟩
  lockExclusive : Control Bool := ⟨true, false⟩
  fillfactor : Control ℤ := ⟨true, 0⟩
  fastUpdate : Control Bool := ⟨true, true⟩
  tablespace : Text := []
  padIndex : Bool := false
  sortTempDB : Bool := false
  ignoreDupKeys : Bool := false
  statisticsNoRecompute : Bool := false
  statisticsIncremental : Bool := false
  dropExisting : Bool := false
  online : Bool := false
  allowRowLocks : Bool := false
  allowPageLocks : Bool := false
  maxDop : ℤ := 0
  dataCompressionRow : Bool := false
  dataCompressionPage : Bool := false
  deriving DecidableEq, Repr

namespace IndexDialog

section Query

/-- `m_fields` as `OnFieldSelection` fills it. -/
def fields (d : IndexDialog) : List Text := d.columns.map fun c => CreateIndex.entry c.1 c.2

def verify (d : IndexDialog) : Bool := d.indexName ≠ [] && d.fields ≠ []

def isServer (d : IndexDialog) (name : String) : Bool :=
  (d.dbType = "ODBC".toList && d.dbSubType = name.toList) || d.dbType = name.toList

def isSqlServer (d : IndexDialog) : Bool := d.isServer "Microsoft SQL Server"

def isMySQL (d : IndexDialog) : Bool := d.isServer "MySQL"

def isPostgreSQL (d : IndexDialog) : Bool := d.isServer "PostgreSQL"

def addIf (chosen : Bool) (text : String) : Text := if chosen then text.toList else []

def formatNumber (n : ℤ) : Text := (toString n).toList

/-- The command up to the parenthesis. -/
def beginQuery (d : IndexDialog) : Text :=
  "CREATE ".toList ++ addIf d.unique "UNIQUE " ++
    addIf (d.isSqlServer && d.unclustered) "UNCLUSTERED " ++ addIf (d.isSqlServer && d.clustered) "CLUSTERED " ++
    addIf (d.isMySQL && d.fullText) "FULLTEXT " ++ addIf (d.isMySQL && d.spatial) "SPATIAL " ++
    "INDEX ".toList ++ addIf (d.isPostgreSQL && d.concurrently) "CONCURRENTLY " ++
    (d.indexName ++ " ".toList) ++
    addIf (d.isMySQL && d.indextypeBtree) "USING BTREE " ++ addIf (d.isMySQL && d.indextypeHash) "USING HASH " ++
    ("ON ".toList ++ (d.tableName ++ " ".toList)) ++
    addIf (d.isPostgreSQL && d.indextypeBtree) "USING BTREE " ++
    addIf (d.isPostgreSQL && d.indextypeHash) "USING HASH " ++
    addIf (d.isPostgreSQL && d.indextypeGist) "USING GIST " ++
    addIf (d.isPostgreSQL && d.indextypeGin) "USING GIN "

def fieldsText : List Text → Text
  | [] => []
  | [field] => "\"".toList ++ field ++ "\"".toList ++ ")".toList
  | field :: rest => "\"".toList ++ field ++ "\"".toList ++ ",".toList ++ fieldsText rest

def addMySQLOptions (d : IndexDialog) (command : Text) : Text :=
  command ++ addIf (d.algorythmInPlace.enabled && d.algorythmInPlace.value) " ALGORITHM=INPLACE" ++
    addIf (d.algorythmCopy.enabled && d.algorythmCopy.value) " ALGORITHM=COPY" ++
    addIf (d.lockNone.enabled && d.lockNone.value) " LOCK=NONE" ++
    addIf (d.lockShared.enabled && d.lockShared.value) " LOCK=SHARED" ++
    addIf (d.lockExclusive.enabled && d.lockExclusive.value) " LOCK=EXCLUSIVE"

/-- The fast update is assigned, not appended. -/
def addPostgreSQLOptions (d : IndexDialog) (command : Text) : Text :=
  let command := if d.fillfactor.enabled then
    command ++ " WITH FILLFACTOR=".toList ++ formatNumber d.fillfactor.value else command
  let command := if d.fastUpdate.enabled then
    (if d.fastUpdate.value then " WITH FASTUPDATE=ON".toList else " WITH FASTUPDATE=OFF".toList) else command
  if d.tablespace ≠ [] then command ++ " TABLESPACE ".toList ++ d.tablespace else command

/-- The options of the SQL Server with the flag `with`. -/
def addOption (chosen : Bool) (option : Text) (s : Bool × Text) : Bool × Text :=
  if chosen then (true, s.2 ++ (if s.1 then " | ".toList else " WITH ".toList) ++ option) else s

def addSqlServerOptions (d : IndexDialog) (command : Text) : Text :=
  let s := if d.padIndex then
    (true, command ++ " WITH PAD_INDEX = ON | FILLFACTOR = ".toList ++ formatNumber d.fillfactor.value)
    else (false, command)
  let s := addOption d.sortTempDB "SORT_IN_TEMPDB = ON".toList s
  let s := addOption d.ignoreDupKeys "IGNORE_DUP_KEY = ON".toList s
  let s := addOption d.statisticsNoRecompute "STATISTICS_NORECOMPUTE = ON".toList s
  let s := addOption d.statisticsIncremental "STATISTICS_INCREMENTAL = ON".toList s
  let s := addOption d.dropExisting "DROP_EXISTING = ON".toList s
  let s := addOption d.online "ONLINE = ON".toList s
  let s := addOption d.allowRowLocks "ALLOW_ROW_LOCKS = ON".toList s
  let s := addOption d.allowPageLocks "ALLOW_PAGE_LOCKS = ON".toList s
  let s := addOption (0 < d.maxDop) ("MAXDOP = ".toList ++ formatNumber d.maxDop) s
  let s := addOption d.dataCompressionRow "DATA_COMPRESSION = ROW".toList s
  let s := addOption d.dataCompressionPage "DATA_COMPRESSION = PAGE".toList s
  s.2

def addOptions (d : IndexDialog) (command : Text) : Text :=
  let command := if d.isMySQL then d.addMySQLOptions command else command
  let command := if d.isPostgreSQL then d.addPostgreSQLOptions command else command
  if d.isSqlServer then d.addSqlServerOptions command else command

def generateQuery (d : IndexDialog) : Text :=
  d.addOptions (d.beginQuery ++ "(".toList ++ fieldsText d.fields) ++ ";".toList

end Query

section Statement

def wordsIf (chosen : Bool) (words : List String) : List Token :=
  if chosen then words.map fun w => .word w.toList else []

def beginTokens (d : IndexDialog) (name table : List Token) : List Token :=
  [.word "CREATE".toList] ++ wordsIf d.unique ["UNIQUE"] ++
    wordsIf (d.isSqlServer && d.unclustered) ["UNCLUSTERED"] ++ wordsIf (d.isSqlServer && d.clustered) ["CLUSTERED"] ++
    wordsIf (d.isMySQL && d.fullText) ["FULLTEXT"] ++ wordsIf (d.isMySQL && d.spatial) ["SPATIAL"] ++
    [.word "INDEX".toList] ++ wordsIf (d.isPostgreSQL && d.concurrently) ["CONCURRENTLY"] ++ name ++
    wordsIf (d.isMySQL && d.indextypeBtree) ["USING", "BTREE"] ++
    wordsIf (d.isMySQL && d.indextypeHash) ["USING", "HASH"] ++ ([.word "ON".toList] ++ table) ++
    wordsIf (d.isPostgreSQL && d.indextypeBtree) ["USING", "BTREE"] ++
    wordsIf (d.isPostgreSQL && d.indextypeHash) ["USING", "HASH"] ++
    wordsIf (d.isPostgreSQL && d.indextypeGist) ["USING", "GIST"] ++
    wordsIf (d.isPostgreSQL && d.indextypeGin) ["USING", "GIN"]

def itemTokens (c : Text × Bool) : List Token :=
  [.name c.1, .word (if c.2 then "ASC".toList else "DESC".toList)]

def itemsTokens (columns : List (Text × Bool)) : List Token := [.symbol ','].intercalate (columns.map itemTokens)

def assignment (option : String) (value : Text) : List Token := [.word option.toList, .symbol '=', .word value]

/-- Each option that is enabled and chosen, with the tokens that are to say so. -/
def chosenOptions (d : IndexDialog) : List (List Token) :=
  ([(d.isMySQL && d.algorythmInPlace.enabled && d.algorythmInPlace.value, assignment "ALGORITHM" "INPLACE".toList),
    (d.isMySQL && d.algorythmCopy.enabled && d.algorythmCopy.value, assignment "ALGORITHM" "COPY".toList),
    (d.isMySQL && d.lockNone.enabled && d.lockNone.value, assignment "LOCK" "NONE".toList),
    (d.isMySQL && d.lockShared.enabled && d.lockShared.value, assignment "LOCK" "SHARED".toList),
    (d.isMySQL && d.lockExclusive.enabled && d.lockExclusive.value, assignment "LOCK" "EXCLUSIVE".toList),
    (d.isPostgreSQL && d.fillfactor.enabled, assignment "FILLFACTOR" (formatNumber d.fillfactor.value)),
    (d.isPostgreSQL && d.fastUpdate.enabled,
      assignment "FASTUPDATE" (if d.fastUpdate.value then "ON".toList else "OFF".toList)),
    (d.isPostgreSQL && d.tablespace ≠ [], [.word "TABLESPACE".toList, .word d.tablespace]),
    (d.isSqlServer && d.padIndex, assignment "PAD_INDEX" "ON".toList),
    (d.isSqlServer && d.padIndex, assignment "FILLFACTOR" (formatNumber d.fillfactor.value)),
    (d.isSqlServer && d.sortTempDB, assignment "SORT_IN_TEMPDB" "ON".toList),
    (d.isSqlServer && d.ignoreDupKeys, assignment "IGNORE_DUP_KEY" "ON".toList),
    (d.isSqlServer && d.statisticsNoRecompute, assignment "STATISTICS_NORECOMPUTE" "ON".toList),
    (d.isSqlServer && d.statisticsIncremental, assignment "STATISTICS_INCREMENTAL" "ON".toList),
    (d.isSqlServer && d.dropExisting, assignment "DROP_EXISTING" "ON".toList),
    (d.isSqlServer && d.online, assignment "ONLINE" "ON".toList),
    (d.isSqlServer && d.allowRowLocks, assignment "ALLOW_ROW_LOCKS" "ON".toList),
    (d.isSqlServer && d.allowPageLocks, assignment "ALLOW_PAGE_LOCKS" "ON".toList),
    (d.isSqlServer && 0 < d.maxDop, assignment "MAXDOP" (formatNumber d.maxDop)),
    (d.isSqlServer && d.dataCompressionRow, assignment "DATA_COMPRESSION" "ROW".toList),
    (d.isSqlServer && d.dataCompressionPage, assignment "DATA_COMPRESSION" "PAGE".toList)] :
    List (Bool × List Token)).filterMap fun o => if o.1 then some o.2 else none

def occurrences (p l : List Token) : ℕ := l.tails.countP (p.isPrefixOf ·)

/-- One statement: its beginning, the columns with their directions, and each chosen option once behind them. -/
def WellFormed (d : IndexDialog) (text : Text) : Prop :=
  ∃ name table options, tokens d.indexName = some name ∧ tokens d.tableName = some table ∧
    tokens text = some (d.beginTokens name table ++ [.symbol '('] ++ itemsTokens d.columns ++ [.symbol ')'] ++ options ++
      [.symbol ';']) ∧
    .symbol ';' ∉ options ∧ ∀ option ∈ d.chosenOptions, occurrences option options = 1

end Statement

section Beginning

variable {d : IndexDialog}

theorem readsClean_addIf (chosen : Bool) {text : String} {words : List String}
    (h : ReadsClean text.toList (words.map fun w => .word w.toList)) :
    ReadsClean (addIf chosen text) (wordsIf chosen words) := by
  cases chosen
  · exact fun done => rfl
  · exact h

theorem readsClean_beginQuery {name table : List Token} (hname : tokens d.indexName = some name)
    (htable : tokens d.tableName = some table) : ReadsClean d.beginQuery (d.beginTokens name table) := by
  have hcreate : ReadsClean "CREATE ".toList [.word "CREATE".toList] := fun done => rfl
  have hindex : ReadsClean "INDEX ".toList [.word "INDEX".toList] := fun done => rfl
  have hon : ReadsClean "ON ".toList [.word "ON".toList] := fun done => rfl
  have hindexName : ReadsClean (d.indexName ++ " ".toList) name := readsClean_of_tokens hname
  have htableName : ReadsClean (d.tableName ++ " ".toList) table := readsClean_of_tokens htable
  refine hcreate.trans ?_ |>.trans ?_ |>.trans ?_ |>.trans ?_ |>.trans ?_ |>.trans hindex |>.trans ?_
    |>.trans hindexName |>.trans ?_ |>.trans ?_ |>.trans (hon.trans htableName) |>.trans ?_ |>.trans ?_
    |>.trans ?_ |>.trans ?_
  all_goals exact readsClean_addIf _ fun done => rfl

theorem beginTokens_cons (d : IndexDialog) (name table : List Token) :
    ∃ toks, d.beginTokens name table = .word "CREATE".toList :: toks := by
  rw [beginTokens]
  simp only [List.append_assoc]
  exact ⟨_, List.singleton_append⟩

theorem addMySQLOptions_extends (d : IndexDialog) (command : Text) : command <+: d.addMySQLOptions command := by
  rw [addMySQLOptions]
  simp only [List.append_assoc]
  exact List.prefix_append _ _

theorem addOption_extends (chosen : Bool) (option : Text) (s : Bool × Text) : s.2 <+: (addOption chosen option s).2 := by
  rw [addOption]
  split
  · exact ⟨_, (List.append_assoc _ _ _).symm⟩
  · exact List.prefix_rfl

theorem addSqlServerOptions_extends (d : IndexDialog) (command : Text) : command <+: d.addSqlServerOptions command := by
  have hpad : command <+: (if d.padIndex then
      (true, command ++ " WITH PAD_INDEX = ON | FILLFACTOR = ".toList ++ formatNumber d.fillfactor.value)
      else (false, command)).2 := by
    split
    · exact ⟨_, (List.append_assoc _ _ _).symm⟩
    · exact List.prefix_rfl
  have hoption := addOption_extends
  exact hpad.trans <| (hoption _ _ _).trans <| (hoption _ _ _).trans <| (hoption _ _ _).trans <|
    (hoption _ _ _).trans <| (hoption _ _ _).trans <| (hoption _ _ _).trans <| (hoption _ _ _).trans <|
    (hoption _ _ _).trans <| (hoption _ _ _).trans <| (hoption _ _ _).trans (hoption _ _ _)

theorem addPostgreSQLOptions_extends (d : IndexDialog) (command : Text) :
    (if d.fastUpdate.enabled then " WITH FASTUPDATE=".toList else command) <+: d.addPostgreSQLOptions command := by
  rw [addPostgreSQLOptions]
  have hspace (command : Text) : command <+:
      if d.tablespace ≠ [] then command ++ " TABLESPACE ".toList ++ d.tablespace else command := by
    split
    · exact ⟨_, (List.append_assoc _ _ _).symm⟩
    · exact List.prefix_rfl
  refine List.IsPrefix.trans ?_ (hspace _)
  cases d.fastUpdate.enabled with
  | true => cases d.fastUpdate.value <;> exact ⟨_, rfl⟩
  | false =>
    cases d.fillfactor.enabled with
    | true => exact ⟨_, (List.append_assoc _ _ _).symm⟩
    | false => exact List.prefix_rfl

theorem addOptions_extends (d : IndexDialog) (command : Text) :
    (if d.isPostgreSQL && d.fastUpdate.enabled then " WITH FASTUPDATE=".toList else command) <+: d.addOptions command := by
  have hif (chosen : Bool) {add : Text → Text} (hadd : ∀ command, command <+: add command) (command : Text) :
      command <+: if chosen then add command else command := by
    cases chosen
    · exact List.prefix_rfl
    · exact hadd command
  have hmySQL := hif d.isMySQL d.addMySQLOptions_extends command
  refine List.IsPrefix.trans ?_ (hif d.isSqlServer d.addSqlServerOptions_extends _)
  cases d.isPostgreSQL with
  | false => exact hmySQL
  | true =>
    refine List.IsPrefix.trans ?_ (d.addPostgreSQLOptions_extends _)
    cases d.fastUpdate.enabled with
    | true => exact List.prefix_rfl
    | false => exact hmySQL

end Beginning

section Directions

/-- The direction of the first column stands inside its quotes, so that its name is never read. -/
theorem first_item_ne (c : Text × Bool) (columns : List (Text × Bool)) (more : Text) (toks : List Token) :
    tokens (fieldsText (CreateIndex.entry c.1 c.2 :: columns.map fun c => CreateIndex.entry c.1 c.2) ++ more) ≠
      some (.name c.1 :: toks) := by
  obtain ⟨rest, hrest⟩ : ∃ rest, fieldsText (CreateIndex.entry c.1 c.2 :: columns.map fun c => CreateIndex.entry c.1 c.2) ++
      more = quotation :: (c.1 ++ ' ' :: rest) := by
    obtain ⟨direction, hentry⟩ : ∃ direction, CreateIndex.entry c.1 c.2 = c.1 ++ ' ' :: direction := by
      rw [CreateIndex.entry]
      cases c.2 <;> exact ⟨_, rfl⟩
    rw [hentry]
    cases columns with
    | nil => exact ⟨direction ++ "\"".toList ++ ")".toList ++ more, by simp [fieldsText, quotation]⟩
    | cons d columns =>
      exact ⟨direction ++ "\"".toList ++ ",".toList ++
        fieldsText ((d :: columns).map fun c => CreateIndex.entry c.1 c.2) ++ more, by simp [fieldsText, quotation]⟩
  rw [hrest]
  intro h
  exact name_ne_of_tokens h rfl

theorem itemsTokens_cons (c : Text × Bool) (columns : List (Text × Bool)) :
    ∃ toks, itemsTokens (c :: columns) = .name c.1 :: toks := by
  cases columns <;> exact ⟨_, rfl⟩

end Directions

theorem generateQuery_never_wellFormed (d : IndexDialog) (h : d.verify = true) : ¬ d.WellFormed d.generateQuery := by
  rintro ⟨name, table, options, hname, htable, htokens, -⟩
  obtain ⟨more, hmore⟩ := (d.addOptions_extends (d.beginQuery ++ "(".toList ++ fieldsText d.fields)).trans
    (List.prefix_append _ ";".toList)
  by_cases hfast : (d.isPostgreSQL && d.fastUpdate.enabled) = true
  · rw [if_pos hfast] at hmore
    have hclean : ReadsClean " WITH FASTUPDATE=".toList [.word "WITH".toList, .word "FASTUPDATE".toList, .symbol '='] :=
      fun done => rfl
    rw [generateQuery, ← hmore, hclean.tokens_append] at htokens
    obtain ⟨toks, -, htoks⟩ := Option.map_eq_some_iff.mp htokens
    obtain ⟨rest, hrest⟩ := d.beginTokens_cons name table
    rw [hrest] at htoks
    simp only [List.cons_append] at htoks
    have hfirst : Token.word "WITH".toList = Token.word "CREATE".toList := (List.cons.inj htoks).1
    exact absurd hfirst (by decide)
  · rw [if_neg hfast] at hmore
    have hclean : ReadsClean (d.beginQuery ++ "(".toList) (d.beginTokens name table ++ [.symbol '(']) :=
      (readsClean_beginQuery hname htable).trans fun done => rfl
    rw [generateQuery, ← hmore, List.append_assoc, hclean.tokens_append] at htokens
    obtain ⟨toks, htoks, hsame⟩ := Option.map_eq_some_iff.mp htokens
    simp only [List.append_assoc, List.append_cancel_left_eq] at hsame
    rw [fields] at htoks
    cases hcolumns : d.columns with
    | nil => simp [verify, fields, hcolumns] at h
    | cons c columns =>
      obtain ⟨items, hitems⟩ := itemsTokens_cons c columns
      rw [hcolumns, hitems] at hsame
      rw [hcolumns, hsame] at htoks
      exact first_item_ne c columns more _ htoks

def sqliteDialog : IndexDialog :=
  { dbType := "SQLite".toList, dbSubType := [], tableName := "t".toList, indexName := "i".toList,
    columns := [("c".toList, true)] }

theorem generateQuery_sqliteDialog_not_wellFormed :
    sqliteDialog.verify = true ∧ ¬ sqliteDialog.WellFormed sqliteDialog.generateQuery :=
  ⟨by decide, generateQuery_never_wellFormed sqliteDialog (by decide)⟩

/-- One column is enough: its direction becomes part of its name. -/
theorem direction_inside_quotes : sqliteDialog.verify = true ∧
    sqliteDialog.generateQuery = "CREATE INDEX i ON t (\"c ASC\");".toList ∧
    ¬ sqliteDialog.WellFormed sqliteDialog.generateQuery := by
  have htext : tokens sqliteDialog.generateQuery = some [.word "CREATE".toList, .word "INDEX".toList, .word "i".toList,
      .word "ON".toList, .word "t".toList, .symbol '(', .name "c ASC".toList, .symbol ')', .symbol ';'] := by decide
  refine ⟨by decide, by decide, ?_⟩
  rintro ⟨name, table, options, hname, htable, htokens, -⟩
  have hindex : name = [.word "i".toList] := Option.some.inj (hname.symm.trans (by decide))
  have hon : table = [.word "t".toList] := Option.some.inj (htable.symm.trans (by decide))
  rw [hindex, hon] at htokens
  have hitem := congrArg (·[6]?) (Option.some.inj (htext.symm.trans htokens))
  have hsame : Token.name "c ASC".toList = Token.name "c".toList := Option.some.inj hitem
  exact absurd hsame (by decide)

end IndexDialog

end DbHandler.Dialogs
