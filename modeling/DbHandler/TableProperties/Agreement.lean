import DbHandler.TableProperties.Statements

namespace DbHandler.PropertyStatements

open Foundation.Sql

def abcattblColumns : List Text :=
  ["abt_tnam", "abt_tid", "abt_ownr", "abd_fhgt", "abd_fwgt", "abd_fitl", "abd_funl", "abd_fstr", "abd_fchr",
    "abd_fptc", "abd_ffce", "abh_fhgt", "abh_fwgt", "abh_fitl", "abh_funl", "abh_fstr", "abh_fchr", "abh_fptc",
    "abh_ffce", "abl_fhgt", "abl_fwgt", "abl_fitl", "abl_funl", "abl_fstr", "abl_fchr", "abl_fptc", "abl_ffce",
    "abt_cmnt"].map String.toList

def fontContents (c : FontColumns) (f : Font) : List (Text × List Value) :=
  [(c.fhgt.toList, [.number f.size]), (c.fwgt.toList, [.number f.weight]), (c.fitl.toList, [letter f.italic]),
    (c.funl.toList, [digit f.underline, letter f.underline]),
    (c.fstr.toList, [digit f.strikethrough, letter f.strikethrough]), (c.fchr.toList, [.number f.encoding]),
    (c.fptc.toList, [.number f.pixelSize]), (c.ffce.toList, [.text f.name])]

def propertyContents (p : TableProperties) : List (Text × List Value) :=
  fontContents dataColumns p.dataFont ++ fontContents headingColumns p.headingFont ++
    fontContents labelColumns p.labelFont ++ [("abt_cmnt".toList, [.text p.comment])]

structure StatementsAgree (d : Driver) (t : DatabaseTable) (p : TableProperties) (u : Update) (i : Insert) : Prop where
  once : ∀ column ∈ abcattblColumns, (u.assignments.filter (·.1 = column)).length = 1
  full : i.values.length = abcattblColumns.length
  update_carries : ∀ e ∈ propertyContents p, ∃ a ∈ u.assignments, a.1 = e.1 ∧ a.2.content ∈ e.2.map Value.content
  insert_carries : ∀ e ∈ propertyContents p, ∃ v ∈ e.2, i.row abcattblColumns e.1 = some v.content
  row : ∀ row, u.Selects row → ∀ column ∈ abcattblColumns, u.apply row column = i.row abcattblColumns column
  selects : ∀ row, u.Selects row ↔
    row "abt_tnam".toList = some (d.tested t).1 ∧ row "abt_ownr".toList = some (d.tested t).2

structure QuoteFree (user : Text) (t : DatabaseTable) (p : TableProperties) : Prop where
  user : apostrophe ∉ user
  schemaName : apostrophe ∉ t.schemaName
  tableName : apostrophe ∉ t.tableName
  owner : apostrophe ∉ t.owner
  tableComment : apostrophe ∉ t.comment
  comment : apostrophe ∉ p.comment
  dataFontName : apostrophe ∉ p.dataFontName
  headingFontName : apostrophe ∉ p.headingFontName
  labelFontName : apostrophe ∉ p.labelFontName

def Assignable (e : List Char × List Char × Value) : Prop :=
  IsSeparator e.1 (.symbol ',') ∧ quotation ∉ e.2.1 ∧ e.2.2.QuoteFree

theorem letter_quoteFree (b : Bool) : (letter b).QuoteFree := by
  cases b with
  | true => exact (by decide : apostrophe ∉ "Y".toList)
  | false => exact (by decide : apostrophe ∉ "N".toList)

theorem digit_quoteFree (b : Bool) : (digit b).QuoteFree := trivial

def Separated (e : List Char × List Char × Value) : Prop := IsSeparator e.1 (.symbol ',') ∧ quotation ∉ e.2.1

theorem assign_separated {column : String} (value : Value) (hcolumn : quotation ∉ column.toList) :
    Separated (assign column value) := by
  refine ⟨⟨fun done => rfl, List.cons_ne_nil ',' _, ?_⟩, hcolumn⟩
  rintro c ⟨⟩
  rfl

theorem assignSize_separated {column : String} (value : Value) (hcolumn : quotation ∉ column.toList) :
    Separated (assignSize column value) := by
  refine ⟨⟨fun done => rfl, List.cons_ne_nil ',' _, ?_⟩, hcolumn⟩
  rintro c ⟨⟩
  rfl

theorem assign_assignable {column : String} {value : Value} (hcolumn : quotation ∉ column.toList)
    (hvalue : value.QuoteFree) : Assignable (assign column value) :=
  ⟨(assign_separated value hcolumn).1, hcolumn, hvalue⟩

theorem compare_separates (column : String) (value : Value) :
    IsSeparator (compare column value).1 (.word "AND".toList) := by
  refine ⟨fun done => rfl, List.cons_ne_nil ' ' _, ?_⟩
  rintro c ⟨⟩
  rfl

def FontColumns.names (c : FontColumns) : List String := [c.fhgt, c.fwgt, c.fitl, c.funl, c.fstr, c.fchr, c.fptc, c.ffce]

theorem fontAssignments_separated {c : FontColumns} (hc : ∀ s ∈ c.names, quotation ∉ s.toList)
    (underline : Bool → Value) (strikethrough : Bool) (f : Font) :
    ∀ e ∈ fontAssignments c underline strikethrough f, Separated e := by
  simp only [FontColumns.names, List.forall_mem_cons] at hc
  obtain ⟨h₁, h₂, h₃, h₄, h₅, h₆, h₇, h₈, -⟩ := hc
  have hstrike : ∀ e ∈ if strikethrough then [assign c.fstr (digit f.strikethrough)] else [], Separated e := by
    cases strikethrough with
    | true => simpa using assign_separated (digit f.strikethrough) h₅
    | false => simp
  intro e he
  rw [fontAssignments, List.mem_append, List.mem_append] at he
  rcases he with (he | he) | he
  · simp only [List.mem_cons, List.not_mem_nil, or_false] at he
    rcases he with rfl | rfl | rfl | rfl
    · exact assignSize_separated _ h₁
    · exact assign_separated _ h₂
    · exact assign_separated _ h₃
    · exact assign_separated _ h₄
  · exact hstrike e he
  · simp only [List.mem_cons, List.not_mem_nil, or_false] at he
    rcases he with rfl | rfl | rfl
    · exact assign_separated _ h₆
    · exact assign_separated _ h₇
    · exact assign_separated _ h₈

theorem fontAssignments_quoteFree_iff {c : FontColumns} {underline : Bool → Value}
    (hunderline : ∀ b, (underline b).QuoteFree) (strikethrough : Bool) (f : Font) :
    (∀ e ∈ fontAssignments c underline strikethrough f, e.2.2.QuoteFree) ↔ apostrophe ∉ f.name := by
  have hletter := letter_quoteFree f.italic
  have hline := hunderline f.underline
  cases strikethrough with
  | true => simp [fontAssignments, assign, assignSize, digit, hletter, hline]
  | false => simp [fontAssignments, assign, assignSize, hletter, hline]

theorem fontAssignments_assignable {c : FontColumns} {underline : Bool → Value} {f : Font}
    (hc : ∀ s ∈ c.names, quotation ∉ s.toList) (hunderline : ∀ b, (underline b).QuoteFree)
    (hname : apostrophe ∉ f.name) (strikethrough : Bool) :
    ∀ e ∈ fontAssignments c underline strikethrough f, Assignable e := by
  intro e he
  have hseparated := fontAssignments_separated hc underline strikethrough f e he
  exact ⟨hseparated.1, hseparated.2, (fontAssignments_quoteFree_iff hunderline strikethrough f).mpr hname e he⟩

def updateOf (catalog : String) (tnam : Text) (tid : ℕ) (ownr : Text) (fonts : List (List Char × List Char × Value))
    (comment whereOwner : Text) : Update :=
  ⟨catalog.toList,
    pairOf "abt_tnam".toList (.text tnam) :: ([assign "abt_tid" (.number tid), assign "abt_ownr" (.text ownr)] ++
      fonts ++ [assign "abt_cmnt" (.text comment)]).map fun e => pairOf e.2.1 e.2.2,
    [pairOf "abt_tnam".toList (.text tnam), pairOf "abt_tid".toList (.number tid),
      pairOf "abt_ownr".toList (.text whereOwner)]⟩

theorem interpret_updateCommand {catalog : String} {tnam : Text} (tid : ℕ) {ownr : Text}
    {fonts : List (List Char × List Char × Value)} {comment whereOwner : Text}
    (hcatalog : quotation ∉ catalog.toList) (htnam : apostrophe ∉ tnam) (hownr : apostrophe ∉ ownr)
    (hfonts : ∀ e ∈ fonts, Assignable e) (hcomment : apostrophe ∉ comment) (hwhere : apostrophe ∉ whereOwner) :
    interpretUpdate (updateCommand catalog tnam tid ownr fonts comment whereOwner) =
      some (updateOf catalog tnam tid ownr fonts comment whereOwner) := by
  have htnamColumn : quotation ∉ "abt_tnam".toList := by decide
  have htidColumn : quotation ∉ "abt_tid".toList := by decide
  have hownrColumn : quotation ∉ "abt_ownr".toList := by decide
  refine interpretUpdate_updateText hcatalog ⟨htnamColumn, htnam⟩ (fun e he => ?_) ⟨htnamColumn, htnam⟩ fun e he => ?_
  · change Assignable e
    simp only [List.mem_append, List.mem_cons, List.not_mem_nil, or_false] at he
    rcases he with ((rfl | rfl) | he) | rfl
    · exact assign_assignable htidColumn trivial
    · exact assign_assignable hownrColumn hownr
    · exact hfonts e he
    · exact assign_assignable (by decide) hcomment
  · simp only [List.mem_cons, List.not_mem_nil, or_false] at he
    rcases he with rfl | rfl
    · exact ⟨compare_separates _ _, htidColumn, trivial⟩
    · exact ⟨compare_separates _ _, hownrColumn, hwhere⟩

theorem interpret_insertCommand {catalog : String} {tnam : Text} (tid : ℕ) {ownr : Text} {fonts : List Value}
    {comment : Text} (hcatalog : quotation ∉ catalog.toList) (htnam : apostrophe ∉ tnam)
    (hownr : apostrophe ∉ ownr) (hfonts : ∀ v ∈ fonts, v.QuoteFree) (hcomment : apostrophe ∉ comment) :
    ∃ i, interpretInsert (insertCommand catalog tnam tid ownr fonts comment) = some i := by
  refine ⟨_, interpretInsert_insertText hcatalog htnam fun v hv => ?_⟩
  simp only [List.mem_append, List.mem_cons, List.not_mem_nil, or_false] at hv
  rcases hv with ((rfl | rfl) | hv) | rfl
  · trivial
  · exact hownr
  · exact hfonts v hv
  · exact hcomment

theorem qualifiedName_quoteFree {user : Text} {t : DatabaseTable} {p : TableProperties} (h : QuoteFree user t p) :
    apostrophe ∉ qualifiedName t := by
  have hdot : apostrophe ∉ ".".toList := by decide
  simp only [qualifiedName, List.mem_append, not_or]
  exact ⟨⟨h.schemaName, hdot⟩, h.tableName⟩

theorem fonts_assignable {user : Text} {t : DatabaseTable} {p : TableProperties} (h : QuoteFree user t p)
    {heading : FontColumns} (hheading : ∀ s ∈ heading.names, quotation ∉ s.toList) {underline : Bool → Value}
    (hunderline : ∀ b, (underline b).QuoteFree) (data label : Bool) :
    ∀ e ∈ fontAssignments dataColumns underline data p.dataFont ++
      fontAssignments heading underline data p.headingFont ++
        fontAssignments labelColumns underline label p.labelFont, Assignable e := by
  intro e he
  rw [List.mem_append, List.mem_append] at he
  rcases he with (he | he) | he
  · exact fontAssignments_assignable (by decide) hunderline h.dataFontName data e he
  · exact fontAssignments_assignable hheading hunderline h.headingFontName data e he
  · exact fontAssignments_assignable (by decide) hunderline h.labelFontName label e he

theorem fontValues_quoteFree_iff {underline : Value} {strikethrough : List Value} {f : Font}
    (hunderline : underline.QuoteFree) (hstrike : ∀ v ∈ strikethrough, v.QuoteFree) :
    (∀ v ∈ fontValues underline strikethrough f, v.QuoteFree) ↔ apostrophe ∉ f.name := by
  have hletter := letter_quoteFree f.italic
  simp only [fontValues, List.forall_mem_append, List.forall_mem_cons]
  simp [hletter, hunderline]
  exact fun _ => hstrike

theorem fontValues_quoteFree {underline : Value} {strikethrough : List Value} {f : Font}
    (hunderline : underline.QuoteFree) (hstrike : ∀ v ∈ strikethrough, v.QuoteFree) (hname : apostrophe ∉ f.name) :
    ∀ v ∈ fontValues underline strikethrough f, v.QuoteFree :=
  (fontValues_quoteFree_iff hunderline hstrike).mpr hname

def Driver.updateRead (d : Driver) (user : Text) (t : DatabaseTable) (p : TableProperties) : Update :=
  match d with
  | .sqlite => updateOf "sys.abcattbl" t.tableName t.objectId t.owner (SQLite.updateFonts p) p.comment t.owner
  | .postgres => updateOf "abcattbl" (qualifiedName t) t.objectId user (Postgres.updateFonts p) p.comment user
  | .mySQL _ => updateOf "abcattbl" t.tableName t.objectId user (MySQL.updateFonts p) t.comment user
  | .odbc => updateOf "abcattbl" (qualifiedName t) t.objectId t.owner (Odbc.updateFonts p) p.comment user

theorem update_read (d : Driver) {user : Text} {t : DatabaseTable} {p : TableProperties} (h : QuoteFree user t p) :
    interpretUpdate (d.update user t p) = some (d.updateRead user t p) := by
  have hname := qualifiedName_quoteFree h
  cases d with
  | sqlite =>
    exact interpret_updateCommand _ (by decide) h.tableName h.owner
      (fonts_assignable h (by decide) digit_quoteFree true true) h.comment h.owner
  | postgres =>
    exact interpret_updateCommand _ (by decide) hname h.user
      (fonts_assignable h (by decide) digit_quoteFree true true) h.comment h.user
  | mySQL buffers =>
    exact interpret_updateCommand _ (by decide) h.tableName h.user
      (fonts_assignable h (by decide) letter_quoteFree false false) h.tableComment h.user
  | odbc =>
    exact interpret_updateCommand _ (by decide) hname h.owner
      (fonts_assignable h (by decide) digit_quoteFree true false) h.comment h.user

theorem insertFonts_quoteFree (d : Driver) {user : Text} {t : DatabaseTable} {p : TableProperties}
    (h : QuoteFree user t p) : ∀ v ∈ d.insertFonts p, v.QuoteFree := by
  have hdigit : ∀ b, ∀ v ∈ [digit b], v.QuoteFree := by
    intro b v hv
    obtain rfl : v = digit b := by simpa using hv
    trivial
  have hlabel : ∀ b, (Value.text (digit b).content).QuoteFree := by
    intro b
    cases b with
    | true => exact (by decide : apostrophe ∉ "1".toList)
    | false => exact (by decide : apostrophe ∉ "0".toList)
  intro v hv
  cases d with
  | sqlite =>
    rw [Driver.insertFonts, SQLite.insertFonts, List.mem_append, List.mem_append] at hv
    rcases hv with (hv | hv) | hv
    · exact fontValues_quoteFree (digit_quoteFree _) (hdigit _) h.dataFontName v hv
    · exact fontValues_quoteFree (digit_quoteFree _) (hdigit _) h.headingFontName v hv
    · exact fontValues_quoteFree (hlabel _) (hdigit _) h.labelFontName v hv
  | postgres | odbc =>
    simp only [Driver.insertFonts, Postgres.insertFonts, Odbc.insertFonts, List.mem_append] at hv
    rcases hv with (hv | hv) | hv
    · exact fontValues_quoteFree (digit_quoteFree _) (hdigit _) h.dataFontName v hv
    · exact fontValues_quoteFree (digit_quoteFree _) (hdigit _) h.headingFontName v hv
    · exact fontValues_quoteFree (digit_quoteFree _) (hdigit _) h.labelFontName v hv
  | mySQL buffers =>
    rw [Driver.insertFonts, MySQL.insertFonts, List.mem_append, List.mem_append] at hv
    rcases hv with (hv | hv) | hv
    · exact fontValues_quoteFree (letter_quoteFree _) (by simp) h.dataFontName v hv
    · exact fontValues_quoteFree (letter_quoteFree _) (by simp) h.headingFontName v hv
    · exact fontValues_quoteFree (letter_quoteFree _) (by simp) h.labelFontName v hv

theorem insert_read (d : Driver) {user : Text} {t : DatabaseTable} {p : TableProperties} (h : QuoteFree user t p) :
    ∃ i, interpretInsert (d.insert user t p) = some i := by
  have hname := qualifiedName_quoteFree h
  have hfonts := insertFonts_quoteFree d h
  cases d with
  | sqlite => exact interpret_insertCommand _ (by decide) h.tableName h.owner hfonts h.comment
  | postgres => exact interpret_insertCommand _ (by decide) hname h.user hfonts h.comment
  | mySQL buffers => exact interpret_insertCommand _ (by decide) h.tableName h.user hfonts h.tableComment
  | odbc => exact interpret_insertCommand _ (by decide) hname h.owner hfonts h.comment

def Driver.missing : Driver → Text
  | .odbc => "abl_fstr".toList
  | _ => "abh_fwgt".toList

theorem missing_not_assigned (d : Driver) (user : Text) (t : DatabaseTable) (p : TableProperties) :
    (d.updateRead user t p).assignments.filter (·.1 = d.missing) = [] := by
  cases d <;> rfl

theorem missing_mem (d : Driver) : d.missing ∈ abcattblColumns := by
  cases d with
  | odbc => exact (by decide : "abl_fstr".toList ∈ abcattblColumns)
  | sqlite | postgres | mySQL buffers => exact (by decide : "abh_fwgt".toList ∈ abcattblColumns)

def SetAgrees (d : Driver) (user : Text) (t : DatabaseTable) (p : TableProperties) : Prop :=
  ∃ u i, interpretUpdate (d.command true user t p) = some u ∧ interpretInsert (d.command false user t p) = some i ∧
    StatementsAgree d t p u i

theorem update_and_insert_disagree (d : Driver) {user : Text} {t : DatabaseTable} {p : TableProperties}
    (h : QuoteFree user t p) :
    (∃ u i, interpretUpdate (d.command true user t p) = some u ∧
      interpretInsert (d.command false user t p) = some i) ∧ ¬ SetAgrees d user t p := by
  have hupdate : interpretUpdate (d.command true user t p) = some (d.updateRead user t p) := update_read d h
  obtain ⟨i, hinsert⟩ := insert_read d h
  refine ⟨⟨_, i, hupdate, hinsert⟩, ?_⟩
  rintro ⟨u, j, hu, -, hagree⟩
  obtain rfl := Option.some.inj (hupdate.symm.trans hu)
  have hone := hagree.once d.missing (missing_mem d)
  rw [missing_not_assigned] at hone
  exact absurd hone (by decide)

def plainTable : DatabaseTable :=
  { schemaName := "main".toList, tableName := "invoice".toList, foreignKeys := .empty, owner := "".toList }

def plainProperties : TableProperties :=
  { comment := [], dataFontName := "Arial".toList, headingFontName := "Arial".toList, labelFontName := "Arial".toList,
    dataFontSize := 8, dataFontEncoding := -1, dataFontPixelSize := 11, dataFontWeight := 0,
    dataFontUnderline := false, dataFontStrikethrough := false, dataFontItalic := false,
    headingFontSize := 8, headingFontEncoding := -1, headingFontPixelSize := 11, headingFontWeight := 1,
    headingFontUnderline := false, headingFontStrikethrough := false, headingFontItalic := false,
    labelFontSize := 8, labelFontEncoding := -1, labelFontPixelSize := 11, labelFontWeight := 1,
    labelFontUnderline := false, labelFontStrikethrough := false, labelFontItalic := false }

theorem plain_quoteFree : QuoteFree [] plainTable plainProperties := by
  constructor <;> decide

theorem odbc_plain_disagree : ¬ SetAgrees .odbc [] plainTable plainProperties :=
  (update_and_insert_disagree .odbc plain_quoteFree).2

theorem sqlite_plain_overwrites_weight : ¬ SetAgrees .sqlite [] plainTable plainProperties := by
  rintro ⟨u, j, hu, -, hagree⟩
  have hread := update_read .sqlite plain_quoteFree
  obtain rfl := Option.some.inj (hread.symm.trans hu)
  -- both weights are assigned to the column of the data font
  have htwo : ((Driver.sqlite.updateRead [] plainTable plainProperties).assignments.filter
      (·.1 = "abd_fwgt".toList)).length = 2 := by decide
  have hone := hagree.once "abd_fwgt".toList (by decide)
  exact absurd (htwo.symm.trans hone) (by decide)

end DbHandler.PropertyStatements
