import Mathlib.Data.List.Nodup
import DbHandler.TableProperties.Server

namespace DbHandler.PropertyStatements

open Foundation.Sql Foundation.Encoding

theorem foldl_decimal (t : Text) :
    t.foldl (fun n c => 10 * n + (c.toNat - 48)) 0 = Nat.ofDigitChars 10 t 0 := (Nat.ofDigitChars_eq_foldl).symm

theorem natDigits_isDigit (n : ℕ) : ∀ c ∈ Nat.toDigits 10 n, c.isDigit = true :=
  fun _ hc => Nat.isDigit_of_mem_toDigits (by omega) (by omega) hc

theorem leadingInt_digits (n : ℤ) : leadingInt (digits n) = n := by
  have htake : ∀ m : ℕ, (Nat.toDigits 10 m).takeWhile Char.isDigit = Nat.toDigits 10 m :=
    fun m => List.takeWhile_eq_self_iff.mpr (natDigits_isDigit m)
  cases n with
  | ofNat m =>
    have htext : digits (Int.ofNat m) = Nat.toDigits 10 m := by
      simp [digits, Int.toString_eq_repr, Int.repr, Nat.repr_eq_ofList_toDigits]
    rw [htext]
    have hhead : ∀ ds, Nat.toDigits 10 m ≠ '-' :: ds := by
      intro ds h
      have hdigit := natDigits_isDigit m '-' (by rw [h]; exact List.mem_cons_self)
      exact absurd hdigit (by decide)
    rw [leadingInt.eq_2 _ hhead, htake, foldl_decimal, Nat.ofDigitChars_ten_toDigits]
    rfl
  | negSucc m =>
    have htext : digits (Int.negSucc m) = '-' :: Nat.toDigits 10 (m + 1) := by
      simp [digits, Int.toString_eq_repr, Int.repr, Nat.repr_eq_ofList_toDigits]
    rw [htext, leadingInt, htake, foldl_decimal, Nat.ofDigitChars_ten_toDigits]
    rfl

def number (stored : Option Text) : ℤ := stored.elim 0 leadingInt

@[simp] theorem number_digits (n : ℤ) : number (some (digits n)) = n := leadingInt_digits n

@[simp] theorem columnInt_storedValue (stored : Option Text) :
    (Engine.storedValue stored).columnInt = number stored := by cases stored <;> rfl

@[simp] theorem columnText_storedValue (stored : Option Text) :
    (Engine.storedValue stored).columnText = stored := by cases stored <;> rfl

structure SaysFont (row : Row) (c : FontColumns) (old p : LoadedFont) : Prop where
  size : number (row c.fhgt.toList) = p.font.size
  weight : number (row c.fwgt.toList) = p.font.weight
  italic : ((row c.fitl.toList).elim old.font.italic fun text => text.head? = some 'Y') = p.font.italic
  underline : (if 0 < number (row c.funl.toList) then true else old.font.underline) = p.font.underline
  strikethrough : (if 0 < number (row c.fstr.toList) then true else old.font.strikethrough) = p.font.strikethrough
  encoding : old.font.encoding = p.font.encoding
  characterSet : number (row c.fchr.toList) = p.characterSet
  pixelSize : number (row c.fptc.toList) = p.font.pixelSize
  name : (row c.ffce.toList).getD old.font.name = p.font.name

structure Says (row : Row) (old p : LoadedProperties) : Prop where
  comment : row cmntColumn = some p.comment
  data : SaysFont row dataColumns old.data p.data
  heading : SaysFont row headingColumns old.heading p.heading
  label : SaysFont row labelColumns old.label p.label

def fontOf (row : Row) (c : FontColumns) (f : LoadedFont) : LoadedFont where
  font :=
    { size := number (row c.fhgt.toList)
      weight := number (row c.fwgt.toList)
      italic := (row c.fitl.toList).elim f.font.italic fun text => text.head? = some 'Y'
      underline := if 0 < number (row c.funl.toList) then true else f.font.underline
      strikethrough := if 0 < number (row c.fstr.toList) then true else f.font.strikethrough
      encoding := f.font.encoding
      pixelSize := number (row c.fptc.toList)
      name := (row c.ffce.toList).getD f.font.name }
  characterSet := number (row c.fchr.toList)

theorem fontOf_eq_iff {row : Row} {c : FontColumns} {old p : LoadedFont} :
    fontOf row c old = p ↔ SaysFont row c old p := by
  obtain ⟨⟨size, weight, italic, underline, strikethrough, encoding, pixelSize, name⟩, characterSet⟩ := p
  simp only [fontOf, LoadedFont.mk.injEq, Font.mk.injEq]
  constructor
  · rintro ⟨⟨h₁, h₂, h₃, h₄, h₅, h₆, h₇, h₈⟩, h₉⟩
    exact ⟨h₁, h₂, h₃, h₄, h₅, h₆, h₉, h₇, h₈⟩
  · rintro ⟨h₁, h₂, h₃, h₄, h₅, h₆, h₉, h₇, h₈⟩
    exact ⟨⟨h₁, h₂, h₃, h₄, h₅, h₆, h₇, h₈⟩, h₉⟩

theorem sqlite_readFont {row : Row} {c : FontColumns} {first : ℕ} {rest : List Sqlite.Value}
    (h : (Engine.storedColumns row).drop first =
      c.names.map (fun name => Engine.storedValue (row name.toList)) ++ rest) (f : LoadedFont) :
    Sqlite.readFont first (Engine.storedColumns row) f = fontOf row c f := by
  have hcolumn : ∀ k, Sqlite.column (Engine.storedColumns row) (first + k) =
      (c.names.map (fun name => Engine.storedValue (row name.toList)) ++ rest).getD k .null := by
    intro k
    rw [← h, Sqlite.column, List.getD_eq_getElem?_getD, List.getD_eq_getElem?_getD, List.getElem?_drop]
  have hsize : Sqlite.column (Engine.storedColumns row) first = Engine.storedValue (row c.fhgt.toList) := hcolumn 0
  have hitalic : Sqlite.column (Engine.storedColumns row) (first + 2) = Engine.storedValue (row c.fitl.toList) := hcolumn 2
  simp only [Sqlite.readFont, fontOf, hsize, hitalic, hcolumn, columnText_storedValue]
  simp only [FontColumns.names, List.map_cons, List.cons_append, List.getD_cons_succ, List.getD_cons_zero,
    columnInt_storedValue, columnText_storedValue]
  cases row c.fitl.toList <;> rfl

theorem sqlite_readTableProperties (row : Row) (old p : LoadedProperties) :
    Sqlite.readTableProperties old (Engine.storedColumns row) = some p ↔ Says row old p := by
  have hcomment : (Sqlite.column (Engine.storedColumns row) 27).columnText = row cmntColumn :=
    columnText_storedValue (row cmntColumn)
  have hdata : Sqlite.readFont 3 (Engine.storedColumns row) old.data = fontOf row dataColumns old.data :=
    sqlite_readFont rfl _
  have hheading : Sqlite.readFont 11 (Engine.storedColumns row) old.heading = fontOf row headingColumns old.heading :=
    sqlite_readFont rfl _
  have hlabel : Sqlite.readFont 19 (Engine.storedColumns row) old.label = fontOf row labelColumns old.label :=
    sqlite_readFont rfl _
  rw [Sqlite.readTableProperties, hcomment, hdata, hheading, hlabel, Option.map_eq_some_iff]
  obtain ⟨comment, data, heading, label⟩ := p
  simp only [LoadedProperties.mk.injEq, fontOf_eq_iff]
  constructor
  · rintro ⟨text, htext, rfl, h₁, h₂, h₃⟩
    exact ⟨htext, h₁, h₂, h₃⟩
  · rintro ⟨htext, h₁, h₂, h₃⟩
    exact ⟨comment, htext, rfl, h₁, h₂, h₃⟩

structure Kept (old p : LoadedFont) : Prop where
  underline : old.font.underline = true → p.font.underline = true
  strikethrough : old.font.strikethrough = true → p.font.strikethrough = true
  encoding : old.font.encoding = p.font.encoding
  characterSet : p.characterSet = p.font.encoding

structure Written (row : Row) (c : FontColumns) (f : Font) : Prop where
  size : row c.fhgt.toList = some (digits f.size)
  italic : row c.fitl.toList = some (letter f.italic).content
  underline : row c.funl.toList = some (digit f.underline).content
  strikethrough : row c.fstr.toList = some (digit f.strikethrough).content
  encoding : row c.fchr.toList = some (digits f.encoding)
  pixelSize : row c.fptc.toList = some (digits f.pixelSize)
  name : row c.ffce.toList = some f.name

theorem number_digit (b : Bool) : number (some (digit b).content) = if b then 1 else 0 := number_digits _

theorem letter_head (b : Bool) : decide ((letter b).content.head? = some 'Y') = b := by cases b <;> rfl

theorem Written.saysFont_iff {row : Row} {c : FontColumns} {old p : LoadedFont} (h : Written row c p.font) :
    SaysFont row c old p ↔ Kept old p ∧ number (row c.fwgt.toList) = p.font.weight := by
  have hflag : ∀ was b : Bool, (if 0 < (if b then (1 : ℤ) else 0) then true else was) = b ↔ (was = true → b = true) := by
    decide
  constructor
  · rintro ⟨-, hweight, -, hunderline, hstrikethrough, hencoding, hcharacterSet, -, -⟩
    rw [h.underline, number_digit, hflag] at hunderline
    rw [h.strikethrough, number_digit, hflag] at hstrikethrough
    rw [h.encoding, number_digits] at hcharacterSet
    exact ⟨⟨hunderline, hstrikethrough, hencoding, hcharacterSet.symm⟩, hweight⟩
  · rintro ⟨⟨hunderline, hstrikethrough, hencoding, hcharacterSet⟩, hweight⟩
    constructor
    · rw [h.size, number_digits]
    · exact hweight
    · rw [h.italic]
      exact letter_head p.font.italic
    · rw [h.underline, number_digit, hflag]
      exact hunderline
    · rw [h.strikethrough, number_digit, hflag]
      exact hstrikethrough
    · exact hencoding
    · rw [h.encoding, number_digits, hcharacterSet]
    · rw [h.pixelSize, number_digits]
    · rw [h.name]
      rfl

def abhFwgt : Text := "abh_fwgt".toList

def SqliteRoundTrips (content : Content) (t : DatabaseTable) (old p : LoadedProperties) : Prop :=
  match content.ofKey t.tableName t.owner with
  | [] => Kept old.data p.data ∧ Kept old.heading p.heading ∧ Kept old.label p.label
  | row :: _ =>
    if row tidColumn = some (digits t.objectId) then
      Kept old.data p.data ∧ Kept old.heading p.heading ∧ Kept old.label p.label ∧
        p.data.font.weight = p.heading.font.weight ∧ number (row abhFwgt) = p.heading.font.weight
    else Says row old p

def insertOf (catalog : String) (tnam : Text) (tid : ℕ) (ownr : Text) (fonts : List Value) (comment : Text) : Insert :=
  ⟨catalog.toList, (Value.text tnam).token ::
    ([Value.number tid, Value.text ownr] ++ fonts ++ [Value.text comment]).map Value.token⟩

theorem interpret_insertCommand_eq {catalog : String} {tnam : Text} (tid : ℕ) {ownr : Text} {fonts : List Value}
    {comment : Text} (hcatalog : quotation ∉ catalog.toList) (htnam : apostrophe ∉ tnam)
    (hownr : apostrophe ∉ ownr) (hfonts : ∀ v ∈ fonts, v.QuoteFree) (hcomment : apostrophe ∉ comment) :
    interpretInsert (insertCommand catalog tnam tid ownr fonts comment) =
      some (insertOf catalog tnam tid ownr fonts comment) := by
  refine interpretInsert_insertText hcatalog htnam fun v hv => ?_
  simp only [List.mem_append, List.mem_cons, List.not_mem_nil, or_false] at hv
  rcases hv with ((rfl | rfl) | hv) | rfl
  · trivial
  · exact hownr
  · exact hfonts v hv
  · exact hcomment

theorem interpretUpdate_of_insert {text : Text} {i : Insert} (h : interpretInsert text = some i) :
    interpretUpdate text = none := by
  rw [interpretInsert] at h
  rw [interpretUpdate]
  cases htokens : tokens text with
  | none => rfl
  | some toks =>
    rw [htokens, Option.bind_some] at h
    rw [Option.bind_some]
    unfold parseInsert at h
    split at h
    · rfl
    · simp at h

namespace Content

theorem rows_of_ofRows {rows : List Row} {after : Content} (h : ofRows rows = some after) : after.rows = rows := by
  rw [ofRows] at h
  split_ifs at h
  obtain rfl := Option.some.inj h
  rfl

theorem ofKey_length_le (content : Content) (tnam ownr : Text) : (content.ofKey tnam ownr).length ≤ 1 := by
  have hkeys : ((content.ofKey tnam ownr).map keyOf).Nodup :=
    content.keys_nodup.sublist (List.filter_sublist.map keyOf)
  have hconst : (content.ofKey tnam ownr).map keyOf =
      List.replicate (content.ofKey tnam ownr).length (some tnam, some ownr) := by
    refine List.eq_replicate_iff.mpr ⟨List.length_map _, fun key hkey => ?_⟩
    obtain ⟨row, hrow, rfl⟩ := List.mem_map.mp hkey
    exact of_decide_eq_true (List.mem_filter.mp hrow).2
  rw [hconst, List.nodup_replicate] at hkeys
  exact hkeys

theorem ofKey_cases (content : Content) (tnam ownr : Text) :
    content.ofKey tnam ownr = [] ∨ ∃ row, content.ofKey tnam ownr = [row] := by
  have hlength := content.ofKey_length_le tnam ownr
  cases hrows : content.ofKey tnam ownr with
  | nil => exact .inl rfl
  | cons row rows =>
    rw [hrows, List.length_cons] at hlength
    have hnil : rows = [] := List.length_eq_zero_iff.mp (by omega)
    exact .inr ⟨row, by rw [hnil]⟩

theorem ofKey_update {content after : Content} {u : Update} (h : content.update u = some after)
    (hkeys : ∀ row, u.Selects row → keyOf (u.apply row) = keyOf row) (tnam ownr : Text) :
    after.ofKey tnam ownr = (content.ofKey tnam ownr).map fun row => if u.Selects row then u.apply row else row := by
  rw [ofKey, rows_of_ofRows h, ofKey, List.filter_map]
  congr 1
  refine List.filter_congr fun row _ => ?_
  by_cases hrow : u.Selects row
  · simp [hrow, hkeys row hrow]
  · simp [hrow]

theorem ofKey_insert {content after : Content} {i : Insert} (h : content.insert i = some after) (tnam ownr : Text) :
    after.ofKey tnam ownr = content.ofKey tnam ownr ++
      if keyOf (i.row abcattblColumns) = (some tnam, some ownr) then [i.row abcattblColumns] else [] := by
  rw [insert] at h
  split_ifs at h
  rw [ofKey, rows_of_ofRows h, List.filter_append, ← ofKey]
  congr 1
  simp [List.filter_cons]

end Content

structure Plain (user : Text) (t : DatabaseTable) (p : LoadedProperties) : Prop where
  user : apostrophe ∉ user
  schemaName : apostrophe ∉ t.schemaName
  tableName : apostrophe ∉ t.tableName
  owner : apostrophe ∉ t.owner
  comment : apostrophe ∉ p.comment
  data : apostrophe ∉ p.data.font.name
  heading : apostrophe ∉ p.heading.font.name
  label : apostrophe ∉ p.label.font.name

theorem Plain.quoteFree {user : Text} {t : DatabaseTable} {p : LoadedProperties} (h : Plain user t p) :
    QuoteFree user { t with comment := [] } p.written :=
  ⟨h.user, h.schemaName, h.tableName, h.owner, List.not_mem_nil, h.comment, h.data, h.heading, h.label⟩

section Sqlite

variable {content after : Content} {t : DatabaseTable} {old p : LoadedProperties}

def sqliteUpdate (t : DatabaseTable) (p : LoadedProperties) : Update := Driver.sqlite.updateRead [] t p.written

def sqliteInsert (t : DatabaseTable) (p : LoadedProperties) : Insert :=
  insertOf "sys.abcattbl" t.tableName t.objectId t.owner (SQLite.insertFonts p.written) p.comment

theorem sqliteUpdate_selects (row : Row) : (sqliteUpdate t p).Selects row ↔
    row tnamColumn = some t.tableName ∧ row tidColumn = some (digits t.objectId) ∧ row ownrColumn = some t.owner := by
  simp only [Update.Selects, sqliteUpdate, Driver.updateRead, updateOf, List.forall_mem_cons, List.not_mem_nil,
    false_implies, implies_true, and_true]
  exact Iff.rfl

theorem sqliteUpdate_key (row : Row) : keyOf ((sqliteUpdate t p).apply row) = (some t.tableName, some t.owner) := rfl

theorem sqliteUpdate_says (row : Row) : Says ((sqliteUpdate t p).apply row) old p ↔
    Kept old.data p.data ∧ Kept old.heading p.heading ∧ Kept old.label p.label ∧
      p.data.font.weight = p.heading.font.weight ∧ number (row abhFwgt) = p.heading.font.weight := by
  have hdata : Written ((sqliteUpdate t p).apply row) dataColumns p.data.font := by constructor <;> rfl
  have hheading : Written ((sqliteUpdate t p).apply row) headingColumns p.heading.font := by constructor <;> rfl
  have hlabel : Written ((sqliteUpdate t p).apply row) labelColumns p.label.font := by constructor <;> rfl
  -- the last assignment to `abd_fwgt` is the one of the heading
  have hdataWeight : (sqliteUpdate t p).apply row dataColumns.fwgt.toList = some (digits p.heading.font.weight) := rfl
  have hheadingWeight : (sqliteUpdate t p).apply row headingColumns.fwgt.toList = row abhFwgt := rfl
  have hlabelWeight : (sqliteUpdate t p).apply row labelColumns.fwgt.toList = some (digits p.label.font.weight) := rfl
  have hcomment : (sqliteUpdate t p).apply row cmntColumn = some p.comment := rfl
  constructor
  · rintro ⟨-, h₁, h₂, h₃⟩
    rw [hdata.saysFont_iff, hdataWeight, number_digits] at h₁
    rw [hheading.saysFont_iff, hheadingWeight] at h₂
    exact ⟨h₁.1, h₂.1, (hlabel.saysFont_iff.mp h₃).1, h₁.2.symm, h₂.2⟩
  · rintro ⟨h₁, h₂, h₃, hweights, hold⟩
    refine ⟨hcomment, hdata.saysFont_iff.mpr ⟨h₁, ?_⟩, hheading.saysFont_iff.mpr ⟨h₂, ?_⟩,
      hlabel.saysFont_iff.mpr ⟨h₃, ?_⟩⟩
    · rw [hdataWeight, number_digits, hweights]
    · rw [hheadingWeight, hold]
    · rw [hlabelWeight, number_digits]

theorem sqliteInsert_says : Says ((sqliteInsert t p).row abcattblColumns) old p ↔
    Kept old.data p.data ∧ Kept old.heading p.heading ∧ Kept old.label p.label := by
  have hdata : Written ((sqliteInsert t p).row abcattblColumns) dataColumns p.data.font := by constructor <;> rfl
  have hheading : Written ((sqliteInsert t p).row abcattblColumns) headingColumns p.heading.font := by
    constructor <;> rfl
  have hlabel : Written ((sqliteInsert t p).row abcattblColumns) labelColumns p.label.font := by constructor <;> rfl
  have hweights : number ((sqliteInsert t p).row abcattblColumns dataColumns.fwgt.toList) = p.data.font.weight ∧
      number ((sqliteInsert t p).row abcattblColumns headingColumns.fwgt.toList) = p.heading.font.weight ∧
      number ((sqliteInsert t p).row abcattblColumns labelColumns.fwgt.toList) = p.label.font.weight :=
    ⟨number_digits _, number_digits _, number_digits _⟩
  constructor
  · rintro ⟨-, h₁, h₂, h₃⟩
    exact ⟨(hdata.saysFont_iff.mp h₁).1, (hheading.saysFont_iff.mp h₂).1, (hlabel.saysFont_iff.mp h₃).1⟩
  · rintro ⟨h₁, h₂, h₃⟩
    exact ⟨rfl, hdata.saysFont_iff.mpr ⟨h₁, hweights.1⟩, hheading.saysFont_iff.mpr ⟨h₂, hweights.2.1⟩,
      hlabel.saysFont_iff.mpr ⟨h₃, hweights.2.2⟩⟩

theorem sqlite_performs {e : Engine} (hplain : Plain [] t p) {exist : Bool}
    (harrives : Engine.Arrives (Driver.sqlite.command exist [] t p.written))
    (hrun : e.sqliteRun (Driver.sqlite.command exist [] t p.written) content = some after) :
    if exist then content.update (sqliteUpdate t p) = some after else content.insert (sqliteInsert t p) = some after := by
  rw [Engine.sqliteRun, if_pos harrives] at hrun
  split_ifs at hrun
  cases exist with
  | true =>
    have hread : interpretUpdate (Driver.sqlite.command true [] t p.written) = some (sqliteUpdate t p) := by
      have hquoteFree := update_read .sqlite hplain.quoteFree
      exact hquoteFree
    have hcatalog : (sqliteUpdate t p).table = sqliteCatalog := rfl
    simp only [Content.perform, hread, hcatalog, true_or, and_self, if_true] at hrun
    exact hrun
  | false =>
    have hread : interpretInsert (Driver.sqlite.command false [] t p.written) = some (sqliteInsert t p) :=
      interpret_insertCommand_eq _ (by decide) hplain.tableName hplain.owner (insertFonts_quoteFree .sqlite hplain.quoteFree)
        hplain.comment
    have hcatalog : (sqliteInsert t p).table = sqliteCatalog := rfl
    simp only [Content.perform, interpretUpdate_of_insert hread, hread, Option.bind_some, hcatalog, if_true] at hrun
    exact hrun

theorem sqlite_round_trip {e : Engine} (hplain : Plain [] t p)
    (harrives : Engine.Arrives (Driver.sqlite.command (!(content.ofKey t.tableName t.owner).isEmpty) [] t p.written))
    (hset : setTableProperties .sqlite e content t p = (0, after)) :
    getTableProperties .sqlite e after t old = some (0, p) ↔ SqliteRoundTrips content t old p := by
  have hperforms := sqlite_performs hplain harrives (sqlite_setTableProperties hset)
  have hread : ∀ row, (([row].map Engine.storedColumns).foldlM Sqlite.readTableProperties old).map (fun r => (0, r)) =
      some (0, p) ↔ Says row old p := by
    intro row
    rw [← sqlite_readTableProperties, List.map_singleton, List.foldlM_cons]
    cases Sqlite.readTableProperties old (Engine.storedColumns row) <;> simp
  rw [sqlite_getTableProperties, SqliteRoundTrips]
  rcases content.ofKey_cases t.tableName t.owner with hrows | ⟨row, hrows⟩
  · rw [hrows] at hperforms
    simp only [List.isEmpty_nil, Bool.not_true, Bool.false_eq_true, if_false] at hperforms
    have hkey : keyOf ((sqliteInsert t p).row abcattblColumns) = (some t.tableName, some t.owner) := rfl
    rw [Content.ofKey_insert hperforms, hrows, if_pos hkey, List.nil_append, hread, sqliteInsert_says]
  · rw [hrows] at hperforms
    simp only [List.isEmpty_cons, Bool.not_false, if_true] at hperforms
    have hkey : keyOf row = (some t.tableName, some t.owner) := by
      have hmem : row ∈ content.ofKey t.tableName t.owner := by rw [hrows]; exact List.mem_singleton_self row
      exact of_decide_eq_true (List.mem_filter.mp hmem).2
    obtain ⟨htnam, hownr⟩ := Prod.mk.inj hkey
    rw [Content.ofKey_update hperforms (fun other hother => ?_), hrows, List.map_singleton, hread]
    · have hselects : (sqliteUpdate t p).Selects row ↔ row tidColumn = some (digits t.objectId) := by
        rw [sqliteUpdate_selects]
        exact ⟨fun h => h.2.1, fun h => ⟨htnam, h, hownr⟩⟩
      by_cases htid : row tidColumn = some (digits t.objectId)
      · simp only [hselects.mpr htid, htid, if_true]
        exact sqliteUpdate_says row
      · simp only [mt hselects.mp htid, htid, if_false]
    · obtain ⟨h₁, -, h₂⟩ := (sqliteUpdate_selects other).mp hother
      rw [sqliteUpdate_key, keyOf, h₁, h₂]

end Sqlite

section Binary

def misread (count : ℕ) (n : ℤ) : ℤ := Postgres.atoi (Postgres.valueText (Engine.bytes count n))

theorem atoi_bounds {t : Text} (h : t.length ≤ 2) : -9 ≤ Postgres.atoi t ∧ Postgres.atoi t ≤ 99 := by
  have hdrop : (t.dropWhile Postgres.isSpace).length ≤ 2 :=
    (List.dropWhile_sublist _).length_le.trans h
  rw [Postgres.atoi]
  generalize t.dropWhile Postgres.isSpace = ds at hdrop
  have hshort : ∀ us : Text, us.length ≤ 1 → Postgres.decimal us ≤ 9 := by
    intro us hus
    have hlt := Postgres.decimal_lt us
    have hpow : 10 ^ us.length ≤ 10 ^ 1 := Nat.pow_le_pow_right (by omega) hus
    omega
  split
  · rename_i us
    have hus := hshort us (by simpa using hdrop)
    omega
  · rename_i us
    have hus := hshort us (by simpa using hdrop)
    omega
  · have hlt := Postgres.decimal_lt ds
    have hpow : 10 ^ ds.length ≤ 10 ^ 2 := Nat.pow_le_pow_right (by omega) hdrop
    omega

theorem bytes_two (n : ℤ) :
    Engine.bytes 2 n = [Char.ofNat ((n % 65536).toNat / 256 % 256), Char.ofNat ((n % 65536).toNat % 256)] := by
  simp [Engine.bytes, List.range_succ]

theorem misread_eq_iff (n : ℤ) : misread 2 n = n ↔ n = 0 := by
  constructor
  · intro h
    have hlength : (Postgres.valueText (Engine.bytes 2 n)).length ≤ 2 := by
      rw [bytes_two]
      exact (List.takeWhile_sublist _).length_le
    obtain ⟨hlow, hhigh⟩ := atoi_bounds hlength
    rw [← misread, h] at hlow hhigh
    by_cases hneg : 0 ≤ n
    · -- the first byte is 0, and the text empty
      have hfirst : (n % 65536).toNat / 256 % 256 = 0 := by omega
      rw [misread, bytes_two, hfirst] at h
      exact h.symm
    · -- the first byte is 255, which no number begins with
      have hfirst : (n % 65536).toNat / 256 % 256 = 255 := by omega
      rw [misread, bytes_two, hfirst] at h
      have hzero : ∀ c : Char, Postgres.atoi (Postgres.valueText [Char.ofNat 255, c]) = 0 := by
        intro c
        by_cases hc : c = Char.ofNat 0
        · rw [hc]
          rfl
        · rw [show Postgres.valueText [Char.ofNat 255, c] = [Char.ofNat 255, c] by
            simp [Postgres.valueText, hc]]
          rfl
      rw [hzero] at h
      exact h.symm
  · rintro rfl
    rfl

end Binary

section Postgres

def Printable (text : Text) : Prop := Postgres.valueText (Engine.rtrim text) = text

structure SurvivesBinary (old p : LoadedFont) : Prop where
  size : p.font.size = 0
  weight : p.font.weight = 0
  underline : p.font.underline = false
  strikethrough : p.font.strikethrough = false
  encoding : old.font.encoding = p.font.encoding
  characterSet : p.characterSet = misread 2 p.font.encoding
  pixelSize : p.font.pixelSize = 0
  name : Printable p.font.name

def PostgresRoundTrips (user : Text) (t : DatabaseTable) (old p : LoadedProperties) : Prop :=
  if user = t.owner then
    Printable p.comment ∧ SurvivesBinary old.data p.data ∧ SurvivesBinary old.heading p.heading ∧
      SurvivesBinary old.label p.label
  else old = p

variable {content after : Content} {t : DatabaseTable} {old p : LoadedProperties} {user : Text}

def postgresInsert (user : Text) (t : DatabaseTable) (p : LoadedProperties) : Insert :=
  insertOf "abcattbl" (qualifiedName t) t.objectId user (Postgres.insertFonts p.written) p.comment

theorem postgres_update_repeats (user : Text) (t : DatabaseTable) (p : LoadedProperties) :
    ¬ ((Driver.postgres.updateRead user t p.written).assignments.map Prod.fst).Nodup := by
  intro h
  have hcount : ((Driver.postgres.updateRead user t p.written).assignments.map Prod.fst).count "abd_fwgt".toList = 2 :=
    rfl
  have hone := List.nodup_iff_count_le_one.mp h "abd_fwgt".toList
  omega

theorem postgres_inserts {e : Engine} (hplain : Plain user t p) {exist : Bool}
    (hrun : e.postgresRun (Driver.postgres.command exist user t p.written) content = some after) :
    exist = false ∧ content.insert (postgresInsert user t p) = some after := by
  rw [Engine.postgresRun] at hrun
  split_ifs at hrun
  cases exist with
  | true =>
    have hread : interpretUpdate (Driver.postgres.command true user t p.written) =
        some (Driver.postgres.updateRead user t p.written) := by
      have hquoteFree := update_read .postgres hplain.quoteFree
      exact hquoteFree
    simp only [Content.perform, hread, Bool.false_eq_true, false_or, postgres_update_repeats, and_false, if_false] at hrun
    simp at hrun
  | false =>
    have hname : apostrophe ∉ qualifiedName t := by
      have hquoteFree := qualifiedName_quoteFree hplain.quoteFree
      exact hquoteFree
    have hread : interpretInsert (Driver.postgres.command false user t p.written) = some (postgresInsert user t p) :=
      interpret_insertCommand_eq _ (by decide) hname hplain.user
        (insertFonts_quoteFree .postgres hplain.quoteFree) hplain.comment
    have hcatalog : (postgresInsert user t p).table = postgresCatalog := rfl
    simp only [Content.perform, interpretUpdate_of_insert hread, hread, Option.bind_some, hcatalog, if_true] at hrun
    exact ⟨rfl, hrun⟩

def binaryInt (count : ℕ) (stored : Option Text) : ℤ := Postgres.atoi (Postgres.valueText (Engine.binary count stored))

def binaryFontOf (row : Row) (c : FontColumns) (f : LoadedFont) : LoadedFont where
  font :=
    { size := binaryInt 2 (row c.fhgt.toList)
      weight := binaryInt 2 (row c.fwgt.toList)
      italic := Postgres.valueText ((row c.fitl.toList).getD []) = ['Y']
      underline := binaryInt 4 (row c.funl.toList) ≠ 0
      strikethrough := binaryInt 4 (row c.fstr.toList) ≠ 0
      encoding := f.font.encoding
      pixelSize := binaryInt 2 (row c.fptc.toList)
      name := Postgres.valueText (Engine.trimmed (row c.ffce.toList)) }
  characterSet := binaryInt 2 (row c.fchr.toList)

theorem postgres_readFont {row : Row} {c : FontColumns} {first : ℕ} {rest : List Text}
    (h : (Engine.binaryColumns row).drop first = Engine.binaryFont row c ++ rest) (f : LoadedFont) :
    Postgres.readFont first (Engine.binaryColumns row) f = binaryFontOf row c f := by
  have hcolumn : ∀ k, (Engine.binaryColumns row).getD (first + k) [] = (Engine.binaryFont row c ++ rest).getD k [] := by
    intro k
    rw [← h, List.getD_eq_getElem?_getD, List.getD_eq_getElem?_getD, List.getElem?_drop]
  have hsize : (Engine.binaryColumns row).getD first [] = Engine.binary 2 (row c.fhgt.toList) := hcolumn 0
  simp only [Postgres.readFont, binaryFontOf, Postgres.readInt, Postgres.readText, hsize, hcolumn]
  rfl

theorem binaryInt_digits (count : ℕ) (n : ℤ) : binaryInt count (some (digits n)) = misread count n := by
  rw [binaryInt, Engine.binary, Option.elim_some, leadingInt_digits, misread]

theorem binaryInt_digit (b : Bool) : binaryInt 4 (some (digit b).content) = 0 := by
  have hdigit : binaryInt 4 (some (digit b).content) = misread 4 (if b then 1 else 0) := binaryInt_digits 4 _
  rw [hdigit]
  cases b <;> rfl

theorem letter_text (b : Bool) : decide (Postgres.valueText (letter b).content = ['Y']) = b := by
  cases b <;> rfl

theorem binaryFontOf_eq_iff {row : Row} {c : FontColumns} {old p : LoadedFont} (struck : Bool)
    (hsize : row c.fhgt.toList = some (digits p.font.size)) (hweight : row c.fwgt.toList = some (digits p.font.weight))
    (hitalic : row c.fitl.toList = some (letter p.font.italic).content)
    (hunderline : row c.funl.toList = some (digit p.font.underline).content)
    (hstrikethrough : row c.fstr.toList = some (digit struck).content)
    (hencoding : row c.fchr.toList = some (digits p.font.encoding))
    (hpixelSize : row c.fptc.toList = some (digits p.font.pixelSize)) (hname : row c.ffce.toList = some p.font.name) :
    binaryFontOf row c old = p ↔ SurvivesBinary old p := by
  have hread : binaryFontOf row c old =
      ⟨⟨misread 2 p.font.size, misread 2 p.font.weight, p.font.italic, false, false, old.font.encoding,
        misread 2 p.font.pixelSize, Postgres.valueText (Engine.rtrim p.font.name)⟩, misread 2 p.font.encoding⟩ := by
    rw [binaryFontOf, hsize, hweight, hitalic, hunderline, hstrikethrough, hencoding, hpixelSize, hname]
    simp only [binaryInt_digits, binaryInt_digit, Option.getD_some, letter_text, Engine.trimmed, Option.elim_some]
    rfl
  rw [hread]
  obtain ⟨⟨size, weight, italic, underline, strikethrough, encoding, pixelSize, name⟩, characterSet⟩ := p
  simp only [LoadedFont.mk.injEq, Font.mk.injEq, misread_eq_iff, true_and]
  constructor
  · rintro ⟨⟨h₁, h₂, h₃, h₄, h₅, h₆, h₇⟩, h₈⟩
    exact ⟨h₁, h₂, h₃.symm, h₄.symm, h₅, h₈.symm, h₆, h₇⟩
  · rintro ⟨h₁, h₂, h₃, h₄, h₅, h₈, h₆, h₇⟩
    exact ⟨⟨h₁, h₂, h₃.symm, h₄.symm, h₅, h₆, h₇⟩, h₈.symm⟩

theorem postgres_readInserted :
    Postgres.readTableProperties old (Engine.binaryColumns ((postgresInsert user t p).row abcattblColumns)) = p ↔
      Printable p.comment ∧ SurvivesBinary old.data p.data ∧ SurvivesBinary old.heading p.heading ∧
        SurvivesBinary old.label p.label := by
  set row := (postgresInsert user t p).row abcattblColumns with hrow
  have hcomment : Postgres.readText (Engine.binaryColumns row) 27 = Postgres.valueText (Engine.rtrim p.comment) := rfl
  have hdata : Postgres.readFont 3 (Engine.binaryColumns row) old.data = binaryFontOf row dataColumns old.data :=
    postgres_readFont rfl _
  have hheading : Postgres.readFont 11 (Engine.binaryColumns row) old.heading =
      binaryFontOf row headingColumns old.heading := postgres_readFont rfl _
  have hlabel : Postgres.readFont 19 (Engine.binaryColumns row) old.label = binaryFontOf row labelColumns old.label :=
    postgres_readFont rfl _
  have hdataFont : binaryFontOf row dataColumns old.data = p.data ↔ SurvivesBinary old.data p.data :=
    binaryFontOf_eq_iff (p.data.font.strikethrough) rfl rfl rfl rfl rfl rfl rfl rfl
  have hheadingFont : binaryFontOf row headingColumns old.heading = p.heading ↔ SurvivesBinary old.heading p.heading :=
    binaryFontOf_eq_iff (p.heading.font.size != 0) rfl rfl rfl rfl rfl rfl rfl rfl
  have hlabelFont : binaryFontOf row labelColumns old.label = p.label ↔ SurvivesBinary old.label p.label :=
    binaryFontOf_eq_iff (p.label.font.strikethrough) rfl rfl rfl rfl rfl rfl rfl rfl
  rw [Postgres.readTableProperties, hcomment, hdata, hheading, hlabel, ← hdataFont, ← hheadingFont, ← hlabelFont, Printable]
  constructor
  · intro h
    exact ⟨congrArg LoadedProperties.comment h, congrArg LoadedProperties.data h, congrArg LoadedProperties.heading h,
      congrArg LoadedProperties.label h⟩
  · rintro ⟨h₁, h₂, h₃, h₄⟩
    rw [h₁, h₂, h₃, h₄]

theorem postgres_round_trip {e : Engine} (hplain : Plain user t p)
    (hset : setTableProperties (.postgres user) e content t p = (0, after)) :
    getTableProperties (.postgres user) e after t old = some (0, p) ↔ PostgresRoundTrips user t old p := by
  obtain ⟨hexist, hinsert⟩ := postgres_inserts hplain (postgres_setTableProperties hset)
  have hrows : content.ofKey (qualifiedName t) t.owner = [] := by simpa using hexist
  have hkey : keyOf ((postgresInsert user t p).row abcattblColumns) = (some (qualifiedName t), some user) := rfl
  rw [postgres_getTableProperties, Content.ofKey_insert hinsert, hrows, hkey, PostgresRoundTrips]
  by_cases howner : user = t.owner
  · have hread : Postgres.readTableProperties old (Engine.binaryColumns ((postgresInsert user t p).row abcattblColumns)) = p ↔ _ :=
      postgres_readInserted
    rw [if_pos (by rw [howner]), if_pos howner, ← hread]
    simp
  · rw [if_neg (by simpa using howner), if_neg howner]
    simp

end Postgres

def Server.user : Server → Text
  | sqlite => []
  | postgres connectedUser => connectedUser

def Server.Receives (server : Server) (content : Content) (t : DatabaseTable) (p : LoadedProperties) : Prop :=
  match server with
  | sqlite => Engine.Arrives (Driver.sqlite.command (!(content.ofKey t.tableName t.owner).isEmpty) [] t p.written)
  | postgres _ => True

def RoundTrips (server : Server) (content : Content) (t : DatabaseTable) (old p : LoadedProperties) : Prop :=
  match server with
  | .sqlite => SqliteRoundTrips content t old p
  | .postgres user => PostgresRoundTrips user t old p

theorem set_eq {server : Server} {e : Engine} {content : Content} {t : DatabaseTable} {p : LoadedProperties}
    (h : (setTableProperties server e content t p).1 = 0) :
    setTableProperties server e content t p = (0, (setTableProperties server e content t p).2) := Prod.ext h rfl

theorem round_trip_iff (server : Server) (e : Engine) (content : Content) (t : DatabaseTable) (old p : LoadedProperties)
    (hplain : Plain server.user t p) (hreceives : server.Receives content t p)
    (hset : (setTableProperties server e content t p).1 = 0) :
    getTableProperties server e (setTableProperties server e content t p).2 t old = some (0, p) ↔
      RoundTrips server content t old p := by
  cases server with
  | sqlite => exact sqlite_round_trip hplain hreceives (set_eq hset)
  | postgres user => exact postgres_round_trip hplain (set_eq hset)

def Engine.accepting : Engine := ⟨fun _ _ => false, fun _ _ => none⟩

def emptyContent : Content := ⟨[], List.nodup_nil⟩

def plainFont : LoadedFont := ⟨⟨8, 0, false, false, false, -1, 11, "Arial".toList⟩, -1⟩

def plainLoaded : LoadedProperties := ⟨[], plainFont, plainFont, plainFont⟩

def underlinedLoaded : LoadedProperties :=
  { plainLoaded with data := { plainFont with font := { plainFont.font with underline := true } } }

theorem plain_set : (setTableProperties .sqlite .accepting emptyContent plainTable plainLoaded).1 = 0 := by
  decide +kernel

theorem plain_arrives : Server.sqlite.Receives emptyContent plainTable plainLoaded := by
  change (_ : ℕ) ≤ _
  decide +kernel

theorem plain_plain : Plain [] plainTable plainLoaded := by
  constructor <;> decide

theorem plain_round_trip : getTableProperties .sqlite .accepting
    (setTableProperties .sqlite .accepting emptyContent plainTable plainLoaded).2 plainTable plainLoaded =
      some (0, plainLoaded) ↔ RoundTrips .sqlite emptyContent plainTable plainLoaded plainLoaded :=
  round_trip_iff .sqlite .accepting emptyContent plainTable plainLoaded plainLoaded plain_plain plain_arrives plain_set

theorem underline_not_cleared :
    ¬ ∀ (server : Server) (e : Engine) (content : Content) (t : DatabaseTable) (old p : LoadedProperties),
      Plain server.user t p → (setTableProperties server e content t p).1 = 0 →
        getTableProperties server e (setTableProperties server e content t p).2 t old = some (0, p) := by
  intro h
  have hget := h .sqlite .accepting emptyContent plainTable underlinedLoaded plainLoaded plain_plain plain_set
  have hkept := (sqlite_round_trip plain_plain plain_arrives (set_eq plain_set)).mp hget
  exact absurd (hkept.1.underline rfl) (by decide)

end DbHandler.PropertyStatements
