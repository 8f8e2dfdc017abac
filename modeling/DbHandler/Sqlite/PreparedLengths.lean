import Mathlib.Algebra.Group.Nat.Defs
import DbHandler.Foundation.Sql.Ascii
import DbHandler.Sqlite.ForeignKeys
import DbHandler.Sqlite.TableProperties

namespace DbHandler.Sqlite

open Foundation.Encoding
open Foundation.Sql (ascii_number ascii_insertText ascii_pairsText ascii_updateText AsciiPair)

/-- `( int ) s.length()` -/
def wideLength (s : Text) : ℤ := Int.bmod s.length (2 ^ 32)

def tableSqlText (tableName : Text) : Text :=
  "SELECT sql FROM sqlite_master WHERE tbl_name = ".toList ++ apostrophe :: tableName ++
    apostrophe :: " AND type = ".toList ++ apostrophe :: "table".toList ++ [apostrophe]

def fieldPropertiesText : Text :=
  "SELECT * FROM \"sys.abcatcol\" WHERE \"abc_tnam\" = ? AND \"abc_ownr\" = ? AND \"abc_cnam\" = ?;".toList

def tablePropertiesExistText : Text :=
  "SELECT 1 FROM \"sys.abcattbl\" WHERE \"abt_tnam\" = ? AND \"abt_ownr\" = ?;".toList

/-- The calls of `sqlite3_prepare_v2` that are given a length. -/
inductive Preparation
  | setTableProperties (exist : Bool) (table : DatabaseTable) (properties : TableProperties)
  | getFieldProperties
  | isTablePropertiesExist
  | selectSql (tableName : Text)
  | updateSql (tableName : Text)

namespace Preparation

def statement : Preparation → Text
  | setTableProperties exist t p => PropertyStatements.Driver.sqlite.command exist [] t p
  | getFieldProperties => fieldPropertiesText
  | isTablePropertiesExist => tablePropertiesExistText
  | selectSql tableName => tableSqlText tableName
  | updateSql _ => ForeignKeys.updateSchemaText

/-- The string of which the length is taken; for the update of `ApplyForeignKey` it is the select. -/
def measured : Preparation → Text
  | updateSql tableName => tableSqlText tableName
  | p => p.statement

def nByte (p : Preparation) : ℤ := wideLength p.measured

/-- What `sqlite3_prepare_v2` reads. -/
def readBytes (p : Preparation) : Bytes :=
  if p.nByte < 0 then utf8 p.statement else (utf8 p.statement).take p.nByte.toNat

def Whole (p : Preparation) : Prop := p.nByte < 0 ∨ (utf8 p.statement).length ≤ p.nByte

instance (p : Preparation) : Decidable p.Whole := inferInstanceAs (Decidable (_ ∨ _))

/-- The texts that the command is made of. -/
def TextsAscii (t : DatabaseTable) (p : TableProperties) : Prop :=
  Ascii t.tableName ∧ Ascii t.owner ∧ Ascii p.dataFontName ∧ Ascii p.headingFontName ∧ Ascii p.labelFontName ∧
    Ascii p.comment

/-- From 2^31 characters on the length is negative, or starts again from zero. -/
def Fits : Preparation → Prop
  | setTableProperties exist t p =>
    2 ^ 31 ≤ (PropertyStatements.Driver.sqlite.command exist [] t p).length % 2 ^ 32 ∨
      (PropertyStatements.Driver.sqlite.command exist [] t p).length < 2 ^ 31 ∧ TextsAscii t p
  | getFieldProperties => True
  | isTablePropertiesExist => True
  | selectSql tableName =>
    2 ^ 31 ≤ (tableName.length + 68) % 2 ^ 32 ∨ tableName.length + 68 < 2 ^ 31 ∧ Ascii tableName
  | updateSql tableName => 67 ≤ (tableName.length + 68) % 2 ^ 32

end Preparation

theorem wideLength_low {s : Text} (h : s.length % 2 ^ 32 < 2 ^ 31) : wideLength s = (s.length % 2 ^ 32 : ℕ) := by
  unfold wideLength
  generalize s.length = n at h
  rw [Int.bmod_def]
  rw [if_pos (by omega)]
  omega

theorem wideLength_high {s : Text} (h : 2 ^ 31 ≤ s.length % 2 ^ 32) : wideLength s < 0 := by
  unfold wideLength
  generalize s.length = n at h
  rw [Int.bmod_def]
  rw [if_neg (by omega)]
  omega

theorem ascii_letter (b : Bool) : Ascii (PropertyStatements.letter b).content := by
  cases b <;> decide

theorem ascii_digit (b : Bool) : Ascii (PropertyStatements.digit b).content := ascii_number _

namespace Preparation

open PropertyStatements

theorem ascii_fontAssignments {c : FontColumns} {f : Font} (hcolumns : ∀ name ∈ [c.fhgt, c.fwgt, c.fitl, c.funl, c.fstr,
    c.fchr, c.fptc, c.ffce], Ascii name.toList) :
    (∀ p ∈ fontAssignments c digit true f, AsciiPair p) ↔ Ascii f.name := by
  have hassign : Ascii ", ".toList := by decide
  have hassignSize : Ascii ",  ".toList := by decide
  simp only [List.forall_mem_cons, List.not_mem_nil, false_imp_iff, implies_true, and_true] at hcolumns
  obtain ⟨hhgt, hwgt, hitl, hunl, hstr, hchr, hptc, hfce⟩ := hcolumns
  simp only [fontAssignments, if_true, List.cons_append, List.nil_append, List.forall_mem_cons]
  constructor
  · rintro ⟨-, -, -, -, -, -, -, hname, -⟩
    exact hname.2.2
  · intro hname
    exact ⟨⟨hassignSize, hhgt, ascii_number _⟩, ⟨hassign, hwgt, ascii_number _⟩, ⟨hassign, hitl, ascii_letter _⟩,
      ⟨hassign, hunl, ascii_digit _⟩, ⟨hassign, hstr, ascii_digit _⟩, ⟨hassign, hchr, ascii_number _⟩,
      ⟨hassign, hptc, ascii_number _⟩, ⟨hassign, hfce, hname⟩, by simp⟩

theorem ascii_fontValues {underline strikethrough : Foundation.Sql.Value} {f : Font} (hunderline : Ascii underline.content)
    (hstrikethrough : Ascii strikethrough.content) :
    (∀ v ∈ fontValues underline [strikethrough] f, Ascii v.content) ↔ Ascii f.name := by
  simp only [fontValues, List.cons_append, List.nil_append, List.forall_mem_cons]
  constructor
  · rintro ⟨-, -, -, -, -, -, -, hname, -⟩
    exact hname
  · intro hname
    exact ⟨ascii_number _, ascii_number _, ascii_letter _, hunderline, hstrikethrough, ascii_number _, ascii_number _,
      hname, by simp⟩

theorem ascii_updateFonts (p : TableProperties) :
    (∀ q ∈ SQLite.updateFonts p, AsciiPair q) ↔
      Ascii p.dataFontName ∧ Ascii p.headingFontName ∧ Ascii p.labelFontName := by
  unfold SQLite.updateFonts
  rw [List.forall_mem_append, List.forall_mem_append, ascii_fontAssignments (by decide),
    ascii_fontAssignments (by decide), ascii_fontAssignments (by decide), and_assoc]
  rfl

theorem ascii_insertFonts (p : TableProperties) :
    (∀ v ∈ SQLite.insertFonts p, Ascii v.content) ↔
      Ascii p.dataFontName ∧ Ascii p.headingFontName ∧ Ascii p.labelFontName := by
  have hunderline : Ascii (Foundation.Sql.Value.text (digit p.labelFontUnderline).content).content := ascii_digit _
  unfold SQLite.insertFonts
  rw [List.forall_mem_append, List.forall_mem_append, ascii_fontValues (ascii_digit _) (ascii_digit _),
    ascii_fontValues (ascii_digit _) (ascii_digit _), ascii_fontValues hunderline (ascii_digit _), and_assoc]
  rfl

theorem ascii_update (t : DatabaseTable) (p : TableProperties) : Ascii (SQLite.update t p) ↔ TextsAscii t p := by
  have htable : Ascii "sys.abcattbl".toList := by decide
  have hname : Ascii "abt_tnam".toList := by decide
  have hidName : Ascii "abt_tid".toList := by decide
  have hid (separator : Text) (h : Ascii separator) : AsciiPair (separator, "abt_tid".toList, .number t.objectId) :=
    ⟨h, hidName, ascii_number _⟩
  have hcolumn (separator column : Text) (h : Ascii separator) (hc : Ascii column) (v : Text) :
      AsciiPair (separator, column, .text v) ↔ Ascii v := ⟨fun hp => hp.2.2, fun hv => ⟨h, hc, hv⟩⟩
  unfold SQLite.update updateCommand
  rw [ascii_updateText, ascii_pairsText, ascii_pairsText, List.forall_mem_append, List.forall_mem_append,
    ascii_updateFonts]
  simp only [List.forall_mem_cons, assign, PropertyStatements.compare]
  rw [hcolumn _ _ (by decide) (by decide), hcolumn _ _ (by decide) (by decide), hcolumn _ _ (by decide) (by decide)]
  constructor
  · rintro ⟨-, ⟨⟨-, htnam⟩, ⟨⟨-, howner, -⟩, hdata, hheading, hlabel⟩, hcomment, -⟩, -⟩
    exact ⟨htnam, howner, hdata, hheading, hlabel, hcomment⟩
  · rintro ⟨htnam, howner, hdata, hheading, hlabel, hcomment⟩
    exact ⟨htable, ⟨⟨hname, htnam⟩, ⟨⟨hid _ (by decide), howner, by simp⟩, hdata, hheading, hlabel⟩, hcomment, by simp⟩,
      ⟨hname, htnam⟩, hid _ (by decide), howner, by simp⟩

theorem ascii_insert (t : DatabaseTable) (p : TableProperties) : Ascii (SQLite.insert t p) ↔ TextsAscii t p := by
  have htable : Ascii "sys.abcattbl".toList := by decide
  unfold SQLite.insert insertCommand
  rw [ascii_insertText, List.forall_mem_append, List.forall_mem_append, ascii_insertFonts]
  simp only [List.forall_mem_cons]
  constructor
  · rintro ⟨-, htnam, ⟨⟨-, howner, -⟩, hdata, hheading, hlabel⟩, hcomment, -⟩
    exact ⟨htnam, howner, hdata, hheading, hlabel, hcomment⟩
  · rintro ⟨htnam, howner, hdata, hheading, hlabel, hcomment⟩
    exact ⟨htable, htnam, ⟨⟨ascii_number _, howner, by simp⟩, hdata, hheading, hlabel⟩, hcomment, by simp⟩

theorem ascii_command (exist : Bool) (t : DatabaseTable) (p : TableProperties) :
    Ascii (Driver.sqlite.command exist [] t p) ↔ TextsAscii t p := by
  cases exist with
  | true => exact ascii_update t p
  | false => exact ascii_insert t p

theorem tableSqlText_eq (tableName : Text) : ∃ head tail : Text, head.length = 48 ∧ tail.length = 20 ∧ Ascii head ∧
    Ascii tail ∧ tableSqlText tableName = head ++ (tableName ++ tail) := by
  refine ⟨"SELECT sql FROM sqlite_master WHERE tbl_name = ".toList ++ [apostrophe],
    apostrophe :: " AND type = ".toList ++ apostrophe :: "table".toList ++ [apostrophe], by decide, by decide, by decide,
    by decide, ?_⟩
  unfold tableSqlText
  simp only [List.append_assoc, List.cons_append, List.nil_append]

theorem length_tableSqlText (tableName : Text) : (tableSqlText tableName).length = tableName.length + 68 := by
  obtain ⟨head, tail, hhead, htail, -, -, htext⟩ := tableSqlText_eq tableName
  rw [htext, List.length_append, List.length_append]
  omega

theorem ascii_tableSqlText (tableName : Text) : Ascii (tableSqlText tableName) ↔ Ascii tableName := by
  obtain ⟨head, tail, -, -, hhead, htail, htext⟩ := tableSqlText_eq tableName
  rw [htext, ascii_append, ascii_append]
  exact ⟨fun h => h.2.1, fun h => ⟨hhead, h, htail⟩⟩

/-- For a statement that is given its own length. -/
theorem own_length_iff (s : Text) : (wideLength s < 0 ∨ (utf8 s).length ≤ wideLength s) ↔
    2 ^ 31 ≤ s.length % 2 ^ 32 ∨ s.length < 2 ^ 31 ∧ Ascii s := by
  obtain ⟨hle, hiff⟩ := utf8_length s
  rw [← hiff]
  by_cases hlow : s.length % 2 ^ 32 < 2 ^ 31
  · rw [wideLength_low hlow]
    constructor
    · intro h
      right
      omega
    · rintro (h | ⟨hshort, hsame⟩)
      · omega
      · right
        omega
  · exact iff_of_true (.inl (wideLength_high (by omega))) (.inl (by omega))

theorem updateSchemaText_length : (utf8 ForeignKeys.updateSchemaText).length = 67 := by decide

/-- The update of `ApplyForeignKey` is shorter than the select whose length it is given. -/
theorem other_length_iff {s u : Text} (hpos : (utf8 u).length < 2 ^ 31) :
    (wideLength s < 0 ∨ (utf8 u).length ≤ wideLength s) ↔ (utf8 u).length ≤ s.length % 2 ^ 32 := by
  by_cases hlow : s.length % 2 ^ 32 < 2 ^ 31
  · rw [wideLength_low hlow]
    omega
  · exact iff_of_true (.inl (wideLength_high (by omega))) (by omega)

theorem whole_iff_fits (p : Preparation) : p.Whole ↔ p.Fits := by
  cases p with
  | setTableProperties exist t p =>
    refine (own_length_iff (Driver.sqlite.command exist [] t p)).trans ?_
    rw [ascii_command]
    rfl
  | getFieldProperties => exact iff_of_true (.inr (by decide)) trivial
  | isTablePropertiesExist => exact iff_of_true (.inr (by decide)) trivial
  | selectSql tableName =>
    refine (own_length_iff (tableSqlText tableName)).trans ?_
    rw [ascii_tableSqlText, length_tableSqlText]
    rfl
  | updateSql tableName =>
    refine (other_length_iff (s := tableSqlText tableName) (u := ForeignKeys.updateSchemaText) ?_).trans ?_
    · rw [updateSchemaText_length]
      omega
    · rw [updateSchemaText_length, length_tableSqlText]
      rfl

theorem readBytes_eq_iff (p : Preparation) : p.readBytes = utf8 p.statement ↔ p.Whole := by
  unfold readBytes Whole
  by_cases hneg : p.nByte < 0
  · rw [if_pos hneg]
    exact iff_of_true rfl (.inl hneg)
  · rw [if_neg hneg]
    have htake : (utf8 p.statement).take p.nByte.toNat = utf8 p.statement ↔ (utf8 p.statement).length ≤ p.nByte.toNat :=
      List.take_eq_self_iff _
    rw [htake]
    constructor
    · intro h
      exact .inr (by omega)
    · rintro (h | h)
      · exact absurd h hneg
      · omega

/-- Below 2^31 characters, the bytes that are read of a statement with its own length are those of `cut`. -/
theorem readBytes_cut (p : Preparation) (hown : p.measured = p.statement) (hshort : p.statement.length < 2 ^ 31) :
    p.readBytes = cut p.statement := by
  have hlow : p.statement.length % 2 ^ 32 = p.statement.length := Nat.mod_eq_of_lt (by omega)
  have hbyte : p.nByte = p.statement.length := by
    rw [nByte, hown, wideLength_low (by omega), hlow]
  unfold readBytes
  rw [hbyte, if_neg (by omega), Int.toNat_natCast]
  rfl

theorem readBytes_commandCut (exist : Bool) (t : DatabaseTable) (p : TableProperties)
    (hshort : (Driver.sqlite.command exist [] t p).length < 2 ^ 31) :
    (setTableProperties exist t p).readBytes = (Query.commandCut (Driver.sqlite.command exist [] t p)).text :=
  readBytes_cut _ rfl hshort

theorem readBytes_tableSql (tableName : Text) (hshort : (tableSqlText tableName).length < 2 ^ 31) :
    (selectSql tableName).readBytes = (Query.tableSql tableName).text :=
  readBytes_cut _ rfl hshort

/-- The length reaches over the statement, and so all of it is compiled, exactly if it fits. -/
theorem prepared_whole_iff (p : Preparation) :
    (p.Whole ↔ p.Fits) ∧ (p.readBytes = utf8 p.statement ↔ p.Fits) :=
  ⟨whole_iff_fits p, (readBytes_eq_iff p).trans (whole_iff_fits p)⟩

theorem accented_table_is_cut : ¬ ∀ p : Preparation, p.Whole := by
  intro h
  exact absurd (h (selectSql [Char.ofNat 233])) (by decide +kernel)

end Preparation

end DbHandler.Sqlite
