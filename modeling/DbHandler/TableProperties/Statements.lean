import DbHandler.Foundation.Sql.Statements
import DbHandler.Interface

namespace DbHandler

open Foundation.Sql

structure TableProperties where
  comment : Text
  dataFontName : Text
  headingFontName : Text
  labelFontName : Text
  dataFontSize : ℤ
  dataFontEncoding : ℤ
  dataFontPixelSize : ℤ
  dataFontWeight : ℤ
  dataFontUnderline : Bool
  dataFontStrikethrough : Bool
  dataFontItalic : Bool
  headingFontSize : ℤ
  headingFontEncoding : ℤ
  headingFontPixelSize : ℤ
  headingFontWeight : ℤ
  headingFontUnderline : Bool
  headingFontStrikethrough : Bool
  headingFontItalic : Bool
  labelFontSize : ℤ
  labelFontEncoding : ℤ
  labelFontPixelSize : ℤ
  labelFontWeight : ℤ
  labelFontUnderline : Bool
  labelFontStrikethrough : Bool
  labelFontItalic : Bool
  deriving DecidableEq, Repr

structure Font where
  size : ℤ
  weight : ℤ
  italic : Bool
  underline : Bool
  strikethrough : Bool
  encoding : ℤ
  pixelSize : ℤ
  name : Text

namespace TableProperties

def dataFont (p : TableProperties) : Font :=
  ⟨p.dataFontSize, p.dataFontWeight, p.dataFontItalic, p.dataFontUnderline, p.dataFontStrikethrough,
    p.dataFontEncoding, p.dataFontPixelSize, p.dataFontName⟩

def headingFont (p : TableProperties) : Font :=
  ⟨p.headingFontSize, p.headingFontWeight, p.headingFontItalic, p.headingFontUnderline,
    p.headingFontStrikethrough, p.headingFontEncoding, p.headingFontPixelSize, p.headingFontName⟩

def labelFont (p : TableProperties) : Font :=
  ⟨p.labelFontSize, p.labelFontWeight, p.labelFontItalic, p.labelFontUnderline, p.labelFontStrikethrough,
    p.labelFontEncoding, p.labelFontPixelSize, p.labelFontName⟩

end TableProperties

namespace PropertyStatements

def letter (b : Bool) : Value := .text (if b then "Y".toList else "N".toList)

def digit (b : Bool) : Value := .number (if b then 1 else 0)

/-- An assignment behind its comma; the drivers write two blanks before the size of a font. -/
def assign (column : String) (value : Value) : List Char × List Char × Value := (", ".toList, column.toList, value)

def assignSize (column : String) (value : Value) : List Char × List Char × Value := (",  ".toList, column.toList, value)

def compare (column : String) (value : Value) : List Char × List Char × Value := (" AND ".toList, column.toList, value)

structure FontColumns where
  fhgt : String
  fwgt : String
  fitl : String
  funl : String
  fstr : String
  fchr : String
  fptc : String
  ffce : String

def dataColumns : FontColumns :=
  ⟨"abd_fhgt", "abd_fwgt", "abd_fitl", "abd_funl", "abd_fstr", "abd_fchr", "abd_fptc", "abd_ffce"⟩

def headingColumns : FontColumns :=
  ⟨"abh_fhgt", "abh_fwgt", "abh_fitl", "abh_funl", "abh_fstr", "abh_fchr", "abh_fptc", "abh_ffce"⟩

def labelColumns : FontColumns :=
  ⟨"abl_fhgt", "abl_fwgt", "abl_fitl", "abl_funl", "abl_fstr", "abl_fchr", "abl_fptc", "abl_ffce"⟩

/-- The assignments of one font: how the underline is written, and whether the strike-out is there at all. -/
def fontAssignments (c : FontColumns) (underline : Bool → Value) (strikethrough : Bool) (f : Font) :
    List (List Char × List Char × Value) :=
  [assignSize c.fhgt (.number f.size), assign c.fwgt (.number f.weight), assign c.fitl (letter f.italic),
    assign c.funl (underline f.underline)] ++
    (if strikethrough then [assign c.fstr (digit f.strikethrough)] else []) ++
    [assign c.fchr (.number f.encoding), assign c.fptc (.number f.pixelSize), assign c.ffce (.text f.name)]

/-- The values of one font in an INSERT; `strikethrough` is what stands at the place of the strike-out. -/
def fontValues (underline : Value) (strikethrough : List Value) (f : Font) : List Value :=
  [.number f.size, .number f.weight, letter f.italic, underline] ++ strikethrough ++
    [.number f.encoding, .number f.pixelSize, .text f.name]

def updateCommand (catalog : String) (tnam : Text) (tid : ℕ) (ownr : Text)
    (fonts : List (List Char × List Char × Value)) (comment : Text) (whereOwner : Text) : Text :=
  updateText catalog.toList ("abt_tnam".toList, .text tnam)
    ([assign "abt_tid" (.number tid), assign "abt_ownr" (.text ownr)] ++ fonts ++ [assign "abt_cmnt" (.text comment)])
    ("abt_tnam".toList, .text tnam) [compare "abt_tid" (.number tid), compare "abt_ownr" (.text whereOwner)]

def insertCommand (catalog : String) (tnam : Text) (tid : ℕ) (ownr : Text) (fonts : List Value)
    (comment : Text) : Text :=
  insertText catalog.toList (.text tnam) ([.number tid, .text ownr] ++ fonts ++ [.text comment])

def qualifiedName (t : DatabaseTable) : Text := t.schemaName ++ ".".toList ++ t.tableName

namespace SQLite

/-- The weight of the heading font goes to the column of the data font. -/
def updateFonts (p : TableProperties) : List (List Char × List Char × Value) :=
  fontAssignments dataColumns digit true p.dataFont ++
    fontAssignments { headingColumns with fwgt := "abd_fwgt" } digit true p.headingFont ++
    fontAssignments labelColumns digit true p.labelFont

def insertFonts (p : TableProperties) : List Value :=
  fontValues (digit p.dataFontUnderline) [digit p.dataFontStrikethrough] p.dataFont ++
    fontValues (digit p.headingFontUnderline) [digit p.headingFontStrikethrough] p.headingFont ++
    fontValues (.text (digit p.labelFontUnderline).content) [digit p.labelFontStrikethrough] p.labelFont

def update (t : DatabaseTable) (p : TableProperties) : Text :=
  updateCommand "sys.abcattbl" t.tableName t.objectId t.owner (updateFonts p) p.comment t.owner

def insert (t : DatabaseTable) (p : TableProperties) : Text :=
  insertCommand "sys.abcattbl" t.tableName t.objectId t.owner (insertFonts p) p.comment

/-- The name and the owner that `IsTablePropertiesExist` binds. -/
def tested (t : DatabaseTable) : Text × Text := (t.tableName, t.owner)

end SQLite

namespace Postgres

def updateFonts (p : TableProperties) : List (List Char × List Char × Value) :=
  fontAssignments dataColumns digit true p.dataFont ++
    fontAssignments { headingColumns with fwgt := "abd_fwgt" } digit true p.headingFont ++
    fontAssignments labelColumns digit true p.labelFont

/-- The strike-out of the heading is taken from its size. -/
def insertFonts (p : TableProperties) : List Value :=
  fontValues (digit p.dataFontUnderline) [digit p.dataFontStrikethrough] p.dataFont ++
    fontValues (digit p.headingFontUnderline) [digit (p.headingFontSize != 0)] p.headingFont ++
    fontValues (digit p.labelFontUnderline) [digit p.labelFontStrikethrough] p.labelFont

def update (user : Text) (t : DatabaseTable) (p : TableProperties) : Text :=
  updateCommand "abcattbl" (qualifiedName t) t.objectId user (updateFonts p) p.comment user

def insert (user : Text) (t : DatabaseTable) (p : TableProperties) : Text :=
  insertCommand "abcattbl" (qualifiedName t) t.objectId user (insertFonts p) p.comment

def tested (t : DatabaseTable) : Text × Text := (qualifiedName t, t.owner)

end Postgres

namespace MySQL

def updateFonts (p : TableProperties) : List (List Char × List Char × Value) :=
  fontAssignments dataColumns letter false p.dataFont ++
    fontAssignments { headingColumns with fwgt := "abd_fwgt" } letter false p.headingFont ++
    fontAssignments labelColumns letter false p.labelFont

def insertFonts (p : TableProperties) : List Value :=
  fontValues (letter p.dataFontUnderline) [] p.dataFont ++
    fontValues (letter p.headingFontUnderline) [] p.headingFont ++
    fontValues (letter p.labelFontUnderline) [] p.labelFont

/-- The comment is the one the table has, not the one of the new properties. -/
def update (user : Text) (t : DatabaseTable) (p : TableProperties) : Text :=
  updateCommand "abcattbl" t.tableName t.objectId user (updateFonts p) t.comment user

def insert (user : Text) (t : DatabaseTable) (p : TableProperties) : Text :=
  insertCommand "abcattbl" t.tableName t.objectId user (insertFonts p) t.comment

end MySQL

namespace Odbc

/-- The strike-out of the label is appended to `comment`, a local that nothing reads. -/
def updateFonts (p : TableProperties) : List (List Char × List Char × Value) :=
  fontAssignments dataColumns digit true p.dataFont ++
    fontAssignments headingColumns digit true p.headingFont ++
    fontAssignments labelColumns digit false p.labelFont

def insertFonts (p : TableProperties) : List Value :=
  fontValues (digit p.dataFontUnderline) [digit p.dataFontStrikethrough] p.dataFont ++
    fontValues (digit p.headingFontUnderline) [digit p.headingFontStrikethrough] p.headingFont ++
    fontValues (digit p.labelFontUnderline) [digit p.labelFontStrikethrough] p.labelFont

def update (user : Text) (t : DatabaseTable) (p : TableProperties) : Text :=
  updateCommand "abcattbl" (qualifiedName t) t.objectId t.owner (updateFonts p) p.comment user

def insert (t : DatabaseTable) (p : TableProperties) : Text :=
  insertCommand "abcattbl" (qualifiedName t) t.objectId t.owner (insertFonts p) p.comment

def tested (t : DatabaseTable) : Text × Text := (qualifiedName t, t.owner)

end Odbc

/-- MySQL binds two buffers that nothing has filled: what is tested is what they happen to hold. -/
inductive Driver
  | sqlite
  | postgres
  | mySQL (buffers : Text × Text)
  | odbc

namespace Driver

def update : Driver → Text → DatabaseTable → TableProperties → Text
  | sqlite, _ => SQLite.update
  | postgres, user => Postgres.update user
  | mySQL _, user => MySQL.update user
  | odbc, user => Odbc.update user

def insert : Driver → Text → DatabaseTable → TableProperties → Text
  | sqlite, _ => SQLite.insert
  | postgres, user => Postgres.insert user
  | mySQL _, user => MySQL.insert user
  | odbc, _ => Odbc.insert

def insertFonts : Driver → TableProperties → List Value
  | sqlite => SQLite.insertFonts
  | postgres => Postgres.insertFonts
  | mySQL _ => MySQL.insertFonts
  | odbc => Odbc.insertFonts

def tested : Driver → DatabaseTable → Text × Text
  | sqlite, t => SQLite.tested t
  | postgres, t => Postgres.tested t
  | mySQL buffers, _ => buffers
  | odbc, t => Odbc.tested t

def command (d : Driver) (exist : Bool) (user : Text) (t : DatabaseTable) (p : TableProperties) : Text :=
  if exist then d.update user t p else d.insert user t p

end Driver

end PropertyStatements

end DbHandler
