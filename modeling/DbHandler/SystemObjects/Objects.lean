import DbHandler.Client

namespace DbHandler

inductive SystemTable
  | abcatcol
  | abcatedt
  | abcatfmt
  | abcattbl
  | abcatvld
  deriving DecidableEq, Repr

inductive SystemIndex
  | abcattbl_tnam_ownr
  | abcatcol_tnam_ownr_cnam
  deriving DecidableEq, Repr

inductive SystemObject
  | table (t : SystemTable)
  | index (i : SystemIndex)
  deriving DecidableEq, Repr

structure Layout where
  character : Text
  tableNameNull : Bool
  underline : Text
  strikeOut : Bool
  beforeKey : Text

namespace Layout

def separated (columns : List Text) : Text := ", ".toList.intercalate columns

def column (name : String) (type : Text) : Text := name.toList ++ ' ' :: type

def sized (type : Text) (size : ℕ) : Text := type ++ '(' :: digits size ++ [')']

def notNull (type : Text) : Text := type ++ " NOT NULL".toList

def char : Text := "char".toList

def smallint : Text := "smallint".toList

def integer : Text := "integer".toList

def font (l : Layout) (name : String) : List Text :=
  let column (suffix : String) (type : Text) := name.toList ++ column suffix type
  [column "_fhgt" smallint, column "_fwgt" smallint, column "_fitl" (sized char 1), column "_funl" l.underline] ++
    (if l.strikeOut then [column "_fstr" integer] else []) ++
    [column "_fchr" smallint, column "_fptc" smallint, column "_ffce" (sized char 18)]

def columns (l : Layout) : SystemTable → List Text
  | .abcatcol => [column "abc_tnam" (notNull (sized l.character 129)), column "abc_tid" integer,
      column "abc_ownr" (notNull (sized l.character 129)), column "abc_cnam" (notNull (sized l.character 129)),
      column "abc_cid" smallint, column "abc_labl" (sized l.character 254), column "abc_lpos" smallint,
      column "abc_hdr" (sized l.character 254), column "abc_hpos" smallint, column "abc_itfy" smallint,
      column "abc_mask" (sized l.character 31), column "abc_case" smallint, column "abc_hght" smallint,
      column "abc_wdth" smallint, column "abc_ptrn" (sized l.character 31), column "abc_bmap" (sized char 1),
      column "abc_init" (sized l.character 254), column "abc_cmnt" (sized l.character 254),
      column "abc_edit" (sized l.character 31), column "abc_tag" (sized l.character 254)]
  | .abcatedt => [column "abe_name" (notNull (sized l.character 30)), column "abe_edit" (sized l.character 254),
      column "abe_type" smallint, column "abe_cntr" integer, column "abe_seqn" (notNull smallint),
      column "abe_flag" integer, column "abe_work" (sized l.character 32)]
  | .abcatfmt => [column "abf_name" (notNull (sized l.character 30)), column "abf_frmt" (sized l.character 254),
      column "abf_type" smallint, column "abf_cntr" integer]
  | .abcattbl =>
    [column "abt_tnam" (if l.tableNameNull then sized char 129 else notNull (sized char 129)),
      column "abt_tid" integer, column "abt_ownr" (notNull (sized char 129))] ++
      l.font "abd" ++ l.font "abh" ++ l.font "abl" ++ [column "abt_cmnt" (sized char 254)]
  | .abcatvld => [column "abv_name" (notNull (sized l.character 30)), column "abv_vald" (sized l.character 254),
      column "abv_type" smallint, column "abv_cntr" integer, column "abv_msg" (sized l.character 254)]

end Layout

namespace SystemTable

def all : List SystemTable := [abcatcol, abcatedt, abcatfmt, abcattbl, abcatvld]

theorem mem_all (t : SystemTable) : t ∈ all := by cases t <;> decide

def name : SystemTable → Text
  | abcatcol => "abcatcol".toList
  | abcatedt => "abcatedt".toList
  | abcatfmt => "abcatfmt".toList
  | abcattbl => "abcattbl".toList
  | abcatvld => "abcatvld".toList

def key : SystemTable → List Text
  | abcatcol => ["abc_tnam".toList, "abc_ownr".toList, "abc_cnam".toList]
  | abcatedt => ["abe_name".toList, "abe_seqn".toList]
  | abcatfmt => ["abf_name".toList]
  | abcattbl => ["abt_tnam".toList, "abt_ownr".toList]
  | abcatvld => ["abv_name".toList]

def body (l : Layout) (t : SystemTable) : Text :=
  '(' :: Layout.separated (l.columns t) ++ l.beforeKey ++ "PRIMARY KEY( ".toList ++ Layout.separated t.key ++ " ))".toList

end SystemTable

namespace SystemIndex

def name : SystemIndex → Text
  | abcattbl_tnam_ownr => "abcattbl_tnam_ownr".toList
  | abcatcol_tnam_ownr_cnam => "abcatcol_tnam_ownr_cnam".toList

def table : SystemIndex → SystemTable
  | abcattbl_tnam_ownr => .abcattbl
  | abcatcol_tnam_ownr_cnam => .abcatcol

def quoted (name : Text) : Text := Char.ofNat 34 :: name ++ [Char.ofNat 34]

/-- `write` puts names in quotation marks where the driver does. -/
def definition (write : Text → Text) (i : SystemIndex) : Text :=
  write i.name ++ " ON ".toList ++ write i.table.name ++ '(' ::
    Layout.separated (i.table.key.map fun column => write column ++ " ASC".toList) ++ [')']

end SystemIndex

end DbHandler
