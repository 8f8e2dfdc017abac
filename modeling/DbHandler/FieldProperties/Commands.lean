import DbHandler.Client

namespace DbHandler

structure FieldProperties where
  comment : Text
  label : Text
  heading : Text
  labelPosition : ℤ
  headingPosition : ℤ
  deriving DecidableEq, Repr

structure ColumnKey where
  tableName : Text
  ownerName : Text
  fieldName : Text
  deriving DecidableEq, Repr

namespace FieldCommands

def comma : Text := ", ".toList

/-- SQLite writes the names of table and columns in quotation marks. -/
inductive Naming
  | plain
  | quoted

def Naming.name (naming : Naming) (name : Text) : Text :=
  match naming with
  | plain => name
  | quoted => Char.ofNat 34 :: name ++ [Char.ofNat 34]

def Naming.catalog (naming : Naming) : Text :=
  match naming with
  | plain => "abcatcol".toList
  | quoted => naming.name "sys.abcatcol".toList

def columns : List Text :=
  ["abc_tnam".toList, "abc_ownr".toList, "abc_cnam".toList, "abc_labl".toList, "abc_lpos".toList, "abc_hdr".toList,
    "abc_hpos".toList, "abc_cmnt".toList]

def insertHead : Text := "INSERT INTO ".toList

def updateHead : Text := "UPDATE ".toList

/-- The strings are written as they are, without apostrophes. -/
def insertCommand (naming : Naming) (key : ColumnKey) (p : FieldProperties) : Text :=
  insertHead ++ (naming.catalog ++ '(' :: comma.intercalate (columns.map naming.name) ++ ") VALUES(".toList ++
    comma.intercalate [key.tableName, key.ownerName, key.fieldName, p.label, digits p.labelPosition, p.heading,
      digits p.headingPosition, p.comment] ++ ");".toList)

def assignment (naming : Naming) (column : String) (value : Text) : Text :=
  naming.name column.toList ++ " = ".toList ++ value

/-- There is no blank between the last value and `WHERE`. -/
def updateCommand (naming : Naming) (key : ColumnKey) (assignments : List Text) : Text :=
  updateHead ++ (naming.catalog ++ " SET ".toList ++ comma.intercalate assignments ++ "WHERE ".toList ++
    " AND ".toList.intercalate [assignment naming "abc_tnam" key.tableName, assignment naming "abc_ownr" key.ownerName,
      assignment naming "abc_cnam" key.fieldName] ++ [';'])

def assignments (naming : Naming) (p : FieldProperties) : List Text :=
  [assignment naming "abc_labl" p.label, assignment naming "abc_lpos" (digits p.labelPosition),
    assignment naming "abc_hdr" p.heading, assignment naming "abc_hpos" (digits p.headingPosition),
    assignment naming "abc_cmnt" p.comment]

/-- The ODBC driver sets the label and the heading twice. -/
def odbcAssignments (p : FieldProperties) : List Text :=
  [assignment .plain "abc_labl" p.label, assignment .plain "abc_hdr" p.heading, assignment .plain "abc_cmnt" p.comment,
    assignment .plain "abc_labl" p.label, assignment .plain "abc_lpos" (digits p.labelPosition),
    assignment .plain "abc_hdr" p.heading, assignment .plain "abc_hpos" (digits p.headingPosition)]

/-- Every driver inserts where the row exists. -/
def fieldCommand (naming : Naming) (assignments : List Text) (exist : Bool) (key : ColumnKey) (p : FieldProperties) : Text :=
  if exist then insertCommand naming key p else updateCommand naming key assignments

theorem insertCommand_begins (naming : Naming) (key : ColumnKey) (p : FieldProperties) :
    insertHead <+: insertCommand naming key p := List.prefix_append _ _

theorem updateCommand_begins (naming : Naming) (key : ColumnKey) (assignments : List Text) :
    updateHead <+: updateCommand naming key assignments := List.prefix_append _ _

end FieldCommands

end DbHandler
