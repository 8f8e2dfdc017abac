import DbHandler.Interface

namespace DbHandler.AlterTable

structure Constraint where
  name : Text
  columns : List (Text × Text)
  refTable : Text
  deriving DecidableEq, Repr

inductive Effect
  | addForeignKey (constraint : Constraint)
  | dropForeignKey (name : Text)
  deriving DecidableEq, Repr

/-- A statement sent to the server: its text, and what that text asks for. -/
structure Statement where
  text : Text
  effect : Effect
  deriving DecidableEq, Repr

def alterTable (table : DatabaseTable) : Text :=
  "ALTER TABLE ".toList ++ table.schemaName ++ ".".toList ++ table.tableName ++ " ".toList

theorem alterTable_ne_nil (table : DatabaseTable) : alterTable table ≠ [] := List.cons_ne_nil 'A' _

/-- The loops over `newFK`: a comma after every name, a closing parenthesis after the last one. -/
def columnList : List Text → Text
  | [] => []
  | [name] => name ++ ") ".toList
  | name :: names => name ++ ",".toList ++ columnList names

def referencesClause : List FKField → Text
  | [] => []
  | fk :: _ => "REFERENCES ".toList ++ fk.refTable ++ "(".toList

/-- The text and the stored rule of the `switch` over `deleteProp`; `restrict` is its case 1. -/
def deleteRule (restrict : Text × FkOnDelete) (deleteProp : ℤ) : Text × FkOnDelete :=
  match deleteProp with
  | 0 => ("NO ACTION ".toList, .noAction)
  | 1 => restrict
  | 2 => ("CASCADE ".toList, .cascade)
  | 3 => ("SET NULL ".toList, .setNull)
  | 4 => ("SET DEFAULT ".toList, .setDefault)
  | _ => ([], .noAction)

def updateRule (restrict : Text × FkOnUpdate) (updateProp : ℤ) : Text × FkOnUpdate :=
  match updateProp with
  | 0 => ("NO ACTION".toList, .noAction)
  | 1 => restrict
  | 2 => ("CASCADE".toList, .cascade)
  | 3 => ("SET NULL".toList, .setNull)
  | 4 => ("SET DEFAULT".toList, .setDefault)
  | _ => ([], .noAction)

def matchClause (matchOption : ℤ) : Text :=
  if matchOption = 0 then "MATCH FULL ".toList
  else if matchOption = 1 then "MATCH PARTIAL".toList
  else "MATCH SIMPLE ".toList

def addForeignKeyText (table : DatabaseTable) (keyName : Text) (newFK : List FKField)
    (matchText deleteText updateText : Text) : Text :=
  alterTable table ++ "ADD CONSTRAINT ".toList ++ keyName ++ " ".toList ++ "FOREIGN KEY(".toList ++
    columnList (newFK.map (·.originalField)) ++ referencesClause newFK ++
    columnList (newFK.map (·.referencedField)) ++ matchText ++
    "ON DELETE ".toList ++ deleteText ++ "ON UPDATE ".toList ++ updateText

def newConstraint (keyName : Text) (newFK : List FKField) : Constraint :=
  ⟨keyName, newFK.map (·.columns), (newFK.head?.map (·.refTable)).getD []⟩

def addForeignKeyStatement (table : DatabaseTable) (keyName : Text) (newFK : List FKField)
    (matchText deleteText updateText : Text) : Statement :=
  ⟨addForeignKeyText table keyName newFK matchText deleteText updateText,
    .addForeignKey (newConstraint keyName newFK)⟩

def dropForeignKeyStatement (table : DatabaseTable) (clause keyName trailer : Text) : Statement :=
  ⟨alterTable table ++ clause ++ keyName ++ trailer, .dropForeignKey keyName⟩

theorem addForeignKeyText_prefix (table : DatabaseTable) (keyName : Text) (newFK : List FKField)
    (matchText deleteText updateText : Text) :
    alterTable table ++ "ADD CONSTRAINT ".toList ++ keyName <+:
      addForeignKeyText table keyName newFK matchText deleteText updateText := by
  simp only [addForeignKeyText, List.append_assoc, List.prefix_append_right_inj, List.prefix_append]

theorem addForeignKeyText_ne_drop {table : DatabaseTable} {keyName : Text} {newFK : List FKField}
    {matchText deleteText updateText rest : Text} :
    addForeignKeyText table keyName newFK matchText deleteText updateText ≠
      alterTable table ++ "DROP ".toList ++ rest := by
  intro h
  simp [addForeignKeyText] at h

end DbHandler.AlterTable
