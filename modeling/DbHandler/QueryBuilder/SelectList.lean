import DbHandler.Foundation.Search
import DbHandler.Foundation.Sql.Tokens
import DbHandler.QueryBuilder.Document

namespace DbHandler.QueryBuilder

open Foundation.Search
open Foundation.Sql (quotation)

def unknownFields : Text := "<unknown fields>".toList

def TableField.quoted (field : TableField) : Text :=
  quotation :: (field.tableName ++ '.' :: field.fieldName) ++ [quotation]

def select : Text := "SELECT ".toList

def selectDistinct : Text := "SELECT DISTINCT ".toList

/-- `substr( pos )`, which throws beyond the end. -/
def substr (t : Text) (pos : ℕ) : Option Text := if pos ≤ t.length then some (t.drop pos) else none

/-- From the first blank to one character before `FROM`, or to the end where there is no such place. -/
def selectedText (query : Text) : Option Text :=
  (find [' '] query).map fun start =>
    let temp := query.drop start
    match find "FROM".toList temp with
    | some (n + 1) => temp.take n
    | _ => temp

def addToText (name : Text) (alone : Bool) (query : Text) : Option Text :=
  if alone then some (replaceAll unknownFields (name ++ [' ']) query)
  else (selectedText query).map fun temp => replaceAll temp (temp ++ (',' :: ' ' :: name ++ [' '])) query

/-- A name that is not found counts as found at -1. -/
def removeFromText (name : Text) (empty : Bool) (query : Text) : Option Text :=
  if empty then some (replaceAll name unknownFields query)
  else
    let str := ',' :: ' ' :: name
    let temp := match find str query with
      | some place => query.take place
      | none => query
    let after := match find name query with
      | some place => place + name.length
      | none => name.length - 1
    (substr query after).bind fun temp1 =>
      if temp = query then (substr temp1 2).map (select ++ ·) else some (temp ++ temp1)

def addFieldToQuery (field : TableField) (isAdding : QueryFieldChange) (query : Text) (d : Document) :
    Option (Document × Text) :=
  let d := addRemoveField field isAdding d
  match isAdding with
  | .add => (addToText field.quoted (d.queryFields.length = 1) query).map (d, ·)
  | .remove => (removeFromText field.quoted d.queryFields.isEmpty query).map (d, ·)

/-- The argument is what the menu says while the handler runs. -/
def onDistinct (isChecked : Bool) (query : Text) : Text :=
  if isChecked then replaceAll selectDistinct select query else replaceAll select selectDistinct query

end DbHandler.QueryBuilder
