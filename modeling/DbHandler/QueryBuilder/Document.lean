import DbHandler.Foundation.Separators
import DbHandler.Interface

namespace DbHandler.QueryBuilder

structure TableField where
  tableName : Text
  fieldName : Text
  deriving DecidableEq, Repr

/-- The lists of `DrawingDocument`. An entry of the last four is its name: the positions and the
direction that are stored beside it are not read again. -/
structure Document where
  queryFields : List TableField
  groupByFieldsAll : List Text
  groupByFields : List Text
  sortedFieldsAll : List Text
  sortedFields : List Text
  deriving DecidableEq, Repr

inductive QueryFieldChange
  | add
  | remove
  deriving DecidableEq, Repr

inductive FieldChange
  | addField
  | removeField
  | changeField
  deriving DecidableEq, Repr

structure Positions where
  position : ℕ
  originalPosition : ℕ
  deriving DecidableEq, Repr

def groupBy : Text := "GROUP BY ".toList

def orderBy : Text := "ORDER BY ".toList

def fieldSeparator : Text := ",\n         ".toList

/-- `insert( begin() + position, name )`; beyond the end that is undefined. -/
def insertAt (l : List Text) (position : ℕ) (name : Text) : Option (List Text) :=
  if position ≤ l.length then some (l.insertIdx position name) else none

def joined : List Text → Text
  | [] => []
  | name :: names => name ++ names.flatMap (fieldSeparator ++ ·)

theorem joined_eq (names : List Text) : joined names = fieldSeparator.intercalate names := by
  cases names with
  | nil => rfl
  | cons name names => exact (Foundation.Separators.intercalate_cons fieldSeparator name names).symm

/-- An empty list gives an empty replacement. -/
def remaining (keyword : Text) (names : List Text) : Text :=
  if names = [] then [] else keyword ++ joined names

def addRemoveField (field : TableField) (isAdded : QueryFieldChange) (d : Document) : Document :=
  match isAdded with
  | .add => { d with
      queryFields := d.queryFields ++ [field]
      sortedFieldsAll := d.sortedFieldsAll ++ [field.fieldName] }
  | .remove => { d with
      queryFields := d.queryFields.filter (· ≠ field)
      sortedFieldsAll := d.sortedFieldsAll.filter (· ≠ field.fieldName) }

def addGroupByAvailableField (name : Text) (d : Document) : Document :=
  { d with groupByFieldsAll := d.groupByFieldsAll ++ [name] }

def addGroupByFieldToQuery (name : Text) (position : ℕ) (d : Document) : Option (Document × Text) :=
  (insertAt d.groupByFields position name).map fun fields =>
    ({ d with groupByFieldsAll := d.groupByFieldsAll.filter (· ≠ name), groupByFields := fields },
      groupBy ++ joined fields)

def deleteGroupByField (name : Text) (original : ℕ) (d : Document) : Option (Document × Text) :=
  let fields := d.groupByFields.filter (· ≠ name)
  (insertAt d.groupByFieldsAll original name).map fun all =>
    ({ d with groupByFieldsAll := all, groupByFields := fields }, remaining groupBy fields)

def addSortedField (name : Text) (position : ℕ) (d : Document) : Option (Document × Text) :=
  (insertAt d.sortedFields position name).map fun fields =>
    ({ d with sortedFieldsAll := d.sortedFieldsAll.filter (· ≠ name), sortedFields := fields },
      orderBy ++ joined fields)

/-- The text that replaces the clause begins with `GROUP BY`. -/
def deleteSortedField (name : Text) (original : ℕ) (d : Document) : Option (Document × Text) :=
  let fields := d.sortedFields.filter (· ≠ name)
  (insertAt d.sortedFieldsAll original name).map fun all =>
    ({ d with sortedFieldsAll := all, sortedFields := fields }, remaining groupBy fields)

/-- A name that is not in the list is entered as a blank one. -/
def shuffleGroupByFields (fieldName : Text) (newPosition : ℕ) (d : Document) : Option (Document × Text) :=
  let fieldToRemove := if fieldName ∈ d.groupByFields then fieldName else []
  (insertAt (d.groupByFields.filter (· ≠ fieldName)) newPosition fieldToRemove).map fun fields =>
    ({ d with groupByFields := fields }, joined fields)

def sortPage : ℕ := 0

def groupByPage : ℕ := 2

def changeFields (type : FieldChange) (queryType : ℕ) (fieldName : Text) (pos : Positions) (d : Document) :
    Option (Document × Text) :=
  match type with
  | .addField =>
    if queryType = groupByPage then addGroupByFieldToQuery fieldName pos.position d
    else addSortedField fieldName pos.position d
  | .removeField =>
    if queryType = groupByPage then deleteGroupByField fieldName pos.originalPosition d
    else deleteSortedField fieldName pos.originalPosition d
  | .changeField =>
    if queryType = groupByPage then shuffleGroupByFields fieldName pos.position d else some (d, [])

theorem insertAt_eq {l m : List Text} {position : ℕ} {name : Text} :
    insertAt l position name = some m ↔ position ≤ l.length ∧ l.insertIdx position name = m := by
  simp [insertAt]

end DbHandler.QueryBuilder
