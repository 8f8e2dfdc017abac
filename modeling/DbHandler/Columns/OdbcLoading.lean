import DbHandler.LoadedTable
import DbHandler.Odbc.ForeignKeys
import Mathlib.Data.List.TakeDrop
import Mathlib.Data.List.Forall2

namespace DbHandler.OdbcColumns

open Odbc (bound maxNameLength)

/-- A row of `SQLColumns`, in the columns of which a field is made; what is NULL is `none`. -/
structure ColumnRow where
  name : Text
  typeName : Text
  columnSize : Option ℤ
  decimalDigits : Option ℤ
  nullable : ℤ
  columnDef : Option Text
  deriving DecidableEq, Repr

structure ColumnBuffers where
  szColumnName : Text
  szTypeName : Text
  columnSize : ℤ
  decimalDigits : ℤ
  nullable : ℤ
  szColumnDefault : Text
  deriving DecidableEq, Repr

/-- The length in bytes that each of the texts is bound with. -/
def textLength : ℕ := 256

/-- What the driver leaves of a bound buffer where the value is NULL. -/
def overwrite {α : Type} (old : α) (value : Option α) : α := value.getD old

/-- `defaultBound`: for old versions of one server the default is not bound. -/
def ColumnBuffers.fetch (defaultBound : Bool) (b : ColumnBuffers) (row : ColumnRow) : ColumnBuffers where
  szColumnName := bound textLength row.name
  szTypeName := bound textLength row.typeName
  columnSize := overwrite b.columnSize row.columnSize
  decimalDigits := overwrite b.decimalDigits row.decimalDigits
  nullable := row.nullable
  szColumnDefault :=
    if defaultBound then overwrite b.szColumnDefault (row.columnDef.map (bound textLength)) else b.szColumnDefault

def bindsDefault (subtype : Text) (versionMajor : ℕ) : Bool :=
  subtype ≠ "Sybase SQL Anywhere".toList || 6 < versionMajor

/-- What `AddDropTable` has found of the table before its columns. -/
structure Found where
  tableName : Text
  autoincFields : List Text
  pkRows : List Text
  fkFieldNames : List Text

/-- The primary keys were read through a buffer of their own. -/
def Found.pkFields (f : Found) : List Text := f.pkRows.map (bound maxNameLength)

structure ColumnLocals where
  buffers : ColumnBuffers
  fieldName : Text
  fieldType : Text
  defaultValue : Text
  fields : List TableField

section Loop

variable (f : Found) (defaultBound : Bool)

def makeField (fieldName fieldType defaultValue : Text) (b : ColumnBuffers) : TableField where
  columnName := fieldName
  columnType := fieldType
  fieldSize := b.columnSize
  decimalSize := b.decimalDigits
  fullName := f.tableName ++ '.' :: fieldName
  columnDefaultValue := defaultValue
  columnIsNull := b.nullable = 1
  autoIncrement := fieldName ∈ f.autoincFields
  columnPK := fieldName ∈ f.pkFields
  columnFK := fieldName ∈ f.fkFieldNames

def takeColumn (l : ColumnLocals) (row : ColumnRow) : ColumnLocals :=
  let b := l.buffers.fetch defaultBound row
  let fieldName := l.fieldName ++ b.szColumnName
  let fieldType := l.fieldType ++ b.szTypeName
  let defaultValue := l.defaultValue ++ b.szColumnDefault
  { buffers := b
    fieldName := []
    fieldType := []
    defaultValue := []
    fields := l.fields ++ [makeField f fieldName fieldType defaultValue b] }

/-- `stack` is what the three uninitialised texts hold. -/
def ColumnBuffers.initial (stack : Text × Text × Text) : ColumnBuffers := ⟨stack.1, stack.2.1, 0, 0, 0, stack.2.2⟩

def loadColumns (stack : Text × Text × Text) (rows : List ColumnRow) : List TableField :=
  (rows.foldl (takeColumn f defaultBound) ⟨.initial stack, [], [], [], []⟩).fields

end Loop

section Buffers

variable {f : Found} {defaultBound : Bool}

/-- What a buffer holds after some values, of which the last that is not NULL counts. -/
def held {α : Type} (start : α) (values : List (Option α)) : α := values.foldl overwrite start

def ColumnBuffers.after (defaultBound : Bool) (b : ColumnBuffers) (rows : List ColumnRow) : ColumnBuffers :=
  rows.foldl (ColumnBuffers.fetch defaultBound) b

theorem after_columnSize (b : ColumnBuffers) (rows : List ColumnRow) :
    (b.after defaultBound rows).columnSize = held b.columnSize (rows.map ColumnRow.columnSize) := by
  induction rows generalizing b with
  | nil => rfl
  | cons row rows ih => exact ih (b.fetch defaultBound row)

theorem after_decimalDigits (b : ColumnBuffers) (rows : List ColumnRow) :
    (b.after defaultBound rows).decimalDigits = held b.decimalDigits (rows.map ColumnRow.decimalDigits) := by
  induction rows generalizing b with
  | nil => rfl
  | cons row rows ih => exact ih (b.fetch defaultBound row)

theorem after_szColumnDefault (b : ColumnBuffers) (rows : List ColumnRow) :
    (b.after defaultBound rows).szColumnDefault =
      if defaultBound then held b.szColumnDefault (rows.map fun row => row.columnDef.map (bound textLength))
      else b.szColumnDefault := by
  induction rows generalizing b with
  | nil => exact (ite_self _).symm
  | cons row rows ih =>
    refine (ih (b.fetch defaultBound row)).trans ?_
    cases defaultBound <;> rfl

/-- The field of a row depends on what the rows before it have left. -/
def fieldOf (f : Found) (defaultBound : Bool) (b : ColumnBuffers) (row : ColumnRow) : TableField :=
  let b := b.fetch defaultBound row
  makeField f b.szColumnName b.szTypeName b.szColumnDefault b

def fieldsOf (f : Found) (defaultBound : Bool) : ColumnBuffers → List ColumnRow → List TableField
  | _, [] => []
  | b, row :: rows => fieldOf f defaultBound b row :: fieldsOf f defaultBound (b.fetch defaultBound row) rows

theorem foldl_takeColumn (b : ColumnBuffers) (fields : List TableField) (rows : List ColumnRow) :
    (rows.foldl (takeColumn f defaultBound) ⟨b, [], [], [], fields⟩).fields = fields ++ fieldsOf f defaultBound b rows := by
  induction rows generalizing b fields with
  | nil => exact (List.append_nil fields).symm
  | cons row rows ih =>
    refine (ih (b.fetch defaultBound row) (fields ++ [fieldOf f defaultBound b row])).trans ?_
    rw [List.append_assoc]
    rfl

theorem loadColumns_eq (stack : Text × Text × Text) (rows : List ColumnRow) :
    loadColumns f defaultBound stack rows = fieldsOf f defaultBound (.initial stack) rows :=
  foldl_takeColumn (.initial stack) [] rows

end Buffers

section Answers

variable {f : Found} {defaultBound : Bool} {stack : Text × Text × Text}

/-- A field as its own row has it. -/
structure Describes (pkRows : List Text) (field : TableField) (row : ColumnRow) : Prop where
  name : field.columnName = row.name
  typeName : field.columnType = row.typeName
  size : field.fieldSize = row.columnSize.getD 0
  digits : field.decimalSize = row.decimalDigits.getD 0
  nullable : field.columnIsNull ↔ row.nullable = 1
  default : field.columnDefaultValue = row.columnDef.getD []
  pk : field.columnPK ↔ row.name ∈ pkRows

def Short (t : Text) : Prop := t.length ≤ 127

/-- What the buffer of the default holds after the rows before. -/
def heldDefault (defaultBound : Bool) (stack : Text × Text × Text) (front : List ColumnRow) : Text :=
  if defaultBound then held stack.2.2 (front.map fun row => row.columnDef.map (bound textLength)) else stack.2.2

/-- The texts fit, what is absent finds a zero or an empty text in its buffer, and the name is among the primary keys as
they were read iff it is one. -/
structure Untouched (f : Found) (defaultBound : Bool) (stack : Text × Text × Text) (front : List ColumnRow)
    (row : ColumnRow) : Prop where
  name : Short row.name
  typeName : Short row.typeName
  size : row.columnSize = none → held 0 (front.map ColumnRow.columnSize) = 0
  digits : row.decimalDigits = none → held 0 (front.map ColumnRow.decimalDigits) = 0
  default : if defaultBound = true ∧ row.columnDef ≠ none then Short (row.columnDef.getD [])
    else heldDefault defaultBound stack front = row.columnDef.getD []
  pk : row.name ∈ f.pkFields ↔ row.name ∈ f.pkRows

theorem bound_eq_iff {t : Text} : bound textLength t = t ↔ Short t := List.take_eq_self_iff t

theorem overwrite_eq_iff {α : Type} {old zero : α} {value : Option α} :
    overwrite old value = value.getD zero ↔ (value = none → old = zero) := by
  cases value <;> simp [overwrite]

theorem default_iff {old : Text} {columnDef : Option Text} :
    (if defaultBound then overwrite old (columnDef.map (bound textLength)) else old) = columnDef.getD [] ↔
      if defaultBound = true ∧ columnDef ≠ none then Short (columnDef.getD []) else old = columnDef.getD [] := by
  cases defaultBound with
  | false => simp
  | true =>
    cases columnDef with
    | none => simp [overwrite]
    | some text =>
      rw [if_pos rfl, if_pos ⟨rfl, Option.some_ne_none _⟩]
      exact bound_eq_iff

theorem fieldOf_size (front : List ColumnRow) (row : ColumnRow) :
    (fieldOf f defaultBound ((ColumnBuffers.initial stack).after defaultBound front) row).fieldSize =
      overwrite (held 0 (front.map ColumnRow.columnSize)) row.columnSize := by
  change overwrite ((ColumnBuffers.initial stack).after defaultBound front).columnSize _ = _
  rw [after_columnSize]
  rfl

theorem fieldOf_digits (front : List ColumnRow) (row : ColumnRow) :
    (fieldOf f defaultBound ((ColumnBuffers.initial stack).after defaultBound front) row).decimalSize =
      overwrite (held 0 (front.map ColumnRow.decimalDigits)) row.decimalDigits := by
  change overwrite ((ColumnBuffers.initial stack).after defaultBound front).decimalDigits _ = _
  rw [after_decimalDigits]
  rfl

theorem fieldOf_default (front : List ColumnRow) (row : ColumnRow) :
    (fieldOf f defaultBound ((ColumnBuffers.initial stack).after defaultBound front) row).columnDefaultValue =
      if defaultBound then overwrite (heldDefault defaultBound stack front) (row.columnDef.map (bound textLength))
      else heldDefault defaultBound stack front := by
  have hheld : ((ColumnBuffers.initial stack).after defaultBound front).szColumnDefault =
      heldDefault defaultBound stack front := after_szColumnDefault (ColumnBuffers.initial stack) front
  rw [← hheld]
  rfl

theorem fieldOf_pk (b : ColumnBuffers) {row : ColumnRow} (h : Short row.name) :
    (fieldOf f defaultBound b row).columnPK ↔ row.name ∈ f.pkFields := by
  change decide (bound textLength row.name ∈ f.pkFields) = true ↔ _
  rw [bound_eq_iff.mpr h, decide_eq_true_iff]

theorem describes_iff (front : List ColumnRow) (row : ColumnRow) :
    Describes f.pkRows (fieldOf f defaultBound ((ColumnBuffers.initial stack).after defaultBound front) row) row ↔
      Untouched f defaultBound stack front row := by
  constructor
  · intro h
    have hshort : Short row.name := bound_eq_iff.mp h.name
    refine ⟨hshort, bound_eq_iff.mp h.typeName, ?_, ?_, ?_, (fieldOf_pk _ hshort).symm.trans h.pk⟩
    · exact overwrite_eq_iff.mp ((fieldOf_size front row).symm.trans h.size)
    · exact overwrite_eq_iff.mp ((fieldOf_digits front row).symm.trans h.digits)
    · exact default_iff.mp ((fieldOf_default front row).symm.trans h.default)
  · intro h
    refine ⟨bound_eq_iff.mpr h.name, bound_eq_iff.mpr h.typeName, ?_, ?_, decide_eq_true_iff, ?_,
      (fieldOf_pk _ h.name).trans h.pk⟩
    · exact (fieldOf_size front row).trans (overwrite_eq_iff.mpr h.size)
    · exact (fieldOf_digits front row).trans (overwrite_eq_iff.mpr h.digits)
    · exact (fieldOf_default front row).trans (default_iff.mpr h.default)

theorem forall₂_fieldsOf (front rows : List ColumnRow) :
    List.Forall₂ (Describes f.pkRows) (fieldsOf f defaultBound ((ColumnBuffers.initial stack).after defaultBound front) rows)
      rows ↔ ∀ before row behind, rows = before ++ row :: behind →
        Untouched f defaultBound stack (front ++ before) row := by
  induction rows generalizing front with
  | nil => simp [fieldsOf]
  | cons row rows ih =>
    have hafter : ((ColumnBuffers.initial stack).after defaultBound front).fetch defaultBound row =
        (ColumnBuffers.initial stack).after defaultBound (front ++ [row]) := by
      rw [ColumnBuffers.after, ColumnBuffers.after, List.foldl_append]
      rfl
    rw [fieldsOf, List.forall₂_cons, hafter, ih, describes_iff]
    constructor
    · rintro ⟨hfirst, hrest⟩ before other behind heq
      cases before with
      | nil =>
        obtain ⟨rfl, -⟩ := List.cons.inj heq
        rw [List.append_nil]
        exact hfirst
      | cons head before =>
        obtain ⟨rfl, htail⟩ := List.cons.inj heq
        have hlater := hrest before other behind htail
        rwa [List.append_assoc] at hlater
    · intro h
      refine ⟨?_, fun before other behind heq => ?_⟩
      · have hfirst := h [] row rows rfl
        rwa [List.append_nil] at hfirst
      · rw [List.append_assoc]
        exact h (row :: before) other behind (by rw [heq]; rfl)

def person : Found := ⟨"person".toList, [], ["id".toList], []⟩

def idThenName : List ColumnRow :=
  [⟨"id".toList, "integer".toList, some 10, some 0, 0, some "1".toList⟩,
    ⟨"note".toList, "text".toList, none, none, 1, none⟩]

end Answers

end DbHandler.OdbcColumns
