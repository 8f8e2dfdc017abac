import Mathlib.Data.Int.Notation
import Mathlib.Data.Nat.Basic
import DbHandler.Foundation.OrderedMap

namespace DbHandler

open Foundation

abbrev Text := List Char

instance : LawfulBEq Text := List.instLawfulBEq

inductive FkOnUpdate
  | noAction
  | restrict
  | setNull
  | setDefault
  | cascade
  deriving DecidableEq, Repr

inductive FkOnDelete
  | noAction
  | restrict
  | setNull
  | setDefault
  | cascade
  deriving DecidableEq, Repr

structure FKField where
  fkId : ℕ
  fkName : Text
  origSchema : Text
  tableName : Text
  originalField : Text
  refSchema : Text
  refTable : Text
  referencedField : Text
  origFields : List Text
  refFields : List Text
  updateConstraint : FkOnUpdate
  deleteConstraint : FkOnDelete
  matchOption : ℤ := -1
  deriving DecidableEq, Repr

def FKField.columns (fk : FKField) : Text × Text := (fk.originalField, fk.referencedField)

/-- `std::map<unsigned long, std::vector<FKField *> >`: a key for each constraint of the table. -/
abbrev ForeignKeyMap := OrderedMap ℕ (List FKField)

structure DatabaseTable where
  schemaName : Text
  tableName : Text
  foreignKeys : ForeignKeyMap
  objectId : ℕ := 0
  owner : Text := []
  comment : Text := []

/-- What a driver function leaves: it returned a code, or `at` threw `std::out_of_range`. -/
inductive Outcome (σ : Type*)
  | returned (code : ℕ) (state : σ)
  | outOfRange (state : σ)

namespace Outcome

variable {σ : Type*}

def state : Outcome σ → σ
  | returned _ s => s
  | outOfRange s => s

def bind : Outcome σ → (ℕ → σ → Outcome σ) → Outcome σ
  | returned code s, f => f code s
  | outOfRange s, _ => outOfRange s

@[simp] theorem returned_state (code : ℕ) (s : σ) : (returned code s).state = s := rfl

@[simp] theorem outOfRange_state (s : σ) : (outOfRange s).state = s := rfl

@[simp] theorem returned_bind (code : ℕ) (s : σ) (f : ℕ → σ → Outcome σ) :
    (returned code s).bind f = f code s := rfl

@[simp] theorem outOfRange_bind (s : σ) (f : ℕ → σ → Outcome σ) :
    (outOfRange s).bind f = outOfRange s := rfl

theorem bind_eq_returned {o : Outcome σ} {f : ℕ → σ → Outcome σ} {code : ℕ} {t : σ}
    (h : o.bind f = returned code t) : ∃ r s, o = returned r s ∧ f r s = returned code t := by
  cases o with
  | returned r s => exact ⟨r, s, rfl, h⟩
  | outOfRange s => cases h

theorem bind_state_eq {α : Type*} (p : σ → α) (o : Outcome σ) {f : ℕ → σ → Outcome σ}
    (hf : ∀ code s, p (f code s).state = p s) : p (o.bind f).state = p o.state := by
  cases o with
  | returned code s => exact hf code s
  | outOfRange s => rfl

end Outcome

end DbHandler
