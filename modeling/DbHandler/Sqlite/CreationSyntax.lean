import DbHandler.Connections.Wizard
import DbHandler.Foundation.Separators

namespace DbHandler.Sqlite.CreationSyntax

open Connections (upToNul)
open Foundation.Separators

section Catalog

inductive ObjectType
  | table
  | view
  | index
  | trigger
  deriving DecidableEq, Repr

structure MasterRow where
  type : ObjectType
  name : Text
  sql : Text
  deriving DecidableEq, Repr

def MasterRow.IsRelation (row : MasterRow) : Prop := row.type = .table ∨ row.type = .view

instance : DecidablePred MasterRow.IsRelation := fun row =>
  inferInstanceAs (Decidable (row.type = .table ∨ row.type = .view))

/-- `sqlite_master` in the order in which its rows are read. The text that creates a table or a view names it. -/
structure Catalog where
  rows : List MasterRow
  sql_whole : ∀ row ∈ rows, row.IsRelation → Char.ofNat 0 ∉ row.sql
  sql_distinct : ∀ row ∈ rows, ∀ other ∈ rows, row.IsRelation → other.IsRelation → row.sql = other.sql → row = other

end Catalog

section Call

/-- The errors of the three calls, each as the text of `GetErrorMessage`, and the text for `SQLITE_DONE`. -/
structure Replies where
  prepare : Option Text
  bind : Option Text
  step : Option Text
  done : Text

structure Replies.Succeed (replies : Replies) : Prop where
  prepare : replies.prepare = none
  bind : replies.bind = none
  step : replies.step = none

inductive Statement
  | null
  | prepared
  | finalised
  deriving DecidableEq, Repr

structure Answer where
  result : ℕ
  syntaxText : Text
  errorMsg : List Text
  stmt : Statement
  deriving DecidableEq, Repr

/-- `type = 'table' OR type = 'view' AND name = ?`, where `AND` binds tighter than `OR`. -/
def selects (name : Text) (row : MasterRow) : Bool := row.type = .table || row.type = .view && row.name = name

def getTableCreationSyntax (catalog : Catalog) (replies : Replies) (tableName syntaxText : Text) : Answer :=
  match replies.prepare with
  | some err => ⟨1, syntaxText, [err], .null⟩
  | none =>
    match replies.bind with
    | some err => ⟨1, syntaxText, [err], .prepared⟩
    | none =>
      match replies.step with
      | some err => ⟨1, syntaxText, [err], .finalised⟩
      | none =>
        match catalog.rows.find? (selects (upToNul tableName)) with
        | some row => ⟨0, upToNul row.sql, [], .finalised⟩
        | none => ⟨1, syntaxText, [replies.done], .finalised⟩

/-- The name that `OnExportSyntax` passes; `AddDropTable` gives every table the schema `main`. -/
def exported (table : Text) : Text := "main".toList ++ '.' :: table

end Call

variable {catalog : Catalog} {replies : Replies} {tableName syntaxText : Text} {row : MasterRow}

section Rows

theorem selects_iff {name : Text} : selects name row = true ↔ row.type = .table ∨ row.type = .view ∧ row.name = name := by
  simp [selects]

theorem relation_of_selects {name : Text} (h : selects name row = true) : row.IsRelation := by
  rcases selects_iff.mp h with htable | ⟨hview, -⟩
  · exact Or.inl htable
  · exact Or.inr hview

theorem name_ne_exported (name : Text) : name ≠ upToNul (exported name) := by
  intro h
  have hwhole : Char.ofNat 0 ∉ name := by
    rw [h]
    exact not_mem_before _ _
  have hexported : Char.ofNat 0 ∉ exported name := by
    rw [exported, List.mem_append, not_or]
    exact ⟨by decide, List.not_mem_cons_of_ne_of_not_mem (by decide) hwhole⟩
  have hlength := congrArg List.length (h.trans (before_of_not_mem hexported))
  rw [exported, List.length_append, List.length_cons] at hlength
  omega

theorem selects_exported : selects (upToNul (exported row.name)) row = true ↔ row.type = .table := by
  rw [selects_iff]
  exact or_iff_left fun h => name_ne_exported row.name h.2

end Rows

section Answers

/-- A call that succeeds reads the text of the object it was asked for, one for an unknown name changes nothing, and
no statement is left. -/
structure Answered (catalog : Catalog) (replies : Replies) (tableName syntaxText : Text) (answer : Answer) : Prop where
  found : replies.Succeed → ∀ row ∈ catalog.rows, row.IsRelation → tableName = exported row.name →
    answer.result = 0 ∧ answer.syntaxText = row.sql
  absent : (∀ row ∈ catalog.rows, row.IsRelation → tableName ≠ row.name ∧ tableName ≠ exported row.name) →
    answer.result ≠ 0 ∧ answer.syntaxText = syntaxText
  finalised : answer.stmt ≠ .prepared

def Passed (tableName : Text) (row : MasterRow) : Prop :=
  row.type ≠ .table ∧ (row.type = .view → row.name ≠ upToNul tableName)

theorem passed_iff : Passed tableName row ↔ selects (upToNul tableName) row = false := by
  rw [← Bool.not_eq_true, selects_iff, not_or, not_and, Passed]

/-- Only a table is ever found, and only where it is the first one; and a name stands for nothing only in a database
without tables. -/
structure Reachable (catalog : Catalog) (tableName : Text) : Prop where
  first : ∀ row ∈ catalog.rows, row.IsRelation → tableName = exported row.name → row.type = .table ∧
    ∃ front back, catalog.rows = front ++ row :: back ∧ ∀ other ∈ front, Passed tableName other
  absent : (∀ row ∈ catalog.rows, row.IsRelation → tableName ≠ row.name ∧ tableName ≠ exported row.name) →
    ∀ row ∈ catalog.rows, Passed tableName row

theorem answer_of_find (h : replies.Succeed)
    (hfind : catalog.rows.find? (selects (upToNul tableName)) = some row) :
    getTableCreationSyntax catalog replies tableName syntaxText = ⟨0, row.sql, [], .finalised⟩ := by
  have hwhole : upToNul row.sql = row.sql :=
    before_of_not_mem (catalog.sql_whole row (List.mem_of_find?_eq_some hfind)
      (relation_of_selects (List.find?_some hfind)))
  simp only [getTableCreationSyntax, h.prepare, h.bind, h.step, hfind, hwhole]

theorem answer_of_find_none (h : replies.Succeed)
    (hfind : catalog.rows.find? (selects (upToNul tableName)) = none) :
    getTableCreationSyntax catalog replies tableName syntaxText = ⟨1, syntaxText, [replies.done], .finalised⟩ := by
  simp only [getTableCreationSyntax, h.prepare, h.bind, h.step, hfind]

theorem answer_of_failed (catalog : Catalog) (tableName syntaxText : Text) (h : ¬replies.Succeed) :
    (getTableCreationSyntax catalog replies tableName syntaxText).result = 1 ∧
      (getTableCreationSyntax catalog replies tableName syntaxText).syntaxText = syntaxText := by
  unfold getTableCreationSyntax
  cases hprepare : replies.prepare with
  | some err => exact ⟨rfl, rfl⟩
  | none =>
    cases hbind : replies.bind with
    | some err => exact ⟨rfl, rfl⟩
    | none =>
      cases hstep : replies.step with
      | some err => exact ⟨rfl, rfl⟩
      | none => exact absurd ⟨hprepare, hbind, hstep⟩ h

theorem finalised_iff : (getTableCreationSyntax catalog replies tableName syntaxText).stmt ≠ .prepared ↔
    (replies.prepare = none → replies.bind = none) := by
  unfold getTableCreationSyntax
  cases replies.prepare with
  | some err => simp
  | none =>
    cases replies.bind with
    | some err => simp
    | none =>
      cases replies.step with
      | some err => simp
      | none => cases catalog.rows.find? (selects (upToNul tableName)) <;> simp

theorem find_iff_first (hname : tableName = exported row.name) :
    catalog.rows.find? (selects (upToNul tableName)) = some row ↔
      row.type = .table ∧ ∃ front back, catalog.rows = front ++ row :: back ∧ ∀ other ∈ front, Passed tableName other := by
  rw [List.find?_eq_some_iff_append]
  apply and_congr
  · rw [hname]
    exact selects_exported
  · simp only [passed_iff, Bool.not_eq_true']

theorem find_none_iff : catalog.rows.find? (selects (upToNul tableName)) = none ↔
    ∀ row ∈ catalog.rows, Passed tableName row := by
  rw [List.find?_eq_none]
  simp only [passed_iff, Bool.not_eq_true]

theorem found_iff (h : replies.Succeed) (hrow : row ∈ catalog.rows) (hrelation : row.IsRelation) :
    (getTableCreationSyntax catalog replies tableName syntaxText).result = 0 ∧
      (getTableCreationSyntax catalog replies tableName syntaxText).syntaxText = row.sql ↔
    catalog.rows.find? (selects (upToNul tableName)) = some row := by
  cases hfind : catalog.rows.find? (selects (upToNul tableName)) with
  | none =>
    rw [answer_of_find_none h hfind]
    simp
  | some found =>
    rw [answer_of_find h hfind, Option.some_inj]
    constructor
    · rintro ⟨-, hsql⟩
      exact catalog.sql_distinct found (List.mem_of_find?_eq_some hfind) row hrow
        (relation_of_selects (List.find?_some hfind)) hrelation hsql
    · rintro rfl
      exact ⟨rfl, rfl⟩

theorem absent_iff (h : replies.Succeed) :
    (getTableCreationSyntax catalog replies tableName syntaxText).result ≠ 0 ∧
      (getTableCreationSyntax catalog replies tableName syntaxText).syntaxText = syntaxText ↔
    catalog.rows.find? (selects (upToNul tableName)) = none := by
  cases hfind : catalog.rows.find? (selects (upToNul tableName)) with
  | none =>
    rw [answer_of_find_none h hfind]
    simp
  | some found =>
    rw [answer_of_find h hfind]
    simp

theorem creation_syntax_iff (catalog : Catalog) (replies : Replies) (tableName syntaxText : Text) :
    Answered catalog replies tableName syntaxText (getTableCreationSyntax catalog replies tableName syntaxText) ↔
      (replies.Succeed → Reachable catalog tableName) ∧ (replies.prepare = none → replies.bind = none) := by
  constructor
  · intro h
    refine ⟨fun hsucceed => ⟨?_, ?_⟩, finalised_iff.mp h.finalised⟩
    · intro row hrow hrelation hname
      exact (find_iff_first hname).mp ((found_iff hsucceed hrow hrelation).mp (h.found hsucceed row hrow hrelation hname))
    · intro habsent
      exact find_none_iff.mp ((absent_iff hsucceed).mp (h.absent habsent))
  · rintro ⟨hreach, hbind⟩
    refine ⟨?_, ?_, finalised_iff.mpr hbind⟩
    · intro hsucceed row hrow hrelation hname
      exact (found_iff hsucceed hrow hrelation).mpr
        ((find_iff_first hname).mpr ((hreach hsucceed).first row hrow hrelation hname))
    · intro habsent
      by_cases hsucceed : replies.Succeed
      · exact (absent_iff hsucceed).mpr (find_none_iff.mpr ((hreach hsucceed).absent habsent))
      · obtain ⟨hresult, hsyntax⟩ := answer_of_failed catalog tableName syntaxText hsucceed
        exact ⟨by omega, hsyntax⟩

def shop : Catalog where
  rows := [⟨.table, "customer".toList, "CREATE TABLE customer(id)".toList⟩,
    ⟨.table, "invoice".toList, "CREATE TABLE invoice(id)".toList⟩]
  sql_whole := by decide +kernel
  sql_distinct := by decide +kernel

theorem invoice_reads_customer :
    getTableCreationSyntax shop ⟨none, none, none, []⟩ (exported "invoice".toList) [] =
      ⟨0, "CREATE TABLE customer(id)".toList, [], .finalised⟩ ∧
    ¬Answered shop ⟨none, none, none, []⟩ (exported "invoice".toList) []
      (getTableCreationSyntax shop ⟨none, none, none, []⟩ (exported "invoice".toList) []) := by
  have hread : getTableCreationSyntax shop ⟨none, none, none, []⟩ (exported "invoice".toList) [] =
      ⟨0, "CREATE TABLE customer(id)".toList, [], .finalised⟩ := by decide +kernel
  refine ⟨hread, fun h => ?_⟩
  rw [hread] at h
  have hfound := h.found ⟨rfl, rfl, rfl⟩ ⟨.table, "invoice".toList, "CREATE TABLE invoice(id)".toList⟩
    (List.mem_cons_of_mem _ List.mem_cons_self) (Or.inl rfl) rfl
  exact absurd hfound.2 (by decide +kernel)

end Answers

end DbHandler.Sqlite.CreationSyntax
