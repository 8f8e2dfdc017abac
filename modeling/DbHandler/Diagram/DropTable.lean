import Mathlib.Data.Char
import Mathlib.Data.List.Lex
import Mathlib.Data.List.Induction
import Mathlib.Data.List.Nodup
import DbHandler.Diagram.DisplayedTables

namespace DbHandler.Diagram

open Foundation
open Bookkeeping (customers orders)

/-- The canvas with its selection, and the tables of the database's model, each by its address. `tableAt` is the
table of the shape at an address. -/
structure SelectionCanvas extends Bookkeeping where
  selectedShape : Option ℕ
  realSelectedShape : Option ℕ
  tableAt : ℕ → ℕ
  databaseTables : OrderedMap Text (List ℕ)
  dbName : Text

/-- The loop for the shape to remove, over the shapes from `i` on, and `Item( i + 1 )` after it. There is
nothing at `Item( size )`, and the node is dereferenced. -/
def nextFrom (erdTable : ℕ) : Bool → List TablePointer → Option TablePointer
  | _, [] => none
  | found, shape :: rest =>
    if rest ≠ [] ∨ found = false then nextFrom erdTable (found || shape.address == erdTable) rest else rest.head?

/-- The shape that is selected in place of the one that goes; the outer `none` is undefined. -/
def nextSelected (erdTable : ℕ) (shapes : List TablePointer) : Option (Option ℕ) :=
  if shapes.length = 1 then some none
  else
    (shapes[shapes.length - 1]?).bind fun tableToRemove =>
      if tableToRemove.address = erdTable then (shapes[shapes.length - 2]?).map fun shape => some shape.address
      else (nextFrom erdTable false shapes).map fun shape => some shape.address

namespace SelectionCanvas

variable (s : SelectionCanvas)

/-- `Select( true )`, undefined for a shape that was deleted. -/
def selectReal : Option SelectionCanvas :=
  match s.realSelectedShape with
  | some shape => if shape ∈ s.removed then none else some s
  | none => some s

/-- `tables` and `tableVec` are copies of what the database's model holds, and `at` throws where it has nothing. -/
def onDropTable (event : DropEvent) (erdTable : TablePointer) (answer deleted : Bool) : Option SelectionCanvas :=
  if Bookkeeping.goesThrough event answer deleted then
    (if s.realSelectedShape = s.selectedShape then nextSelected erdTable.address s.shapes
      else some s.realSelectedShape).bind fun real =>
      let tables := s.databaseTables
      (tables.lookup s.dbName).bind fun _tableVec =>
        selectReal { s with
          toBookkeeping := s.toBookkeeping.dropTable event erdTable answer deleted
          realSelectedShape := real }
  else some s

/-- What the diagram and the model owe to a table that was dropped or closed. -/
structure KeptInStep (event : DropEvent) (erdTable : TablePointer) (t : SelectionCanvas) : Prop where
  tables : event = .dropObject → t.databaseTables.under s.dbName =
    (s.databaseTables.under s.dbName).filter (· ≠ s.tableAt erdTable.address)
  names : event = .tableDropTable → t.tableNames = s.tableNames.filter (· ≠ erdTable.tableName)
  shapes : t.shapes = s.shapes.filter (·.address ≠ erdTable.address)
  selection : s.realSelectedShape = some erdTable.address →
    if s.shapes.length = 1 then t.realSelectedShape = none
    else ∃ shape ∈ t.shapes, t.realSelectedShape = some shape.address

/-- Every shape has its address, and what is selected is one of them. -/
structure Drawn : Prop where
  apart : (s.shapes.map TablePointer.address).Nodup
  alive : ∀ shape ∈ s.shapes, shape.address ∉ s.removed
  real : ∀ address, s.realSelectedShape = some address → ∃ shape ∈ s.shapes, shape.address = address

end SelectionCanvas

theorem nextFrom_eq_none (erdTable : ℕ) (found : Bool) (shapes : List TablePointer) :
    nextFrom erdTable found shapes = none := by
  induction shapes generalizing found with
  | nil => rfl
  | cons shape rest ih =>
    rw [nextFrom]
    split_ifs with h
    · exact ih _
    · obtain ⟨hrest, -⟩ := not_or.mp h
      rw [not_ne_iff.mp hrest]
      rfl

/-- Only at the last place, or alone, does a shape leave a selection behind. -/
theorem nextSelected_concat (shapes : List TablePointer) (shape : TablePointer) (erdTable : ℕ) :
    nextSelected erdTable (shapes ++ [shape]) =
      if shapes = [] then some none
      else if shape.address = erdTable then shapes.getLast?.map fun shape => some shape.address
      else none := by
  rw [nextSelected, List.length_append, List.length_singleton, Nat.add_sub_cancel, List.getElem?_concat_length,
    Option.bind_some, nextFrom_eq_none, Option.map_none]
  cases shapes using List.reverseRecOn with
  | nil => rfl
  | append_singleton shapes last =>
    have hlast : (shapes ++ [last] ++ [shape])[(shapes ++ [last]).length + 1 - 2]? = (shapes ++ [last]).getLast? := by
      rw [List.length_append, List.length_singleton, List.append_assoc]
      simp
    have hmany : ¬ (shapes ++ [last]).length + 1 = 1 := by simp
    have hsome : ¬ shapes ++ [last] = [] := by simp
    rw [if_neg hmany, if_neg hsome, hlast]

namespace SelectionCanvas

variable {s : SelectionCanvas} {event : DropEvent} {erdTable : TablePointer} {answer deleted : Bool}

theorem dropTable_shapes (hgo : Bookkeeping.goesThrough event answer deleted = true) (b : Bookkeeping) :
    (b.dropTable event erdTable answer deleted).shapes = b.shapes.filter (·.address ≠ erdTable.address) ∧
      (b.dropTable event erdTable answer deleted).removed = erdTable.address :: b.removed := by
  rw [Bookkeeping.dropTable.eq_def, if_pos hgo]
  cases event <;> exact ⟨rfl, rfl⟩

theorem dropTable_tableNames (hgo : Bookkeeping.goesThrough event answer deleted = true)
    (hevent : event = .tableDropTable) (b : Bookkeeping) :
    (b.dropTable event erdTable answer deleted).tableNames = b.tableNames.filter (· ≠ erdTable.tableName) := by
  rw [Bookkeeping.dropTable.eq_def, if_pos hgo, hevent]

/-- Where the step is defined, the selection is what it becomes and everything else follows. -/
theorem onDropTable_eq_some (hgo : Bookkeeping.goesThrough event answer deleted = true) {t : SelectionCanvas} :
    s.onDropTable event erdTable answer deleted = some t ↔
      (s.databaseTables.lookup s.dbName).isSome ∧ ∃ real,
        (if s.realSelectedShape = s.selectedShape then nextSelected erdTable.address s.shapes
          else some s.realSelectedShape) = some real ∧
        (∀ address, real = some address → address ≠ erdTable.address ∧ address ∉ s.removed) ∧
        { s with
          toBookkeeping := s.toBookkeeping.dropTable event erdTable answer deleted
          realSelectedShape := real } = t := by
  rw [onDropTable, if_pos hgo, Option.bind_eq_some_iff]
  dsimp only
  have hselect (real : Option ℕ) :
      selectReal { s with
        toBookkeeping := s.toBookkeeping.dropTable event erdTable answer deleted
        realSelectedShape := real } = some t ↔
      (∀ address, real = some address → address ≠ erdTable.address ∧ address ∉ s.removed) ∧
        { s with
          toBookkeeping := s.toBookkeeping.dropTable event erdTable answer deleted
          realSelectedShape := real } = t := by
    cases real with
    | none => simp [selectReal]
    | some address => simp [selectReal, (dropTable_shapes hgo s.toBookkeeping).2]
  constructor
  · rintro ⟨real, hreal, h⟩
    obtain ⟨tableVec, htables, h⟩ := Option.bind_eq_some_iff.mp h
    exact ⟨by rw [htables]; rfl, real, hreal, (hselect real).mp h⟩
  · rintro ⟨htables, real, hreal, h⟩
    obtain ⟨tableVec, htables⟩ := Option.isSome_iff_exists.mp htables
    exact ⟨real, hreal, by rw [htables]; exact (hselect real).mpr h⟩

/-- Where the next selection can be found: the shape is alone or the last one, and if it is the one really selected,
it is also the one under the cursor. -/
def Selectable (s : SelectionCanvas) (erdTable : TablePointer) : Prop :=
  if s.realSelectedShape = s.selectedShape then
    s.shapes.length = 1 ∨ s.shapes.getLast?.map TablePointer.address = some erdTable.address
  else s.realSelectedShape ≠ some erdTable.address

/-- A close, or a drop of a table that the model does not hold, with a model of the current database. -/
def Releasable (s : SelectionCanvas) (event : DropEvent) (erdTable : TablePointer) : Prop :=
  (s.databaseTables.lookup s.dbName).isSome ∧
    (event = .dropObject → s.tableAt erdTable.address ∉ s.databaseTables.under s.dbName)

theorem exists_selection_iff (hdrawn : s.Drawn) (herd : erdTable ∈ s.shapes) :
    (∃ real, (if s.realSelectedShape = s.selectedShape then nextSelected erdTable.address s.shapes
        else some s.realSelectedShape) = some real ∧
      (∀ address, real = some address → address ≠ erdTable.address ∧ address ∉ s.removed) ∧
      (s.realSelectedShape = some erdTable.address → if s.shapes.length = 1 then real = none
        else ∃ shape ∈ s.shapes.filter (·.address ≠ erdTable.address), real = some shape.address)) ↔
      s.Selectable erdTable := by
  have halive : ∀ address, s.realSelectedShape = some address → address ∉ s.removed := by
    intro address haddress
    obtain ⟨shape, hshape, rfl⟩ := hdrawn.real address haddress
    exact hdrawn.alive shape hshape
  by_cases hreal : s.realSelectedShape = s.selectedShape
  · obtain ⟨shapes, last, hshapes⟩ : ∃ shapes last, s.shapes = shapes ++ [last] :=
      ⟨_, _, (List.dropLast_append_getLast (List.ne_nil_of_mem herd)).symm⟩
    rw [Selectable, if_pos hreal, if_pos hreal, hshapes, nextSelected_concat]
    rcases List.eq_nil_or_concat shapes with rfl | ⟨shapes, previous, rfl⟩
    · refine iff_of_true ⟨none, rfl, by simp, fun _ => by simp⟩ (.inl rfl)
    · rw [List.concat_eq_append] at hshapes ⊢
      have hmany : ¬ (shapes ++ [previous] ++ [last]).length = 1 := by simp
      rw [if_neg (by simp), or_iff_right hmany]
      simp only [if_neg hmany, List.getLast?_concat, Option.map_some, Option.some.injEq]
      constructor
      · rintro ⟨real, hnext, -⟩
        by_contra hne
        rw [if_neg hne] at hnext
        cases hnext
      · intro hlast
        have hnodup := hdrawn.apart
        rw [hshapes, List.map_append, List.map_append] at hnodup
        have hprevious : previous.address ≠ erdTable.address := by
          have hne := (List.nodup_append.mp hnodup).2.2 previous.address (by simp) last.address (by simp)
          rwa [hlast] at hne
        have hmem : previous ∈ s.shapes := by simp [hshapes]
        refine ⟨some previous.address, by rw [if_pos hlast], ?_, fun _ => ?_⟩
        · intro address haddress
          rw [← Option.some.inj haddress]
          exact ⟨hprevious, hdrawn.alive previous hmem⟩
        · refine ⟨previous, List.mem_filter.mpr ⟨by simp, by simpa using hprevious⟩, rfl⟩
  · rw [Selectable, if_neg hreal, if_neg hreal]
    constructor
    · rintro ⟨real, hsame, hother, -⟩ herased
      rw [← Option.some.inj hsame] at hother
      exact (hother _ herased).1 rfl
    · intro hother
      refine ⟨_, rfl, fun address haddress => ⟨?_, halive address haddress⟩, fun herased => absurd herased hother⟩
      rintro rfl
      exact hother haddress

/-- After the database has dropped a table, or to close one, the canvas keeps step exactly if the shape leaves a
selection behind and the model has nothing to lose. -/
theorem onDropTable_keptInStep_iff (s : SelectionCanvas) (hdrawn : s.Drawn) (event : DropEvent) {erdTable : TablePointer}
    (herd : erdTable ∈ s.shapes) :
    (∃ t, s.onDropTable event erdTable true true = some t ∧ s.KeptInStep event erdTable t) ↔
      s.Releasable event erdTable ∧ s.Selectable erdTable := by
  have hgo : Bookkeeping.goesThrough event true true = true := by cases event <;> rfl
  rw [← exists_selection_iff hdrawn herd]
  constructor
  · rintro ⟨t, ht, hkept⟩
    obtain ⟨htables, real, hreal, hother, rfl⟩ := (onDropTable_eq_some hgo).mp ht
    refine ⟨⟨htables, fun hevent hmem => ?_⟩, real, hreal, hother, fun herased => ?_⟩
    · have hsame := hkept.tables hevent
      change s.databaseTables.under s.dbName = _ at hsame
      rw [hsame] at hmem
      simpa using (List.mem_filter.mp hmem).2
    · have hselection := hkept.selection herased
      rw [hkept.shapes] at hselection
      exact hselection
  · rintro ⟨⟨htables, hvector⟩, real, hreal, hother, hselection⟩
    refine ⟨_, (onDropTable_eq_some hgo).mpr ⟨htables, real, hreal, hother, rfl⟩, ?_, ?_, ?_, ?_⟩
    · intro hevent
      change s.databaseTables.under s.dbName = _
      refine (List.filter_eq_self.mpr fun table htable => ?_).symm
      simp only [decide_eq_true_eq]
      rintro rfl
      exact hvector hevent htable
    · intro hevent
      exact dropTable_tableNames hgo hevent s.toBookkeeping
    · exact (dropTable_shapes hgo s.toBookkeeping).1
    · intro herased
      change if s.shapes.length = 1 then real = none else ∃ shape ∈ (Bookkeeping.dropTable ..).shapes, _
      rw [(dropTable_shapes hgo s.toBookkeeping).1]
      exact hselection herased

/-- Both tables shown, the second one selected. -/
def bothShown : SelectionCanvas where
  shapes := [⟨0, customers⟩, ⟨1, orders⟩]
  tableNames := ["customers".toList, "orders".toList]
  next := 2
  selectedShape := some 1
  realSelectedShape := some 1
  tableAt := id
  databaseTables := .ofEntries [("db".toList, [0, 1])]
  dbName := "db".toList

theorem bothShown_drawn : bothShown.Drawn where
  apart := by decide
  alive := by simp [bothShown]
  real := by
    intro address h
    obtain rfl := Option.some.inj h
    exact ⟨⟨1, orders⟩, by simp [bothShown], rfl⟩

theorem onDropTable_keptInStep_close :
    (∃ t, bothShown.onDropTable .tableDropTable ⟨1, orders⟩ true true = some t ∧
      bothShown.KeptInStep .tableDropTable ⟨1, orders⟩ t) ↔
      bothShown.Releasable .tableDropTable ⟨1, orders⟩ ∧ bothShown.Selectable ⟨1, orders⟩ :=
  onDropTable_keptInStep_iff bothShown bothShown_drawn .tableDropTable (by simp [bothShown])

theorem not_keptInStep_drop :
    ¬ ∃ t, bothShown.onDropTable .dropObject ⟨1, orders⟩ true true = some t ∧
      bothShown.KeptInStep .dropObject ⟨1, orders⟩ t := by
  rintro ⟨t, ht, hkept⟩
  obtain ⟨-, real, -, -, rfl⟩ := (onDropTable_eq_some rfl).mp ht
  have hsame : bothShown.databaseTables.under bothShown.dbName =
      (bothShown.databaseTables.under bothShown.dbName).filter (· ≠ 1) := hkept.tables rfl
  exact absurd hsame (by decide)

end SelectionCanvas

end DbHandler.Diagram
