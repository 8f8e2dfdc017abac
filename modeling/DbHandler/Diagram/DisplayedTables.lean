import DbHandler.Diagram.Canvas

namespace DbHandler.Diagram

open Foundation

/-- A `MyErdTable *`: the address is never given to a second shape. -/
structure TablePointer where
  address : ℕ
  table : DatabaseTable

def TablePointer.tableName (p : TablePointer) : Text := p.table.tableName

/-- `m_tables` and `m_tableNames` of the document, `m_displayedTables` of the canvas, the shapes of the
diagram manager, and the addresses of the shapes that `RemoveShape` has deleted. -/
structure Bookkeeping where
  tables : List TablePointer := []
  tableNames : List Text := []
  displayedTables : List TablePointer := []
  shapes : List TablePointer := []
  removed : List ℕ := []
  next : ℕ := 0

inductive DropEvent
  | dropObject
  | tableDropTable
  deriving DecidableEq, Repr

inductive TableStep
  | addTables (database : List DatabaseTable) (selections : List Text)
  | closeTable (shape : TablePointer)
  | dropTable (event : DropEvent) (shape : TablePointer) (answer deleted : Bool)

def selected (database : List DatabaseTable) (selection : Text) : Option DatabaseTable :=
  database.find? fun t => selection = t.schemaName ++ '.' :: t.tableName

def selectedTables (database : List DatabaseTable) (selections : List Text) : List DatabaseTable :=
  selections.filterMap (selected database)

namespace Bookkeeping

def pushTable (t : DatabaseTable) (s : Bookkeeping) : Bookkeeping :=
  { s with tables := s.tables ++ [⟨s.next, t⟩], tableNames := s.tableNames ++ [t.tableName], next := s.next + 1 }

def addTables (database : List DatabaseTable) : List Text → Bookkeeping → Bookkeeping
  | [], s => s
  | selection :: rest, s =>
    match selected database selection with
    | some t => addTables database rest (s.pushTable t)
    | none => addTables database rest s

def isTableDisplayed (name : Text) (s : Bookkeeping) : Bool := s.shapes.any (·.tableName = name)

def addShape (p : TablePointer) (s : Bookkeeping) : Bookkeeping :=
  { s with shapes := s.shapes ++ [p], displayedTables := s.displayedTables ++ [p] }

/-- The loop over a copy of `m_tables`; the name of a deleted shape cannot be read. -/
def displayEach : List TablePointer → Bookkeeping → Option Bookkeeping
  | [], s => some s
  | p :: ps, s =>
    if p.address ∈ s.removed then none
    else displayEach ps (if s.isTableDisplayed p.tableName then s else s.addShape p)

def displayTables (s : Bookkeeping) : Option Bookkeeping :=
  match displayEach s.tables s with
  | some t => if t.displayedTables.any (·.address ∈ t.removed) then none else some t
  | none => none

def removeShape (p : TablePointer) (s : Bookkeeping) : Bookkeeping :=
  { s with shapes := s.shapes.filter (·.address ≠ p.address), removed := p.address :: s.removed }

def closeTable (p : TablePointer) (s : Bookkeeping) : Bookkeeping :=
  if s.displayedTables.length = 1 then { s.removeShape p with displayedTables := [] } else s.removeShape p

/-- Whether `OnDropTable` reaches `RemoveShape`: only `wxID_DROPOBJECT` asks, and drops the table in the
database. -/
def goesThrough : DropEvent → Bool → Bool → Bool
  | .dropObject, answer, deleted => answer && deleted
  | .tableDropTable, _, _ => true

/-- For `wxID_DROPOBJECT` the table is erased from `tableVec`, which is a copy of the database's list. -/
def dropTable (event : DropEvent) (p : TablePointer) (answer deleted : Bool) (s : Bookkeeping) : Bookkeeping :=
  if goesThrough event answer deleted then
    match event with
    | .dropObject => s.removeShape p
    | .tableDropTable =>
      { s.removeShape p with tableNames := s.tableNames.filter (· ≠ p.tableName) }
  else s

def apply : TableStep → Bookkeeping → Option Bookkeeping
  | .addTables database selections, s => (s.addTables database selections).displayTables
  | .closeTable p, s => some (s.closeTable p)
  | .dropTable event p answer deleted, s => some (s.dropTable event p answer deleted)

/-- A table is closed or dropped by its shape on the canvas. -/
def Enabled (s : Bookkeeping) : TableStep → Prop
  | .addTables _ _ => True
  | .closeTable p => p ∈ s.shapes
  | .dropTable _ p _ _ => p ∈ s.shapes

def EnabledRun : Bookkeeping → List TableStep → Prop
  | _, [] => True
  | s, step :: rest => s.Enabled step ∧ ∀ t, s.apply step = some t → EnabledRun t rest

/-- The four collections hold the same tables, each once, and no shape of theirs was deleted. -/
structure Consistent (s : Bookkeeping) : Prop where
  nodup : s.tableNames.Nodup
  names : (s.tables.map (·.tableName)).Perm s.tableNames
  displayed : s.displayedTables.Perm s.tables
  shapes : s.shapes.Perm s.tables
  alive : ∀ p ∈ s.tables, p.address ∉ s.removed

def StaysConsistent : Bookkeeping → List TableStep → Prop
  | _, [] => True
  | s, step :: rest => ∃ t, s.apply step = some t ∧ t.Consistent ∧ StaysConsistent t rest

end Bookkeeping

namespace TableStep

def removes : TableStep → Bool
  | .addTables _ _ => false
  | .closeTable _ => true
  | .dropTable event _ answer deleted => Bookkeeping.goesThrough event answer deleted

def selectedNames : TableStep → List Text
  | .addTables database selections => (selectedTables database selections).map (·.tableName)
  | .closeTable _ => []
  | .dropTable _ _ _ _ => []

end TableStep

def shapesFrom : ℕ → List DatabaseTable → List TablePointer
  | _, [] => []
  | address, t :: ts => ⟨address, t⟩ :: shapesFrom (address + 1) ts

theorem map_shapesFrom (ts : List DatabaseTable) (address : ℕ) :
    (shapesFrom address ts).map (·.tableName) = ts.map (·.tableName) := by
  induction ts generalizing address with
  | nil => rfl
  | cons t ts ih =>
    rw [shapesFrom, List.map_cons, List.map_cons, ih]
    rfl

namespace Bookkeeping

theorem addTables_eq (database : List DatabaseTable) (selections : List Text) (s : Bookkeeping) :
    s.addTables database selections =
      { s with
        tables := s.tables ++ shapesFrom s.next (selectedTables database selections)
        tableNames := s.tableNames ++ (selectedTables database selections).map (·.tableName)
        next := s.next + (selectedTables database selections).length } := by
  induction selections generalizing s with
  | nil => simp [addTables, selectedTables, shapesFrom]
  | cons selection rest ih =>
    cases h : selected database selection with
    | none =>
      have hskip : selectedTables database (selection :: rest) = selectedTables database rest :=
        List.filterMap_cons_none h
      rw [addTables, h, hskip]
      exact ih s
    | some t =>
      have htake : selectedTables database (selection :: rest) = t :: selectedTables database rest :=
        List.filterMap_cons_some h
      rw [addTables, h, htake]
      simp [ih, pushTable, shapesFrom, Nat.add_assoc, Nat.add_comm 1]

/-- Where no shape was deleted, the loop shows the tables whose names it has not met. -/
theorem displayEach_new (ps : List TablePointer) (s : Bookkeeping) (hremoved : s.removed = [])
    (hnew : ((s.shapes ++ ps).map (·.tableName)).Nodup) :
    displayEach ps s =
      some { s with shapes := s.shapes ++ ps, displayedTables := s.displayedTables ++ ps } := by
  induction ps generalizing s with
  | nil => simp [displayEach]
  | cons p ps ih =>
    have hp : s.isTableDisplayed p.tableName = false := by
      simp only [isTableDisplayed, List.any_eq_false, decide_eq_true_eq]
      intro q hq heq
      simp only [List.map_append, List.map_cons, List.nodup_append] at hnew
      exact hnew.2.2 _ (List.mem_map_of_mem hq) _ List.mem_cons_self heq
    have hrest : (((s.addShape p).shapes ++ ps).map (·.tableName)).Nodup := by
      simpa [addShape] using hnew
    rw [displayEach, if_neg (by simp [hremoved]), hp, if_neg Bool.false_ne_true, ih (s.addShape p) hremoved hrest]
    simp [addShape]

theorem displayEach_old (ps qs : List TablePointer) (s : Bookkeeping) (hremoved : s.removed = [])
    (hold : ∀ p ∈ ps, p ∈ s.shapes) : displayEach (ps ++ qs) s = displayEach qs s := by
  induction ps with
  | nil => rfl
  | cons p ps ih =>
    have hp : s.isTableDisplayed p.tableName = true := by
      apply List.any_eq_true.mpr
      exact ⟨p, hold p List.mem_cons_self, decide_eq_true rfl⟩
    rw [List.cons_append, displayEach, if_neg (by simp [hremoved]), hp, if_pos rfl]
    exact ih fun q hq => hold q (List.mem_cons_of_mem _ hq)

/-- What holds as long as nothing was removed. -/
structure Standing (s : Bookkeeping) : Prop where
  nodup : s.tableNames.Nodup
  names : s.tables.map (·.tableName) = s.tableNames
  displayed : s.displayedTables = s.tables
  shapes : s.shapes = s.tables
  removed : s.removed = []

theorem standing_empty : ({} : Bookkeeping).Standing := ⟨List.nodup_nil, rfl, rfl, rfl, rfl⟩

theorem Standing.consistent {s : Bookkeeping} (h : s.Standing) : s.Consistent := by
  refine ⟨h.nodup, ?_, ?_, ?_, ?_⟩
  · rw [h.names]
  · rw [h.displayed]
  · rw [h.shapes]
  · intro p _
    rw [h.removed]
    exact List.not_mem_nil

theorem displayEach_tables {ps : List TablePointer} {s t : Bookkeeping} (h : displayEach ps s = some t) :
    t.tables = s.tables ∧ t.tableNames = s.tableNames ∧ t.removed = s.removed := by
  induction ps generalizing s with
  | nil =>
    cases h
    exact ⟨rfl, rfl, rfl⟩
  | cons p ps ih =>
    rw [displayEach] at h
    split at h
    · cases h
    · split at h
      · exact ih h
      · exact ih (s := s.addShape p) h

theorem displayTables_tableNames {s t : Bookkeeping} (h : s.displayTables = some t) :
    t.tableNames = s.tableNames := by
  rw [displayTables] at h
  split at h
  · rename_i u hu
    split at h
    · cases h
    · cases h
      exact (displayEach_tables hu).2.1
  · cases h

theorem Standing.displayEach_addTables {s : Bookkeeping} (h : s.Standing) (database : List DatabaseTable)
    (selections : List Text)
    (hnames : (s.tableNames ++ (selectedTables database selections).map (·.tableName)).Nodup) :
    ∃ t, displayEach (s.addTables database selections).tables (s.addTables database selections) = some t ∧
      t.Standing ∧ t.tableNames = s.tableNames ++ (selectedTables database selections).map (·.tableName) := by
  have hnew : ((s.shapes ++ shapesFrom s.next (selectedTables database selections)).map (·.tableName)).Nodup := by
    rw [List.map_append, map_shapesFrom, h.shapes, h.names]
    exact hnames
  rw [addTables_eq]
  have hold := displayEach_old s.tables (shapesFrom s.next (selectedTables database selections))
    (s.addTables database selections) (by rw [addTables_eq]; exact h.removed)
    (by rw [addTables_eq]; exact fun p hp => h.shapes ▸ hp)
  rw [addTables_eq] at hold
  refine ⟨_, hold.trans (displayEach_new _ _ h.removed hnew), ?_, rfl⟩
  refine ⟨hnames, ?_, ?_, ?_, h.removed⟩
  · rw [List.map_append, map_shapesFrom, h.names]
  · rw [h.displayed]
  · rw [h.shapes]

theorem Standing.addTables {s : Bookkeeping} (h : s.Standing) (database : List DatabaseTable)
    (selections : List Text)
    (hnames : (s.tableNames ++ (selectedTables database selections).map (·.tableName)).Nodup) :
    ∃ t, (s.addTables database selections).displayTables = some t ∧ t.Standing ∧
      t.tableNames = s.tableNames ++ (selectedTables database selections).map (·.tableName) := by
  obtain ⟨t, hall, ht, hname⟩ := h.displayEach_addTables database selections hnames
  refine ⟨t, ?_, ht, hname⟩
  rw [displayTables, hall]
  simp only [ht.removed]
  rw [if_neg (by simp)]

theorem removed_inconsistent {s t : Bookkeeping} (h : s.Standing) {p : TablePointer} (hp : p ∈ s.shapes)
    (htables : t.tables = s.tables) (hremoved : p.address ∈ t.removed) : ¬ t.Consistent := by
  intro hc
  exact hc.alive p (htables ▸ h.shapes ▸ hp) hremoved

theorem closeTable_inconsistent {s : Bookkeeping} (h : s.Standing) {p : TablePointer} (hp : p ∈ s.shapes) :
    ¬ (s.closeTable p).Consistent := by
  apply removed_inconsistent h hp
  · unfold closeTable
    split <;> rfl
  · unfold closeTable
    split <;> exact List.mem_cons_self

theorem dropTable_inconsistent {s : Bookkeeping} (h : s.Standing) {p : TablePointer} (hp : p ∈ s.shapes)
    {event : DropEvent} {answer deleted : Bool} (hgo : goesThrough event answer deleted = true) :
    ¬ (s.dropTable event p answer deleted).Consistent := by
  apply removed_inconsistent h hp
  · unfold dropTable
    rw [if_pos hgo]
    cases event <;> rfl
  · unfold dropTable
    rw [if_pos hgo]
    cases event <;> exact List.mem_cons_self

/-- One step from a state in which nothing was removed: what it may do without a loss. -/
theorem Standing.step_iff {s : Bookkeeping} (h : s.Standing) {step : TableStep} (henabled : s.Enabled step) :
    (∃ t, s.apply step = some t ∧ t.Consistent) ↔
      step.removes = false ∧ (s.tableNames ++ step.selectedNames).Nodup := by
  constructor
  · rintro ⟨t, hstep, hc⟩
    cases step with
    | addTables database selections =>
      refine ⟨rfl, ?_⟩
      have hname := displayTables_tableNames hstep
      rw [addTables_eq] at hname
      have hnodup := hc.nodup
      rw [hname] at hnodup
      exact hnodup
    | closeTable p =>
      cases hstep
      exact absurd hc (closeTable_inconsistent h henabled)
    | dropTable event p answer deleted =>
      cases hstep
      refine ⟨?_, by simpa [TableStep.selectedNames] using h.nodup⟩
      cases hgo : goesThrough event answer deleted with
      | false => exact hgo
      | true => exact absurd hc (dropTable_inconsistent h henabled hgo)
  · rintro ⟨hkept, hnames⟩
    cases step with
    | addTables database selections =>
      obtain ⟨t, hstep, ht, -⟩ := h.addTables database selections hnames
      exact ⟨t, hstep, ht.consistent⟩
    | closeTable p => cases hkept
    | dropTable event p answer deleted =>
      refine ⟨s, ?_, h.consistent⟩
      exact congrArg some (if_neg (Bool.eq_false_iff.mp hkept))

theorem Standing.step {s t : Bookkeeping} (h : s.Standing) {step : TableStep} (hstep : s.apply step = some t)
    (hkept : step.removes = false) (hnames : (s.tableNames ++ step.selectedNames).Nodup) :
    t.Standing ∧ t.tableNames = s.tableNames ++ step.selectedNames := by
  cases step with
  | addTables database selections =>
    obtain ⟨u, hu, hstanding, hname⟩ := h.addTables database selections hnames
    cases hu.symm.trans hstep
    exact ⟨hstanding, hname⟩
  | closeTable p => cases hkept
  | dropTable event p answer deleted =>
    have hsame : s.dropTable event p answer deleted = s := if_neg (Bool.eq_false_iff.mp hkept)
    cases hstep
    rw [hsame]
    exact ⟨h, (List.append_nil _).symm⟩

theorem Standing.run_iff {s : Bookkeeping} (h : s.Standing) {steps : List TableStep} (hrun : s.EnabledRun steps) :
    s.StaysConsistent steps ↔
      (∀ step ∈ steps, step.removes = false) ∧ (s.tableNames ++ steps.flatMap (·.selectedNames)).Nodup := by
  induction steps generalizing s with
  | nil => simp [StaysConsistent, h.nodup]
  | cons step rest ih =>
    obtain ⟨henabled, hrest⟩ := hrun
    constructor
    · rintro ⟨t, hstep, hc, hruns⟩
      obtain ⟨hkept, hnames⟩ := (h.step_iff henabled).mp ⟨t, hstep, hc⟩
      obtain ⟨ht, hname⟩ := h.step hstep hkept hnames
      obtain ⟨hall, hnodup⟩ := (ih ht (hrest t hstep)).mp hruns
      refine ⟨List.forall_mem_cons.mpr ⟨hkept, hall⟩, ?_⟩
      rw [hname, List.append_assoc] at hnodup
      exact hnodup
    · rintro ⟨hall, hnodup⟩
      obtain ⟨hkept, hall⟩ := List.forall_mem_cons.mp hall
      rw [List.flatMap_cons, ← List.append_assoc] at hnodup
      have hnames := (List.nodup_append.mp hnodup).1
      obtain ⟨t, hstep, hc⟩ := (h.step_iff henabled).mpr ⟨hkept, hnames⟩
      obtain ⟨ht, hname⟩ := h.step hstep hkept hnames
      refine ⟨t, hstep, hc, (ih ht (hrest t hstep)).mpr ⟨hall, ?_⟩⟩
      rw [hname]
      exact hnodup

/-- After a table was closed its pointer is still in `m_tables`, and the next `DisplayTables` reads it. -/
theorem displayTables_closeTable {s : Bookkeeping} {p : TablePointer} (hp : p ∈ s.tables)
    (database : List DatabaseTable) (selections : List Text) :
    ((s.closeTable p).addTables database selections).displayTables = none := by
  have hloop : ∀ (ps : List TablePointer) (u : Bookkeeping), p ∈ ps → p.address ∈ u.removed →
      displayEach ps u = none := by
    intro ps
    induction ps with
    | nil =>
      intro u hmem
      cases hmem
    | cons q qs ih =>
      intro u hmem hremoved
      rw [displayEach]
      by_cases hq : q.address ∈ u.removed
      · exact if_pos hq
      · rw [if_neg hq]
        obtain rfl | hmem := List.mem_cons.mp hmem
        · exact absurd hremoved hq
        · split
          · exact ih u hmem hremoved
          · exact ih _ hmem hremoved
  have hremoved : p.address ∈ (s.closeTable p).removed := by
    unfold closeTable
    split <;> exact List.mem_cons_self
  have htables : (s.closeTable p).tables = s.tables := by
    unfold closeTable
    split <;> rfl
  rw [displayTables, hloop]
  · rw [addTables_eq]
    exact List.mem_append_left _ (htables ▸ hp)
  · rw [addTables_eq]
    exact hremoved

/-- `m_tables` and `m_tableNames` only grow: the collections agree as long as every selection brings tables
of new names and nothing is closed or dropped. -/
theorem displayedTables_consistent_iff (steps : List TableStep) (hrun : ({} : Bookkeeping).EnabledRun steps) :
    ({} : Bookkeeping).StaysConsistent steps ↔
      (∀ step ∈ steps, step.removes = false) ∧ (steps.flatMap (·.selectedNames)).Nodup :=
  standing_empty.run_iff hrun

def customers : DatabaseTable := { schemaName := ['s'], tableName := "customers".toList, foreignKeys := .empty }

def orders : DatabaseTable := { schemaName := ['s'], tableName := "orders".toList, foreignKeys := .empty }

def selectBoth : TableStep := .addTables [customers, orders] ["s.customers".toList, "s.orders".toList]

theorem displayedTables_consistent_two :
    ({} : Bookkeeping).StaysConsistent
      [.addTables [customers, orders] ["s.orders".toList], .addTables [customers, orders] ["s.customers".toList]] := by
  apply (displayedTables_consistent_iff _ ?_).mpr
  · refine ⟨?_, by decide⟩
    simp [TableStep.removes]
  · exact ⟨trivial, fun _ _ => ⟨trivial, fun _ _ => trivial⟩⟩

/-- Two tables are shown and the first is closed. -/
theorem closed_table_kept :
    ({} : Bookkeeping).EnabledRun [selectBoth, .closeTable ⟨0, customers⟩] ∧
      ¬ ({} : Bookkeeping).StaysConsistent [selectBoth, .closeTable ⟨0, customers⟩] := by
  have hrun : ({} : Bookkeeping).EnabledRun [selectBoth, .closeTable ⟨0, customers⟩] := by
    refine ⟨trivial, fun t ht => ⟨?_, fun _ _ => trivial⟩⟩
    cases ht
    exact List.mem_cons_self
  refine ⟨hrun, fun h => ?_⟩
  obtain ⟨hkept, -⟩ := (standing_empty.run_iff hrun).mp h
  exact absurd (hkept (.closeTable ⟨0, customers⟩) (by simp)) (by decide)

end Bookkeeping

end DbHandler.Diagram
