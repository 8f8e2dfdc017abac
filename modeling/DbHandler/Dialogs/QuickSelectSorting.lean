import DbHandler.Dialogs.QuickSelect
import DbHandler.QueryBuilder.DrawingDocument

namespace DbHandler.Dialogs

open QueryBuilder (FieldSorter)

/-- What `OnOkButton` leaves in `m_queryFields`, `m_all` and `m_query`. -/
structure QuickQuery where
  queryFields : List Text
  all : List FieldSorter
  query : List FieldSorter
  deriving DecidableEq, Repr

def GridColumn.isAscending (c : GridColumn) : Option Bool :=
  if c.sort = "Ascending".toList then some true else if c.sort = "Descending".toList then some false else none

/-- The loop over the columns of the grid; `pos` counts the fields that are found, sorted or not. -/
def collectColumns (fieldNames : List Text) : ℤ → List GridColumn → QuickQuery
  | _, [] => ⟨[], [], []⟩
  | pos, c :: rest =>
    if c.field ∈ fieldNames then
      let found := collectColumns fieldNames (pos + 1) rest
      ⟨c.field :: found.queryFields, ⟨c.field, true, pos⟩ :: found.all,
        match c.isAscending with
        | some isAscending => ⟨c.field, isAscending, pos⟩ :: found.query
        | none => found.query⟩
    else collectColumns fieldNames pos rest

/-- `tables` are those of the catalog of the connection, `selection` the string that is selected in the list. -/
def onOkButton (tables : List QuickTable) (selection : Text) (grid : List GridColumn) : Option QuickQuery :=
  (tables.find? (·.label = selection)).map fun table => collectColumns table.fieldNames 0 grid

/-- `InsertItem`; there is no row behind the one after the last. -/
def insertItem {α : Type} (rows : List α) (row : ℤ) (data : α) : Option (List α) :=
  if 0 ≤ row ∧ row ≤ rows.length then some (rows.insertIdx row.toNat data) else none

/-- The rows of `m_sortSource` and `m_sortDest`. -/
structure SortPage where
  source : List Text
  dest : List (Text × Bool)
  deriving DecidableEq, Repr

def addQuickSelectSortingFields (allSorted querySorted : List FieldSorter) (page : SortPage) : Option SortPage :=
  (allSorted.foldlM (fun rows f => insertItem rows f.originalPosition f.name) page.source).bind fun source =>
    (querySorted.foldlM (fun rows f => insertItem rows f.originalPosition (f.name, f.isAscending)) page.dest).map
      fun dest => ⟨source, dest⟩

/-- The columns with a direction are handed over to the list of the query, the others to the available ones. -/
def HandsOver (tables : List QuickTable) (selection : Text) (grid : List GridColumn) : Prop :=
  ∃ found page, onOkButton tables selection grid = some found ∧
    addQuickSelectSortingFields found.all found.query ⟨[], []⟩ = some page ∧
    found.queryFields = grid.map (·.field) ∧
    page.dest = grid.filterMap (fun c => c.isAscending.map fun isAscending => (c.field, isAscending)) ∧
    page.source = (grid.filter (·.isAscending = none)).map (·.field)

section Columns

variable {fieldNames : List Text} {grid : List GridColumn}

theorem insertItem_last {α : Type} (rows : List α) (data : α) : insertItem rows rows.length data = some (rows ++ [data]) := by
  rw [insertItem, if_pos (by omega), Int.toNat_natCast]
  simp

theorem collectColumns_queryFields (hgrid : ∀ c ∈ grid, c.field ∈ fieldNames) (pos : ℤ) :
    (collectColumns fieldNames pos grid).queryFields = grid.map (·.field) := by
  induction grid generalizing pos with
  | nil => rfl
  | cons c grid ih =>
    rw [List.forall_mem_cons] at hgrid
    rw [collectColumns, if_pos hgrid.1, List.map_cons]
    dsimp only
    rw [ih hgrid.2]

/-- Every column goes to the available ones, whether it has a direction or not. -/
theorem all_inserted (hgrid : ∀ c ∈ grid, c.field ∈ fieldNames) (rows : List Text) :
    (collectColumns fieldNames rows.length grid).all.foldlM (fun rows f => insertItem rows f.originalPosition f.name) rows =
      some (rows ++ grid.map (·.field)) := by
  induction grid generalizing rows with
  | nil => simp [collectColumns]
  | cons c grid ih =>
    rw [List.forall_mem_cons] at hgrid
    have hnext : ((rows.length : ℤ) + 1) = (rows ++ [c.field]).length := by simp
    have hrest := ih hgrid.2 (rows ++ [c.field])
    rw [collectColumns, if_pos hgrid.1, hnext]
    dsimp only
    rw [List.foldlM_cons, insertItem_last]
    change List.foldlM _ (rows ++ [c.field]) _ = _
    rw [hrest, List.append_assoc]
    rfl

theorem no_query (hgrid : ∀ c ∈ grid, c.isAscending = none) (pos : ℤ) : (collectColumns fieldNames pos grid).query = [] := by
  induction grid generalizing pos with
  | nil => rfl
  | cons c grid ih =>
    rw [List.forall_mem_cons] at hgrid
    rw [collectColumns]
    split
    · simp only [hgrid.1, ih hgrid.2]
    · exact ih hgrid.2 pos

end Columns

theorem handsOver_iff (tables : List QuickTable) (selection : Text) (table : QuickTable) (grid : List GridColumn)
    (htable : tables.find? (·.label = selection) = some table) (hgrid : ∀ c ∈ grid, c.field ∈ table.fieldNames) :
    HandsOver tables selection grid ↔ ∀ c ∈ grid, c.isAscending = none := by
  have hok : onOkButton tables selection grid = some (collectColumns table.fieldNames 0 grid) := by
    rw [onOkButton, htable]
    rfl
  have hall : (collectColumns table.fieldNames 0 grid).all.foldlM
      (fun rows f => insertItem rows f.originalPosition f.name) [] = some (grid.map (·.field)) := all_inserted hgrid []
  constructor
  · rintro ⟨found, page, hfound, hpage, -, -, hsource⟩
    obtain rfl := Option.some.inj (hok.symm.trans hfound)
    rw [addQuickSelectSortingFields, hall, Option.bind_some] at hpage
    obtain ⟨dest, -, rfl⟩ := Option.map_eq_some_iff.mp hpage
    have hlength := congrArg List.length hsource
    rw [List.length_map, List.length_map, eq_comm, List.length_filter_eq_length_iff] at hlength
    intro c hc
    exact of_decide_eq_true (hlength c hc)
  · intro hnone
    refine ⟨_, ⟨grid.map (·.field), []⟩, hok, ?_, collectColumns_queryFields hgrid 0, ?_, ?_⟩
    · rw [addQuickSelectSortingFields, hall, no_query hnone]
      rfl
    · rw [eq_comm, List.filterMap_eq_nil_iff]
      intro c hc
      rw [hnone c hc, Option.map_none]
    · rw [List.filter_eq_self.mpr fun c hc => decide_eq_true (hnone c hc)]

theorem unsorted_columns_handed_over :
    let table : QuickTable := ⟨[], "orders".toList, ["id".toList, "client".toList], by decide⟩
    HandsOver [table] table.label [⟨"id".toList, []⟩, ⟨"client".toList, []⟩] :=
  (handsOver_iff _ _ _ _ rfl (by decide)).mpr (by decide)

/-- A second column is sorted: it is also among the available ones, and the row for it lies behind the end. -/
theorem sorted_column_not_handed_over :
    let table : QuickTable := ⟨[], "orders".toList, ["id".toList, "client".toList], by decide⟩
    let grid : List GridColumn := [⟨"id".toList, []⟩, ⟨"client".toList, "Descending".toList⟩]
    ((onOkButton [table] table.label grid).bind fun found =>
        addQuickSelectSortingFields found.all found.query ⟨[], []⟩) = none ∧
      ¬ HandsOver [table] table.label grid := by
  intro table grid
  have hnone : ((onOkButton [table] table.label grid).bind fun found =>
      addQuickSelectSortingFields found.all found.query ⟨[], []⟩) = none := by decide
  refine ⟨hnone, ?_⟩
  rintro ⟨found, page, hfound, hpage, -⟩
  rw [hfound, Option.bind_some, hpage] at hnone
  cases hnone

end DbHandler.Dialogs
