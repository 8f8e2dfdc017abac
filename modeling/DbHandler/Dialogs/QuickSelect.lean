import DbHandler.Foundation.Neighbours
import DbHandler.Foundation.Runs
import DbHandler.Interface

namespace DbHandler.Dialogs

open Foundation

structure QuickTable where
  schemaName : Text
  tableName : Text
  fieldNames : List Text
  distinct : fieldNames.Nodup

/-- `GetTableVector`; `tables` runs through `m_tables`, one catalog after the other. -/
structure QuickDatabase where
  type : Text
  subType : Text
  tables : List QuickTable

/-- Rows 0 and 1 of a column of the grid. -/
structure GridColumn where
  field : Text := []
  sort : Text := []
  deriving DecidableEq, Repr

/-- The strings of `m_fields` stand with whether they are selected. -/
structure QuickSelect where
  tables : List Text
  fields : List (Text × Bool) := []
  queryFields : List Text := []
  grid : List GridColumn := []
  cols : ℤ := 0
  deriving DecidableEq, Repr

namespace QuickDatabase

def isServer (db : QuickDatabase) (name : String) : Bool :=
  (db.type = "ODBC".toList && db.subType = name.toList) || db.type = name.toList

def skips (db : QuickDatabase) (t : QuickTable) : Bool :=
  (db.type = "SQLite".toList && (t.tableName.take 6 = "sqlite".toList || t.tableName.take 3 = "sys".toList)) ||
    if db.isServer "Microsoft SQL Server" then
      t.tableName.take 5 = "abcat".toList || t.schemaName = "sys".toList || t.schemaName = "INFORMATION_SCHEMA".toList
    else if db.isServer "MySQL" then
      t.tableName.take 5 = "abcat".toList || t.schemaName = "information_schema".toList
    else if db.isServer "PostgreSQL" then
      t.tableName.take 5 = "abcat".toList || t.schemaName = "information_schema".toList ||
        t.schemaName = "pg_catalog".toList
    else false

end QuickDatabase

def QuickTable.label (t : QuickTable) : Text := t.schemaName ++ ".".toList ++ t.tableName

def fillTableListBox (db : QuickDatabase) : List Text := (db.tables.filter (!db.skips ·)).map QuickTable.label

inductive QuickEvent
  | selectingTable (item : ℕ)
  | fieldSelected (item : ℕ)
  | fieldsSetFocus (item : ℕ)
  | allFieldsSelected
  deriving DecidableEq, Repr

namespace QuickSelect

section Handlers

/-- `SetCellValue` in row 0; outside the grid it is not defined. -/
def setField (grid : List GridColumn) (col : ℤ) (field : Text) : Option (List GridColumn) :=
  if 0 ≤ col ∧ col < grid.length then some (grid.modify col.toNat fun c => { c with field }) else none

def addFieldToGrid (field : Text) (isAdded : Bool) (s : QuickSelect) : Option QuickSelect :=
  if isAdded then
    if s.grid.any (·.field = field) then some s
    else (setField (s.grid ++ [⟨[], []⟩]) (s.cols + 1 - 1) field).map fun grid => { s with grid, cols := s.cols + 1 }
  else
    match s.grid.findIdx? (·.field = field) with
    | some i => some { s with grid := s.grid.eraseIdx i, cols := s.cols - 1 }
    | none => some s

/-- A table is expanded from the list of all, and the only one of the list collapsed. -/
def onSelectingTable (db : QuickDatabase) (item : ℕ) (s : QuickSelect) : QuickSelect :=
  match s.tables[item]? with
  | none => s
  | some selectedTable =>
    if 1 < s.tables.length then
      let s := match db.tables.find? (·.label = selectedTable) with
        | some t => { s with queryFields := t.fieldNames, fields := s.fields ++ t.fieldNames.map (·, false) }
        | none => s
      { s with tables := [selectedTable] }
    else { s with tables := fillTableListBox db, fields := [], grid := [], queryFields := [] }

/-- The click on the item and what `OnFieldSelected` makes of it. -/
def onFieldSelected (item : ℕ) (s : QuickSelect) : Option QuickSelect :=
  match s.fields[item]? with
  | none => some s
  | some (field, selected) =>
    { s with fields := s.fields.set item (field, !selected) }.addFieldToGrid field !selected

def onFieldsSetFocus (item : ℕ) (s : QuickSelect) : Option QuickSelect :=
  match s.fields[item]? with
  | none => some s
  | some (field, selected) =>
    (s.addFieldToGrid field !selected).map fun s => { s with fields := s.fields.set item (field, !selected) }

/-- The loop of `OnAllFieldsSelected` from the `i`-th field on. -/
def addFieldsFrom : ℕ → List Text → QuickSelect → Option QuickSelect
  | _, [], s => some s
  | i, field :: rest, s =>
    match s.fields[i]? with
    | none => none
    | some (name, selected) =>
      if selected then addFieldsFrom (i + 1) rest s
      else (s.addFieldToGrid field true).bind fun s =>
        addFieldsFrom (i + 1) rest { s with fields := s.fields.set i (name, true) }

def onAllFieldsSelected (s : QuickSelect) : Option QuickSelect := addFieldsFrom 0 s.queryFields s

def step (db : QuickDatabase) (s : QuickSelect) : QuickEvent → Option QuickSelect
  | .selectingTable item => some (s.onSelectingTable db item)
  | .fieldSelected item => s.onFieldSelected item
  | .fieldsSetFocus item => s.onFieldsSetFocus item
  | .allFieldsSelected => s.onAllFieldsSelected

def opened (db : QuickDatabase) : QuickSelect := { tables := fillTableListBox db }

end Handlers

/-- The fields that are selected after the event, in the order in which they were. -/
def choose (s : QuickSelect) (chosen : List Text) : QuickEvent → List Text
  | .selectingTable item => if s.tables[item]?.isSome then [] else chosen
  | .fieldSelected item | .fieldsSetFocus item =>
    match s.fields[item]? with
    | none => chosen
    | some (field, selected) => if selected then chosen.filter (· ≠ field) else chosen ++ [field]
  | .allFieldsSelected => chosen ++ (s.fields.filter (!·.2)).map (·.1)

def stepBoth (db : QuickDatabase) (s : QuickSelect × List Text) (e : QuickEvent) : Option (QuickSelect × List Text) :=
  (s.1.step db e).map fun t => (t, s.1.choose s.2 e)

/-- Row 0 of the grid shows the selected fields, and the counter counts its columns. -/
structure Shows (s : QuickSelect) (chosen : List Text) : Prop where
  cols : s.cols = s.grid.length
  row : s.grid.map (·.field) = chosen
  distinct : chosen.Nodup
  selected : ∀ field, field ∈ chosen ↔ (field, true) ∈ s.fields

/-- A table is collapsed only while the grid has no columns. -/
def Meets (s : QuickSelect) : QuickEvent → Prop
  | .selectingTable item => item < s.tables.length → s.tables.length ≤ 1 → s.grid = []
  | _ => True

/-- What every event keeps: the list box has the fields of the query, and none before a table is expanded. -/
structure Lists (s : QuickSelect) : Prop where
  names : s.fields.map (·.1) = s.queryFields
  distinct : s.queryFields.Nodup
  closed : 1 < s.tables.length → s.fields = []

variable {db : QuickDatabase} {s t : QuickSelect} {chosen : List Text} {field : Text}

section Grid

theorem addFieldToGrid_new (hcols : s.cols = s.grid.length) (hnew : field ∉ s.grid.map (·.field)) :
    s.addFieldToGrid field true = some { s with grid := s.grid ++ [⟨field, []⟩], cols := s.cols + 1 } := by
  have habsent : ¬ (s.grid.any (·.field = field)) = true := by
    rw [List.any_eq_true]
    rintro ⟨c, hc, hfield⟩
    exact hnew (of_decide_eq_true hfield ▸ List.mem_map_of_mem hc)
  have hset : setField (s.grid ++ [⟨[], []⟩]) (s.cols + 1 - 1) field = some (s.grid ++ [⟨field, []⟩]) := by
    have hinside : 0 ≤ s.cols ∧ s.cols < (s.grid ++ [(⟨[], []⟩ : GridColumn)]).length := by
      rw [List.length_append, List.length_singleton]
      omega
    rw [setField, Int.add_sub_cancel, if_pos hinside, hcols, Int.toNat_natCast, List.modify_eq_take_drop]
    simp [List.modifyHead]
  simp only [addFieldToGrid, if_true, if_neg habsent, hset, Option.map_some]

theorem addFieldToGrid_remove (hdistinct : (s.grid.map (·.field)).Nodup) (hmem : field ∈ s.grid.map (·.field)) :
    s.addFieldToGrid field false =
      some { s with grid := s.grid.filter (·.field ≠ field), cols := s.cols - 1 } := by
  obtain ⟨a, c, b, hgrid, rfl, ha, hb⟩ := Neighbours.split_at_key hdistinct hmem
  have herase := @List.eraseP_eq_eraseIdx _ s.grid (·.field = c.field)
  have hfilter : s.grid.filter (·.field ≠ c.field) = s.grid.eraseP (·.field = c.field) := by
    have hother : ∀ d ∈ a, ¬ decide (d.field = c.field) = true := fun d hd heq =>
      ha (of_decide_eq_true heq ▸ List.mem_map_of_mem hd)
    rw [hgrid, List.eraseP_append_right _ hother, List.eraseP_cons_of_pos (by simp), List.filter_append,
      List.filter_cons_of_neg (by simp), Neighbours.filter_key_ne ha, Neighbours.filter_key_ne hb]
  rw [hfilter, herase]
  simp only [addFieldToGrid, Bool.false_eq_true, if_false]
  cases hfind : s.grid.findIdx? (·.field = c.field) with
  | some i => rfl
  | none =>
    rw [List.findIdx?_eq_none_iff] at hfind
    have hc := hfind c (by simp [hgrid])
    simp at hc

theorem addFieldToGrid_fields (isAdded : Bool) (fields : List (Text × Bool)) :
    { s with fields }.addFieldToGrid field isAdded = (s.addFieldToGrid field isAdded).map fun t => { t with fields } := by
  rw [addFieldToGrid, addFieldToGrid]
  cases isAdded with
  | true =>
    simp only [if_true]
    split
    · rfl
    · rw [Option.map_map]
      rfl
  | false =>
    simp only [Bool.false_eq_true, if_false]
    split <;> rfl

end Grid

section Lists

theorem addFieldToGrid_keeps {isAdded : Bool} (h : s.addFieldToGrid field isAdded = some t) :
    t.fields = s.fields ∧ t.queryFields = s.queryFields ∧ t.tables = s.tables := by
  rw [addFieldToGrid.eq_def] at h
  cases isAdded with
  | true =>
    simp only [if_true] at h
    split at h
    · obtain rfl := Option.some.inj h
      exact ⟨rfl, rfl, rfl⟩
    · obtain ⟨grid, -, rfl⟩ := Option.map_eq_some_iff.mp h
      exact ⟨rfl, rfl, rfl⟩
  | false =>
    simp only [Bool.false_eq_true, if_false] at h
    split at h <;> obtain rfl := Option.some.inj h <;> exact ⟨rfl, rfl, rfl⟩

theorem set_names {item : ℕ} {selected : Bool} {fields : List (Text × Bool)} (h : fields[item]? = some (field, selected))
    (marked : Bool) : (fields.set item (field, marked)).map (·.1) = fields.map (·.1) := by
  obtain ⟨pre, post, hfields, -, hset⟩ := Neighbours.split_at_index h
  rw [hset, hfields, List.map_append, List.map_append]
  rfl

theorem Lists.of_keeps (h : Lists s) (hnames : t.fields.map (·.1) = s.fields.map (·.1))
    (hquery : t.queryFields = s.queryFields) (htables : t.tables = s.tables) : Lists t where
  names := by rw [hnames, h.names, hquery]
  distinct := hquery ▸ h.distinct
  closed hmany := by
    rw [htables] at hmany
    have hnil : s.fields.map (·.1) = [] := by rw [h.closed hmany, List.map_nil]
    exact List.map_eq_nil_iff.mp (hnames.trans hnil)

theorem addFieldsFrom_keeps {i : ℕ} {names : List Text} (h : addFieldsFrom i names s = some t) :
    t.fields.map (·.1) = s.fields.map (·.1) ∧ t.queryFields = s.queryFields ∧ t.tables = s.tables := by
  induction names generalizing i s with
  | nil =>
    obtain rfl := Option.some.inj h
    exact ⟨rfl, rfl, rfl⟩
  | cons field rest ih =>
    rw [addFieldsFrom] at h
    split at h
    · cases h
    · rename_i name selected hfield
      split at h
      · exact ih h
      · obtain ⟨u, hu, h⟩ := Option.bind_eq_some_iff.mp h
        obtain ⟨hfields, hquery, htables⟩ := addFieldToGrid_keeps hu
        obtain ⟨hnames, hquery', htables'⟩ := ih h
        refine ⟨hnames.trans ?_, hquery'.trans hquery, htables'.trans htables⟩
        dsimp only
        rw [hfields, set_names hfield]

theorem onFieldsSetFocus_eq (item : ℕ) (s : QuickSelect) : s.onFieldsSetFocus item = s.onFieldSelected item := by
  rw [onFieldsSetFocus, onFieldSelected]
  split
  · rfl
  · refine (Option.map_congr fun t ht => ?_).trans (addFieldToGrid_fields (s := s) _ _).symm
    rw [(addFieldToGrid_keeps ht).1]

theorem lists_opened (db : QuickDatabase) : Lists (opened db) := ⟨rfl, List.nodup_nil, fun _ => rfl⟩

theorem Lists.onSelectingTable (h : Lists s) (item : ℕ) : Lists (s.onSelectingTable db item) := by
  rw [QuickSelect.onSelectingTable]
  split
  · exact h
  · split
    · rename_i hmany
      split
      · rename_i table htable
        refine ⟨?_, table.distinct, fun hlong => absurd hlong (lt_irrefl 1)⟩
        rw [h.closed hmany, List.nil_append, List.map_map]
        exact List.map_id _
      · exact ⟨h.names, h.distinct, fun hlong => absurd hlong (lt_irrefl 1)⟩
    · exact ⟨rfl, List.nodup_nil, fun _ => rfl⟩

theorem Lists.onFieldSelected (h : Lists s) {item : ℕ} (ht : s.onFieldSelected item = some t) : Lists t := by
  rw [QuickSelect.onFieldSelected] at ht
  split at ht
  · obtain rfl := Option.some.inj ht
    exact h
  · rename_i field selected hfield
    obtain ⟨hfields, hquery, htables⟩ := addFieldToGrid_keeps ht
    refine h.of_keeps ?_ hquery htables
    rw [hfields, set_names hfield]

theorem Lists.step (h : Lists s) {e : QuickEvent} (ht : s.step db e = some t) : Lists t := by
  cases e with
  | selectingTable item =>
    obtain rfl := Option.some.inj ht
    exact h.onSelectingTable item
  | fieldSelected item => exact h.onFieldSelected ht
  | fieldsSetFocus item => exact h.onFieldSelected ((onFieldsSetFocus_eq item s).symm.trans ht)
  | allFieldsSelected =>
    obtain ⟨hnames, hquery, htables⟩ := addFieldsFrom_keeps ht
    exact h.of_keeps hnames hquery htables

end Lists

section Selection

theorem mem_select {pre post : List (Text × Bool)} {selected : Bool} (name : Text) :
    (name, true) ∈ pre ++ (field, true) :: post ↔ (name, true) ∈ pre ++ (field, selected) :: post ∨ name = field := by
  simp only [List.mem_append, List.mem_cons, Prod.mk.injEq, and_true]
  tauto

theorem mem_deselect {pre post : List (Text × Bool)} {selected : Bool}
    (hdistinct : ((pre ++ (field, selected) :: post).map (·.1)).Nodup) (name : Text) :
    (name, true) ∈ pre ++ (field, false) :: post ↔ (name, true) ∈ pre ++ (field, selected) :: post ∧ name ≠ field := by
  rw [List.map_append, List.map_cons, List.nodup_middle, List.nodup_cons, List.mem_append, not_or] at hdistinct
  obtain ⟨⟨hpre, hpost⟩, -⟩ := hdistinct
  have hother : (name, true) ∈ pre ∨ (name, true) ∈ post → name ≠ field := by
    rintro (hin | hin) rfl
    · exact hpre (List.mem_map.mpr ⟨_, hin, rfl⟩)
    · exact hpost (List.mem_map.mpr ⟨_, hin, rfl⟩)
  simp only [List.mem_append, List.mem_cons, Prod.mk.injEq, Bool.true_eq_false, and_false, false_or]
  constructor
  · intro hin
    exact ⟨hin.imp_right Or.inr, hother hin⟩
  · rintro ⟨hin | ⟨rfl, -⟩ | hin, hne⟩
    · exact Or.inl hin
    · exact absurd rfl hne
    · exact Or.inr hin

theorem Shows.select (h : Shows s chosen) {pre post : List (Text × Bool)} (hnames : (s.fields.map (·.1)).Nodup)
    (hfields : s.fields = pre ++ (field, false) :: post) :
    ∃ t, s.addFieldToGrid field true = some t ∧
      Shows { t with fields := pre ++ (field, true) :: post } (chosen ++ [field]) := by
  have hnew : field ∉ chosen := by
    intro hin
    rw [h.selected, hfields] at hin
    exact ((mem_deselect (hfields ▸ hnames) field).mp hin).2 rfl
  refine ⟨_, addFieldToGrid_new h.cols (h.row ▸ hnew), ?_, ?_, ?_, fun name => ?_⟩
  · change s.cols + 1 = (s.grid ++ [(⟨field, []⟩ : GridColumn)]).length
    rw [h.cols, List.length_append, List.length_singleton]
    rfl
  · change (s.grid ++ [(⟨field, []⟩ : GridColumn)]).map (·.field) = chosen ++ [field]
    rw [List.map_append, h.row]
    rfl
  · rw [← List.concat_eq_append, List.nodup_concat]
    exact ⟨hnew, h.distinct⟩
  · change name ∈ chosen ++ [field] ↔ (name, true) ∈ pre ++ (field, true) :: post
    rw [mem_select, ← hfields, ← h.selected, List.mem_append, List.mem_singleton]

theorem Shows.deselect (h : Shows s chosen) {pre post : List (Text × Bool)} (hnames : (s.fields.map (·.1)).Nodup)
    (hfields : s.fields = pre ++ (field, true) :: post) :
    ∃ t, s.addFieldToGrid field false = some t ∧
      Shows { t with fields := pre ++ (field, false) :: post } (chosen.filter (· ≠ field)) := by
  have hmem : field ∈ s.grid.map (·.field) := by
    rw [h.row, h.selected, hfields]
    simp
  have hdistinct : (s.grid.map (·.field)).Nodup := h.row ▸ h.distinct
  have hrow : (s.grid.filter (·.field ≠ field)).map (·.field) = chosen.filter (· ≠ field) := by
    rw [← h.row, List.filter_map]
    rfl
  refine ⟨_, addFieldToGrid_remove hdistinct hmem, ?_, hrow, h.distinct.filter _, fun name => ?_⟩
  · change s.cols - 1 = (s.grid.filter (·.field ≠ field)).length
    have hlength := Neighbours.length_filter_ne h.distinct ((h.selected field).mpr (hfields ▸ by simp))
    rw [← hrow, ← h.row, List.length_map, List.length_map] at hlength
    rw [h.cols]
    omega
  · change name ∈ chosen.filter (· ≠ field) ↔ (name, true) ∈ pre ++ (field, false) :: post
    rw [mem_deselect (hfields ▸ hnames), ← hfields, ← h.selected, List.mem_filter, decide_eq_true_iff]

theorem onFieldSelected_shows (hlists : Lists s) (h : Shows s chosen) (item : ℕ) :
    ∃ t, s.onFieldSelected item = some t ∧ Shows t (choose s chosen (.fieldSelected item)) := by
  have hnames : (s.fields.map (·.1)).Nodup := hlists.names ▸ hlists.distinct
  rw [onFieldSelected, choose]
  cases hitem : s.fields[item]? with
  | none => exact ⟨s, rfl, h⟩
  | some found =>
    obtain ⟨field, selected⟩ := found
    obtain ⟨pre, post, hfields, -, hset⟩ := Neighbours.split_at_index hitem
    simp only [hset, addFieldToGrid_fields]
    cases selected with
    | false =>
      obtain ⟨t, ht, hshows⟩ := h.select hnames hfields
      exact ⟨_, congrArg (Option.map _) ht, hshows⟩
    | true =>
      obtain ⟨t, ht, hshows⟩ := h.deselect hnames hfields
      exact ⟨_, congrArg (Option.map _) ht, hshows⟩

theorem addFieldsFrom_shows (post : List (Text × Bool)) {pre : List (Text × Bool)} (hnames : (s.fields.map (·.1)).Nodup)
    (hfields : s.fields = pre ++ post) (h : Shows s chosen) :
    ∃ t, addFieldsFrom pre.length (post.map (·.1)) s = some t ∧ Shows t (chosen ++ (post.filter (!·.2)).map (·.1)) := by
  induction post generalizing s pre chosen with
  | nil => exact ⟨s, rfl, by simpa using h⟩
  | cons found post ih =>
    obtain ⟨field, selected⟩ := found
    have hitem : s.fields[pre.length]? = some (field, selected) := by rw [hfields]; simp
    have hnext (marked : Bool) : pre ++ (field, marked) :: post = (pre ++ [(field, marked)]) ++ post := by simp
    have hlength (marked : Bool) : pre.length + 1 = (pre ++ [(field, marked)]).length := by simp
    rw [List.map_cons, addFieldsFrom, hitem]
    cases selected with
    | true =>
      obtain ⟨t, ht, hshows⟩ := ih hnames (hfields.trans (hnext true)) h
      rw [hlength true]
      exact ⟨t, ht, hshows⟩
    | false =>
      obtain ⟨u, hu, hu_shows⟩ := h.select hnames hfields
      have hset : u.fields.set pre.length (field, true) = pre ++ (field, true) :: post := by
        rw [(addFieldToGrid_keeps hu).1, hfields]
        simp
      have hnames' : ((pre ++ (field, true) :: post).map (·.1)).Nodup := by
        rw [hfields] at hnames
        simpa using hnames
      obtain ⟨t, ht, hshows⟩ := ih hnames' (hnext true) hu_shows
      refine ⟨t, ?_, by simpa using hshows⟩
      simp only [Bool.false_eq_true, if_false, hu, Option.bind_some, hset, hlength true]
      exact ht

theorem Shows.grid_eq_nil (h : Shows s chosen) (hnone : s.fields = []) : chosen = [] ∧ s.grid = [] ∧ s.cols = 0 := by
  have hchosen : chosen = [] := by
    rw [List.eq_nil_iff_forall_not_mem]
    intro field hin
    rw [h.selected, hnone] at hin
    exact absurd hin (by simp)
  have hgrid : s.grid = [] := List.map_eq_nil_iff.mp (h.row.trans hchosen)
  exact ⟨hchosen, hgrid, by rw [h.cols, hgrid]; rfl⟩

theorem onSelectingTable_shows_iff (hlists : Lists s) (h : Shows s chosen) (item : ℕ) :
    Shows (s.onSelectingTable db item) (choose s chosen (.selectingTable item)) ↔ Meets s (.selectingTable item) := by
  rw [onSelectingTable, choose, Meets]
  cases hitem : s.tables[item]? with
  | none =>
    have hbeyond := List.getElem?_eq_none_iff.mp hitem
    exact iff_of_true h fun hinside => absurd hinside (by omega)
  | some selectedTable =>
    obtain ⟨hinside, -⟩ := List.getElem?_eq_some_iff.mp hitem
    by_cases hmany : 1 < s.tables.length
    · obtain ⟨-, hgrid, hcols⟩ := h.grid_eq_nil (hlists.closed hmany)
      simp only [if_pos hmany, Option.isSome_some, if_true]
      refine iff_of_true ?_ fun _ hfew => absurd hfew (by omega)
      cases db.tables.find? (·.label = selectedTable) with
      | none => exact ⟨by simp [hgrid, hcols], by simp [hgrid], List.nodup_nil, by simp [hlists.closed hmany]⟩
      | some table => exact ⟨by simp [hgrid, hcols], by simp [hgrid], List.nodup_nil, by simp [hlists.closed hmany]⟩
    · simp only [if_neg hmany, Option.isSome_some, if_true]
      constructor
      · intro hshows _ _
        have hzero : s.cols = 0 := hshows.cols
        rw [h.cols] at hzero
        exact List.length_eq_zero_iff.mp (by omega)
      · intro hmeets
        have hzero : s.cols = 0 := by rw [h.cols, hmeets hinside (by omega)]; rfl
        exact ⟨hzero, rfl, List.nodup_nil, by simp⟩

theorem stepBoth_decided (s : QuickSelect × List Text) (e : QuickEvent) (hlists : Lists s.1) (h : Shows s.1 s.2) :
    (∃ t, stepBoth db s e = some t ∧ Shows t.1 t.2) ↔ Meets s.1 e := by
  have hkept (hgood : ∃ t, s.1.step db e = some t ∧ Shows t (choose s.1 s.2 e)) :
      ∃ t, stepBoth db s e = some t ∧ Shows t.1 t.2 := by
    obtain ⟨t, ht, hshows⟩ := hgood
    exact ⟨_, congrArg (Option.map _) ht, hshows⟩
  cases e with
  | selectingTable item =>
    rw [← @onSelectingTable_shows_iff db s.1 s.2 hlists h item]
    constructor
    · rintro ⟨t, ht, hshows⟩
      obtain rfl := Option.some.inj ht
      exact hshows
    · intro hshows
      exact hkept ⟨_, rfl, hshows⟩
  | fieldSelected item => exact iff_of_true (hkept (onFieldSelected_shows hlists h item)) trivial
  | fieldsSetFocus item =>
    obtain ⟨t, ht, hshows⟩ := onFieldSelected_shows hlists h item
    exact iff_of_true (hkept ⟨t, (onFieldsSetFocus_eq item s.1).trans ht, hshows⟩) trivial
  | allFieldsSelected =>
    have hnames : (s.1.fields.map (·.1)).Nodup := hlists.names ▸ hlists.distinct
    obtain ⟨t, ht, hshows⟩ := addFieldsFrom_shows s.1.fields hnames (List.nil_append _).symm h
    refine iff_of_true (hkept ⟨t, ?_, hshows⟩) trivial
    rw [step, onAllFieldsSelected, ← hlists.names]
    exact ht

end Selection

section Runs

open Runs

theorem grid_shows_selection_iff (db : QuickDatabase) (es : List QuickEvent) :
    ((run (stepBoth db) (opened db, []) es).isSome ∧
      Throughout (stepBoth db) (fun s => Shows s.1 s.2) (opened db, []) es) ↔
      Before (stepBoth db) (fun s e => Meets s.1 e) (opened db, []) es := by
  have hopened : Shows (opened db, ([] : List Text)).1 [] := ⟨rfl, rfl, List.nodup_nil, by simp [opened]⟩
  have hkeep (s : QuickSelect × List Text) (e : QuickEvent) (t : QuickSelect × List Text) (hlists : Lists s.1)
      (ht : stepBoth db s e = some t) : Lists t.1 := by
    obtain ⟨u, hu, rfl⟩ := Option.map_eq_some_iff.mp ht
    exact hlists.step hu
  have hdecided : ∀ (s : QuickSelect × List Text) (e : QuickEvent), Lists s.1 → Shows s.1 s.2 →
      ((∃ t, stepBoth db s e = some t ∧ Shows t.1 t.2) ↔ Meets s.1 e) := stepBoth_decided
  exact kept_run_beside_iff hkeep hdecided (lists_opened db) hopened es

/-- A table is expanded, two fields selected and the table collapsed: the counter keeps the two columns. -/
theorem collapsed_table_keeps_counter :
    let db : QuickDatabase := ⟨"SQLite".toList, [], [⟨[], "orders".toList, ["id".toList, "client".toList], by decide⟩,
      ⟨[], "clients".toList, ["id".toList], by decide⟩]⟩
    let es : List QuickEvent := [.selectingTable 0, .allFieldsSelected, .selectingTable 0]
    (run (stepBoth db) (opened db, []) es).map (fun s => (s.1.grid, s.1.cols)) = some ([], 2) ∧
      run (stepBoth db) (opened db, []) (es ++ [.selectingTable 0, .fieldSelected 0]) = none ∧
      ¬ ((run (stepBoth db) (opened db, []) es).isSome ∧
        Throughout (stepBoth db) (fun s => Shows s.1 s.2) (opened db, []) es) := by
  intro db es
  have hcollapsed : (run (stepBoth db) (opened db, []) es).map (fun s => (s.1.grid, s.1.cols)) = some ([], 2) := by decide
  refine ⟨hcollapsed, by decide, ?_⟩
  rintro ⟨-, hthroughout⟩
  obtain ⟨s, hs, hgrid⟩ := Option.map_eq_some_iff.mp hcollapsed
  have hcols := (hthroughout es List.prefix_rfl s hs).cols
  rw [Prod.mk.injEq] at hgrid
  rw [hgrid.1, hgrid.2] at hcols
  exact absurd hcols (by decide)

end Runs

end QuickSelect

end DbHandler.Dialogs
