import DbHandler.QueryBuilder.DrawingDocument

namespace DbHandler.QueryBuilder

open Foundation Foundation.Search
open Foundation.Sql (quotation)

structure RowLists (α : Type) where
  source : List α
  dest : List α
  deriving DecidableEq, Repr

/-- The list controls of `SortGroupByPage`; a page that is not of the kind has none. -/
structure PageLists (α : Type) where
  sortLists : Option (RowLists α)
  fieldLists : Option (RowLists α)
  deriving DecidableEq, Repr

def mentions (tbl name : Text) : Bool := (find tbl name).isSome

/-- The rows are visited from the last one up; `none` is a row that is not there. -/
def removeRowsFrom (tbl : Text) : ℕ → List Text → Option (List Text)
  | 0, rows => some rows
  | item + 1, rows => rows[item]?.bind fun field =>
    removeRowsFrom tbl item (if mentions tbl field then rows.eraseIdx item else rows)

def removeRows (tbl : Text) (rows : List Text) : Option (List Text) := removeRowsFrom tbl rows.length rows

def RowLists.removeTable (tbl : Text) (l : RowLists Text) : Option (RowLists Text) :=
  (removeRows tbl l.source).bind fun source => (removeRows tbl l.dest).map fun dest => ⟨source, dest⟩

def PageLists.removeTable (tbl : Text) (page : PageLists Text) : Option (PageLists Text) :=
  (page.sortLists.elim (some none) fun l => (l.removeTable tbl).map some).bind fun sortLists =>
    (page.fieldLists.elim (some none) fun l => (l.removeTable tbl).map some).map fun fieldLists =>
      ⟨sortLists, fieldLists⟩

structure QueryWindow where
  doc : DrawingDocument
  page : PageLists Text
  deriving DecidableEq, Repr

inductive Removal
  | deleteGroupByTable
  | deleteSortedTable
  | deleteQueryFieldForTable
  | removeTable
  deriving DecidableEq, Repr

def Removal.run (tbl : Text) (w : QueryWindow) : Removal → Option QueryWindow
  | deleteGroupByTable => (w.doc.deleteGroupByTable tbl).map fun r => { w with doc := r.1 }
  | deleteSortedTable => (w.doc.deleteSortedTable tbl).map fun r => { w with doc := r.1 }
  | deleteQueryFieldForTable => (w.doc.deleteQueryFieldForTable tbl).map fun r => { w with doc := r.1 }
  | removeTable => (w.page.removeTable tbl).map fun page => { w with page := page }

/-- How the name of a field is written: alone, as the quick selection has it, in one pair of quotes, as
on the sort page, or with the table and the column in quotes of their own. -/
inductive Spelling
  | bare
  | joint
  | separate
  deriving DecidableEq, Repr

/-- The field that a name in one of the lists stands for. -/
structure Field where
  table : Text
  column : Text
  spelling : Spelling
  deriving DecidableEq, Repr

def Field.text (field : Field) : Text :=
  match field.spelling with
  | .bare => field.column
  | .joint => quotation :: (field.table ++ '.' :: field.column) ++ [quotation]
  | .separate => quotation :: field.table ++ quotation :: '.' :: quotation :: field.column ++ [quotation]

def Field.isOf (tbl : Text) (field : Field) : Bool := field.table == tbl

def TableField.isOf (tbl : Text) (field : TableField) : Bool := field.tableName == tbl

def PageLists.mapLists {α β : Type} (f : List α → List β) (page : PageLists α) : PageLists β where
  sortLists := page.sortLists.map fun l => ⟨f l.source, f l.dest⟩
  fieldLists := page.fieldLists.map fun l => ⟨f l.source, f l.dest⟩

def PageLists.rows {α : Type} (page : PageLists α) : List α :=
  page.sortLists.elim [] (fun l => l.source ++ l.dest) ++ page.fieldLists.elim [] fun l => l.source ++ l.dest

structure Contents where
  queryFields : List TableField
  groupByFields : List Field
  groupByFieldsAll : List Field
  sortedFields : List Field
  sortedFieldsAll : List Field
  page : PageLists Field

structure QueryWindow.Shows (w : QueryWindow) (c : Contents) : Prop where
  queryFields : w.doc.queryFields = c.queryFields
  groupByFields : groupNames w.doc.groupByFields = c.groupByFields.map Field.text
  groupByFieldsAll : groupNames w.doc.groupByFieldsAll = c.groupByFieldsAll.map Field.text
  sortedFields : sortNames w.doc.sortedFields = c.sortedFields.map Field.text
  sortedFieldsAll : sortNames w.doc.sortedFieldsAll = c.sortedFieldsAll.map Field.text
  page : w.page = c.page.mapLists (List.map Field.text)

def Removal.without (tbl : Text) (c : Contents) : Removal → Contents
  | deleteGroupByTable => { c with
      groupByFields := c.groupByFields.filter (!Field.isOf tbl ·)
      groupByFieldsAll := c.groupByFieldsAll.filter (!Field.isOf tbl ·) }
  | deleteSortedTable => { c with
      sortedFields := c.sortedFields.filter (!Field.isOf tbl ·)
      sortedFieldsAll := c.sortedFieldsAll.filter (!Field.isOf tbl ·) }
  | deleteQueryFieldForTable => { c with queryFields := c.queryFields.filter (!TableField.isOf tbl ·) }
  | removeTable => { c with page := c.page.mapLists (List.filter (!Field.isOf tbl ·)) }

def ClosesExactly (r : Removal) (tbl : Text) (w : QueryWindow) (c : Contents) : Prop :=
  ∃ w', r.run tbl w = some w' ∧ w'.Shows (r.without tbl c)

def Sweeps (tbl : Text) (fields : List Field) : Prop :=
  (fields = [] ∨ ∃ field ∈ fields, field.table ≠ tbl) ∧
    ∀ field ∈ fields, quotation :: tbl <+: field.text ↔ field.table = tbl

def Removal.Sound (tbl : Text) (c : Contents) : Removal → Prop
  | deleteGroupByTable => c.groupByFields = [] ∧ Sweeps tbl c.groupByFieldsAll
  | deleteSortedTable => Sweeps tbl c.sortedFieldsAll ∧ Sweeps tbl c.sortedFields
  | deleteQueryFieldForTable => c.queryFields.countP (TableField.isOf tbl) = 1 ∧
      ∃ a b, c.queryFields = a ++ b ∧ (∀ field ∈ a, tbl <+: field.fullName ↔ field.tableName = tbl) ∧
        ∀ field ∈ b, tbl <+: field.fullName ∧ field.tableName ≠ tbl
  | removeTable => ∀ field ∈ c.page.rows, tbl <:+: field.text ↔ field.table = tbl

section Rows

theorem removeRowsFrom_append (tbl : Text) (a b : List Text) :
    removeRowsFrom tbl a.length (a ++ b) = some (a.filter (!mentions tbl ·) ++ b) := by
  induction a using List.reverseRecOn generalizing b with
  | nil => rfl
  | append_singleton a field ih =>
    rw [List.length_append, List.length_singleton, removeRowsFrom, List.append_assoc, List.singleton_append]
    rw [List.getElem?_append_right (Nat.le_refl _), Nat.sub_self, List.getElem?_cons_zero, Option.bind_some]
    by_cases hfind : mentions tbl field = true
    · rw [if_pos hfind, List.eraseIdx_append_of_length_le (Nat.le_refl _), Nat.sub_self, List.eraseIdx_zero,
        List.tail_cons, ih, List.filter_append, List.filter_cons_of_neg (by simp [hfind])]
      simp
    · rw [if_neg hfind, ih, List.filter_append, List.filter_cons_of_pos (by simp [hfind])]
      simp

theorem removeRows_eq (tbl : Text) (rows : List Text) :
    removeRows tbl rows = some (rows.filter (!mentions tbl ·)) := by
  have hall := removeRowsFrom_append tbl rows []
  rwa [List.append_nil, List.append_nil] at hall

theorem removeTable_eq (tbl : Text) (page : PageLists Text) :
    page.removeTable tbl = some (page.mapLists (List.filter (!mentions tbl ·))) := by
  obtain ⟨sortLists, fieldLists⟩ := page
  cases sortLists <;> cases fieldLists <;>
    simp [PageLists.removeTable, RowLists.removeTable, removeRows_eq, PageLists.mapLists]

theorem mentions_iff {tbl name : Text} : mentions tbl name = true ↔ tbl <:+: name := by
  rw [mentions]
  by_cases htbl : tbl = []
  · subst htbl
    cases name <;> simp [find]
  · rw [Option.isSome_iff_ne_none, ne_eq, find_eq_none_iff htbl, not_not]

end Rows

section Names

variable {tbl : Text} {fields : List Field}

theorem find_eq_zero_iff {p t : Text} : find p t = some 0 ↔ p <+: t := by
  constructor
  · intro h
    simpa using (find_split h).2
  · exact find_at_start

theorem startsWithTable_iff {name : Text} : startsWithTable tbl name = true ↔ quotation :: tbl <+: name :=
  List.isPrefixOf_iff_prefix

theorem kept_iff {p : Text → Bool} {P : Text → Prop} (hp : ∀ name, p name = true ↔ P name) :
    (fields.map Field.text).filter (!p ·) = (fields.filter (!Field.isOf tbl ·)).map Field.text ↔
      ∀ field ∈ fields, P field.text ↔ field.table = tbl := by
  rw [Vectors.filter_map_eq_iff]
  apply forall₂_congr
  intro field _
  rw [Bool.eq_iff_iff, hp, Field.isOf, beq_iff_eq]

theorem swept_exactly_iff {α : Type} {key : α → Text} {l : List α} (h : l.map key = fields.map Field.text) :
    (∃ m, Vectors.sweep key (startsWithTable tbl) l = some m ∧
        m.map key = (fields.filter (!Field.isOf tbl ·)).map Field.text) ↔ Sweeps tbl fields := by
  have hkept : (Vectors.removeIf key (startsWithTable tbl) l).map key =
      (fields.filter (!Field.isOf tbl ·)).map Field.text ↔
        ∀ field ∈ fields, quotation :: tbl <+: field.text ↔ field.table = tbl := by
    rw [Vectors.keys_removeIf, h]
    exact kept_iff fun _ => startsWithTable_iff
  have hnil : l = [] ↔ fields = [] := by
    rw [← List.map_eq_nil_iff (f := key), h, List.map_eq_nil_iff]
  have hother (hexact : ∀ field ∈ fields, quotation :: tbl <+: field.text ↔ field.table = tbl) :
      (∃ x ∈ l, startsWithTable tbl (key x) = false) ↔ ∃ field ∈ fields, field.table ≠ tbl := by
    have hnames : (∃ x ∈ l, startsWithTable tbl (key x) = false) ↔
        ∃ name ∈ fields.map Field.text, startsWithTable tbl name = false := by
      rw [← h]
      simp
    rw [hnames]
    simp only [List.mem_map, exists_exists_and_eq_and]
    apply exists_congr
    intro field
    apply and_congr_right
    intro hfield
    rw [← Bool.not_eq_true, startsWithTable_iff, hexact field hfield]
  rw [Vectors.sweep_eq]
  constructor
  · rintro ⟨m, hm, hnames⟩
    split_ifs at hm with hrest
    obtain rfl := Option.some.inj hm
    have hexact := hkept.mp hnames
    exact ⟨hrest.imp hnil.mp (hother hexact).mp, hexact⟩
  · rintro ⟨hrest, hexact⟩
    refine ⟨_, if_pos (hrest.imp hnil.mpr (hother hexact).mpr), hkept.mpr hexact⟩

end Names

section Removals

variable {tbl : Text} {w : QueryWindow} {c : Contents}

theorem deleteGroupByTable_iff (h : w.Shows c) :
    ClosesExactly .deleteGroupByTable tbl w c ↔ Removal.Sound tbl c .deleteGroupByTable := by
  have hnil : w.doc.groupByFields = [] ↔ c.groupByFields = [] := by
    have hnames := h.groupByFields
    rw [← List.map_eq_nil_iff (f := GroupFields.fieldName), ← List.map_eq_nil_iff (f := Field.text), ← hnames]
    rfl
  constructor
  · rintro ⟨w', hrun, hshows⟩
    obtain ⟨r, hr, rfl⟩ := Option.map_eq_some_iff.mp hrun
    obtain ⟨all, hall, hr⟩ := Option.bind_eq_some_iff.mp hr
    split_ifs at hr with hfields
    obtain rfl := Option.some.inj hr
    exact ⟨hnil.mp hfields, (swept_exactly_iff h.groupByFieldsAll).mp ⟨all, hall, hshows.groupByFieldsAll⟩⟩
  · rintro ⟨hfields, hsweeps⟩
    obtain ⟨all, hall, hnames⟩ := (swept_exactly_iff h.groupByFieldsAll).mpr hsweeps
    have hrun : w.doc.deleteGroupByTable tbl = some _ :=
      Option.bind_eq_some_iff.mpr ⟨all, hall, if_pos (hnil.mpr hfields)⟩
    refine ⟨_, Option.map_eq_some_iff.mpr ⟨_, hrun, rfl⟩, ?_⟩
    refine { h with groupByFieldsAll := hnames, groupByFields := ?_ }
    simp [Removal.without, hnil.mpr hfields, hfields, groupNames]

theorem deleteSortedTable_iff (h : w.Shows c) :
    ClosesExactly .deleteSortedTable tbl w c ↔ Removal.Sound tbl c .deleteSortedTable := by
  constructor
  · rintro ⟨w', hrun, hshows⟩
    obtain ⟨r, hr, rfl⟩ := Option.map_eq_some_iff.mp hrun
    obtain ⟨all, hall, hr⟩ := Option.bind_eq_some_iff.mp hr
    obtain ⟨fields, hfields, rfl⟩ := Option.map_eq_some_iff.mp hr
    constructor
    · exact (swept_exactly_iff h.sortedFieldsAll).mp ⟨all, hall, hshows.sortedFieldsAll⟩
    · exact (swept_exactly_iff h.sortedFields).mp ⟨fields, hfields, hshows.sortedFields⟩
  · rintro ⟨hall, hfields⟩
    obtain ⟨all, hall, hallNames⟩ := (swept_exactly_iff h.sortedFieldsAll).mpr hall
    obtain ⟨fields, hfields, hnames⟩ := (swept_exactly_iff h.sortedFields).mpr hfields
    have hrun : w.doc.deleteSortedTable tbl = some _ :=
      Option.bind_eq_some_iff.mpr ⟨all, hall, Option.map_eq_some_iff.mpr ⟨fields, hfields, rfl⟩⟩
    exact ⟨_, Option.map_eq_some_iff.mpr ⟨_, hrun, rfl⟩,
      { h with sortedFieldsAll := hallNames, sortedFields := hnames }⟩

theorem isOf_found (tbl : Text) (field : TableField) (h : TableField.isOf tbl field = true) :
    (find tbl field.fullName == some 0) = true := by
  obtain rfl : field.tableName = tbl := by simpa [TableField.isOf] using h
  rw [beq_iff_eq, find_eq_zero_iff]
  exact List.prefix_append _ _

theorem deleteQueryFieldForTable_iff (h : w.Shows c) :
    ClosesExactly .deleteQueryFieldForTable tbl w c ↔ Removal.Sound tbl c .deleteQueryFieldForTable := by
  have herase := Vectors.eraseFirst_eq_filter_iff (l := c.queryFields) (isOf_found tbl)
  have hagree (field : TableField) : ((find tbl field.fullName == some 0) = TableField.isOf tbl field) ↔
      (tbl <+: field.fullName ↔ field.tableName = tbl) := by
    rw [Bool.eq_iff_iff, beq_iff_eq, find_eq_zero_iff, TableField.isOf, beq_iff_eq]
  have hother (field : TableField) :
      ((find tbl field.fullName == some 0) = true ∧ TableField.isOf tbl field = false) ↔
        (tbl <+: field.fullName ∧ field.tableName ≠ tbl) := by
    rw [beq_iff_eq, find_eq_zero_iff, TableField.isOf, beq_eq_false_iff_ne]
  simp only [hagree, hother] at herase
  refine Iff.trans ?_ herase
  constructor
  · rintro ⟨w', hrun, hshows⟩
    obtain ⟨r, hr, rfl⟩ := Option.map_eq_some_iff.mp hrun
    obtain ⟨fields, hfields, rfl⟩ := Option.map_eq_some_iff.mp hr
    rw [← h.queryFields, hfields]
    exact congrArg some (hshows.queryFields.trans (by rw [h.queryFields]; rfl))
  · intro herase
    rw [← h.queryFields] at herase
    have hrun : w.doc.deleteQueryFieldForTable tbl = some _ := Option.map_eq_some_iff.mpr ⟨_, herase, rfl⟩
    exact ⟨_, Option.map_eq_some_iff.mpr ⟨_, hrun, rfl⟩,
      { h with queryFields := congrArg (List.filter (!TableField.isOf tbl ·)) h.queryFields }⟩

theorem removeTable_iff (h : w.Shows c) :
    ClosesExactly .removeTable tbl w c ↔ Removal.Sound tbl c .removeTable := by
  have hrun : Removal.run tbl w .removeTable =
      some { w with page := w.page.mapLists (List.filter (!mentions tbl ·)) } := by
    rw [Removal.run, removeTable_eq]
    rfl
  have hpage : w.page.mapLists (List.filter (!mentions tbl ·)) =
      (c.page.mapLists (List.filter (!Field.isOf tbl ·))).mapLists (List.map Field.text) ↔
        ∀ field ∈ c.page.rows, tbl <:+: field.text ↔ field.table = tbl := by
    have hkept (fields : List Field) : (fields.map Field.text).filter (!mentions tbl ·) =
        (fields.filter (!Field.isOf tbl ·)).map Field.text ↔
          ∀ field ∈ fields, tbl <:+: field.text ↔ field.table = tbl := kept_iff fun _ => mentions_iff
    rw [h.page]
    obtain ⟨sortLists, fieldLists⟩ := c.page
    cases sortLists <;> cases fieldLists <;>
      simp only [PageLists.mapLists, PageLists.rows, Option.map_none, Option.map_some, Option.elim_none,
        Option.elim_some, PageLists.mk.injEq, Option.some.injEq, RowLists.mk.injEq, hkept, List.nil_append,
        List.append_nil, List.forall_mem_append, true_and, and_true, and_assoc, List.not_mem_nil, false_imp_iff,
        implies_true]
  refine Iff.trans ?_ hpage
  constructor
  · rintro ⟨w', hrun', hshows⟩
    obtain rfl := Option.some.inj (hrun.symm.trans hrun')
    exact hshows.page
  · intro hlists
    exact ⟨_, hrun, { h with page := hlists }⟩

end Removals

theorem closes_exactly_iff (r : Removal) (tbl : Text) (w : QueryWindow) (c : Contents) (h : w.Shows c) :
    ClosesExactly r tbl w c ↔ r.Sound tbl c := by
  cases r with
  | deleteGroupByTable => exact deleteGroupByTable_iff h
  | deleteSortedTable => exact deleteSortedTable_iff h
  | deleteQueryFieldForTable => exact deleteQueryFieldForTable_iff h
  | removeTable => exact removeTable_iff h

def clientContents : Contents where
  queryFields := [⟨"client".toList, "id".toList⟩]
  groupByFields := []
  groupByFieldsAll := [⟨"client".toList, "id".toList, .separate⟩, ⟨"order".toList, "client_id".toList, .separate⟩]
  sortedFields := []
  sortedFieldsAll := []
  page := ⟨none, none⟩

def clientWindow : QueryWindow where
  doc := ⟨[⟨"client".toList, "id".toList⟩], [], [⟨"\"client\".\"id\"".toList, 0, 0⟩,
    ⟨"\"order\".\"client_id\"".toList, 1, 1⟩], [], []⟩
  page := ⟨none, none⟩

theorem client_shown : clientWindow.Shows clientContents :=
  ⟨rfl, rfl, by decide, rfl, rfl, rfl⟩

theorem available_fields_of_client_are_removed : ClosesExactly .deleteGroupByTable "client".toList clientWindow clientContents :=
  (closes_exactly_iff .deleteGroupByTable "client".toList clientWindow clientContents client_shown).mpr
    ⟨rfl, Or.inr ⟨_, List.mem_cons_of_mem _ (List.mem_cons_self ..), by decide⟩, by decide⟩

def clientsContents : Contents := { clientContents with
  groupByFieldsAll := [⟨"client".toList, "id".toList, .separate⟩, ⟨"clients".toList, "id".toList, .separate⟩,
    ⟨"order".toList, "id".toList, .separate⟩] }

def clientsWindow : QueryWindow := { clientWindow with
  doc := { clientWindow.doc with groupByFieldsAll := [⟨"\"client\".\"id\"".toList, 0, 0⟩,
    ⟨"\"clients\".\"id\"".toList, 1, 1⟩, ⟨"\"order\".\"id\"".toList, 2, 2⟩] } }

theorem prefix_table_loses_fields : clientsWindow.Shows clientsContents ∧
    ¬ ClosesExactly .deleteGroupByTable "client".toList clientsWindow clientsContents := by
  refine ⟨⟨rfl, rfl, by decide, rfl, rfl, rfl⟩, ?_⟩
  rintro ⟨w', hrun, hshows⟩
  have hresult : (Removal.run "client".toList clientsWindow .deleteGroupByTable).map
      (fun w => (groupNames w.doc.groupByFieldsAll).length) = some 1 := by decide
  rw [hrun, Option.map_some, hshows.groupByFieldsAll] at hresult
  exact absurd hresult (by decide)

end DbHandler.QueryBuilder
