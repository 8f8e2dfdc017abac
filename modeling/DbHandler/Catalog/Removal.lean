import Mathlib.Data.List.Nodup
import DbHandler.Catalog.Objects

namespace DbHandler.Catalog

open Foundation

structure Arguments where
  catalog : Text
  schemaName : Text
  tableName : Text

inductive Driver
  /-- The catalog is `m_catalog`. -/
  | sqlite (catalog : Text)
  | odbc (subtype : Text)

variable (d : Driver) (a : Arguments) (s : Impl)

def Driver.dropTable : Driver → Arguments → Impl → Removal
  | .sqlite catalog, a, s => SQLite.dropTable catalog a.tableName s
  | .odbc _, a, s => ODBC.dropTable a.tableName s

/-- The table that the arguments name. SQLite's driver has one schema and takes the current catalog. -/
def Driver.IsNamed : Driver → Arguments → Impl → Text → Table → Prop
  | .sqlite current, a, _, catalog, t => catalog = current ∧ t.tableName = a.tableName
  | .odbc subtype, a, s, catalog, t =>
    catalog = ODBC.storedCatalog s a.catalog ∧ t.schemaName = a.schemaName ∧
      t.tableName = ODBC.storedName subtype a.schemaName a.tableName

instance : ∀ d a s catalog t, Decidable (Driver.IsNamed d a s catalog t)
  | .sqlite _, _, _, _, _ => inferInstanceAs (Decidable (_ ∧ _))
  | .odbc _, _, _, _, _ => inferInstanceAs (Decidable (_ ∧ _ ∧ _))

def Driver.entry : Driver → Arguments → Text
  | .sqlite _, a => a.tableName
  | .odbc _, a => a.schemaName ++ '.' :: a.tableName

def Driver.entryOf : Driver → Table → Text
  | .sqlite _, t => t.tableName
  | .odbc subtype, t =>
    if subtype = "Microsoft SQL Server".toList ∧ t.schemaName = "sys".toList then t.tableName
    else t.schemaName ++ '.' :: t.tableName

structure RemovesOnly (r : Removal) : Prop where
  tables : ∀ catalog, r.impl.tables.under catalog =
    (s.tables.under catalog).filter fun t => ¬ d.IsNamed a s catalog t
  tableNames : r.impl.tableNames = s.tableNames.filter (· ≠ d.entry a)
  otherNames : ∀ catalog, ∀ t ∈ s.tables.under catalog, ¬ d.IsNamed a s catalog t →
    d.entryOf t ∈ s.tableNames → d.entryOf t ∈ r.impl.tableNames
  once : r.deleted.Nodup
  exactly : ∀ o, o ∈ r.deleted ↔ ∃ catalog, ∃ t ∈ s.tables.under catalog, d.IsNamed a s catalog t ∧ o ∈ t.delete

/-- SQLite: the table has nothing that is deleted before it, and no other catalog uses its entry. ODBC: there are
only tables with the name, each the one meant, and `m_tableNames` has neither the bare name nor the entry. -/
def RemovalCondition : Driver → Arguments → Impl → Prop
  | .sqlite current, a, s =>
    (∀ t ∈ s.tables.under current, t.tableName = a.tableName → t.tableFields = [] ∧ t.foreignKeys.values.flatten = []) ∧
      (a.tableName ∈ s.tableNames → ∀ catalog, catalog ≠ current → ∀ t ∈ s.tables.under catalog,
        t.tableName ≠ a.tableName)
  | .odbc subtype, a, s =>
    (∀ catalog, ∀ t ∈ s.tables.under catalog,
      Driver.IsNamed (.odbc subtype) a s catalog t ∧ t.tableName = a.tableName) ∧
      a.tableName ∉ s.tableNames ∧ Driver.entry (.odbc subtype) a ∉ s.tableNames

theorem Table.mem_delete_self (t : Table) : .databaseTable t.address ∈ t.delete := by
  simp [Table.delete]

theorem Impl.delete_nodup {ts : List Table} (h : ts.Sublist s.tables.values.flatten) :
    (ts.flatMap Table.delete).Nodup := s.owned.sublist (h.flatMap Table.delete)

namespace SQLite

theorem deleteTable_eq_delete {t : Table} (hf : t.tableFields = []) (hk : t.foreignKeys.values.flatten = []) :
    deleteTable t = t.delete := by
  simp [deleteTable, Table.delete, Table.deleteFields, Table.deleteForeignKeys, hf, hk]

theorem deleteTable_nodup {t : Table} (h : (deleteTable t).Nodup) :
    t.tableFields = [] ∧ t.foreignKeys.values.flatten = [] := by
  rw [deleteTable, Table.delete, List.nodup_append] at h
  have hdisjoint := h.2.2
  constructor
  · apply List.map_eq_nil_iff.mp
    apply List.eq_nil_iff_forall_not_mem.mpr
    intro o ho
    exact hdisjoint o (List.mem_append_left _ ho) o (List.mem_append_left _ (List.mem_append_left _ ho)) rfl
  · apply List.map_eq_nil_iff.mp
    apply List.eq_nil_iff_forall_not_mem.mpr
    intro o ho
    exact hdisjoint o (List.mem_append_right _ ho) o (List.mem_append_left _ (List.mem_append_right _ ho)) rfl

theorem dropTable_tables (current catalog tableName : Text) :
    (dropTable current tableName s).impl.tables.under catalog =
      (s.tables.under catalog).filter fun t => ¬ (catalog = current ∧ t.tableName = tableName) := by
  change (s.tables.revise current _).under catalog = _
  rw [OrderedMap.under_revise]
  split_ifs with h
  · simp [h]
  · simp [h]

theorem dropTable_removesOnly (current : Text) :
    RemovesOnly (.sqlite current) a s (dropTable current a.tableName s) ↔ RemovalCondition (.sqlite current) a s := by
  constructor
  · intro h
    refine ⟨fun t ht hname => ?_, fun hentry catalog hcatalog t ht hname => ?_⟩
    · apply deleteTable_nodup
      exact (List.nodup_flatMap.mp h.once).1 t (List.mem_filter.mpr ⟨ht, by simpa using hname⟩)
    · have hkept : t.tableName ∈ s.tableNames.filter (· ≠ a.tableName) :=
        h.otherNames catalog t ht (fun hnamed => hcatalog hnamed.1) (by simpa [Driver.entryOf, hname] using hentry)
      simp [hname] at hkept
  · rintro ⟨hbare, hothers⟩
    have hdeleted : (dropTable current a.tableName s).deleted =
        ((s.tables.under current).filter fun t => t.tableName = a.tableName).flatMap Table.delete := by
      apply List.flatMap_congr
      intro t ht
      obtain ⟨ht, hname⟩ := List.mem_filter.mp ht
      obtain ⟨hf, hk⟩ := hbare t ht (by simpa using hname)
      exact deleteTable_eq_delete hf hk
    refine ⟨fun catalog => dropTable_tables s current catalog a.tableName, rfl, fun catalog t ht hnamed hentry => ?_,
      ?_, fun o => ?_⟩
    · refine List.mem_filter.mpr ⟨hentry, ?_⟩
      have hne : t.tableName ≠ a.tableName := by
        intro hname
        by_cases hcatalog : catalog = current
        · exact hnamed ⟨hcatalog, hname⟩
        · exact hothers (hname ▸ hentry) catalog hcatalog t ht hname
      exact decide_eq_true hne
    · rw [hdeleted]
      exact s.delete_nodup (List.filter_sublist.trans (OrderedMap.under_sublist current s.tables))
    · rw [hdeleted]
      simp only [List.mem_flatMap, List.mem_filter, decide_eq_true_eq]
      constructor
      · rintro ⟨t, ⟨ht, hname⟩, ho⟩
        exact ⟨current, t, ht, ⟨rfl, hname⟩, ho⟩
      · rintro ⟨catalog, t, ht, ⟨rfl, hname⟩, ho⟩
        exact ⟨t, ⟨ht, hname⟩, ho⟩

end SQLite

namespace ODBC

theorem entry_ne_tableName (schemaName tableName : Text) : schemaName ++ '.' :: tableName ≠ tableName := by
  intro h
  have hlength := congrArg List.length h
  simp only [List.length_append, List.length_cons] at hlength
  omega

theorem filter_ne_of_not_mem {name : Text} {names : List Text} (h : name ∉ names) : names.filter (· ≠ name) = names := by
  rw [List.filter_eq_self]
  intro n hn
  simpa using ne_of_mem_of_not_mem hn h

theorem filter_names_iff {name entry : Text} (hne : entry ≠ name) (names : List Text) :
    names.filter (· ≠ name) = names.filter (· ≠ entry) ↔ name ∉ names ∧ entry ∉ names := by
  constructor
  · intro h
    constructor
    · intro hname
      have hmem : name ∈ names.filter (· ≠ name) := h ▸ List.mem_filter.mpr ⟨hname, by simpa using hne.symm⟩
      simp at hmem
    · intro hentry
      have hmem : entry ∈ names.filter (· ≠ entry) := h ▸ List.mem_filter.mpr ⟨hentry, by simpa using hne⟩
      simp at hmem
  · rintro ⟨hname, hentry⟩
    rw [filter_ne_of_not_mem hname, filter_ne_of_not_mem hentry]

theorem dropTable_removesOnly (subtype : Text) :
    RemovesOnly (.odbc subtype) a s (dropTable a.tableName s) ↔ RemovalCondition (.odbc subtype) a s := by
  constructor
  · intro h
    have hnamed : ∀ catalog, ∀ t ∈ s.tables.under catalog, Driver.IsNamed (.odbc subtype) a s catalog t := by
      intro catalog t ht
      have hnil : [] = (s.tables.under catalog).filter fun t => ¬ Driver.IsNamed (.odbc subtype) a s catalog t :=
        (OrderedMap.under_clearLists catalog s.tables).symm.trans (h.tables catalog)
      by_contra hn
      exact List.filter_eq_nil_iff.mp hnil.symm t ht (by simpa using hn)
    refine ⟨fun catalog t ht => ⟨hnamed catalog t ht, ?_⟩,
      (filter_names_iff (entry_ne_tableName a.schemaName a.tableName) s.tableNames).mp h.tableNames⟩
    -- the table was deleted along with one of the bare name, which is the one that is named as well
    have hdeleted := (h.exactly _).mpr ⟨catalog, t, ht, hnamed catalog t ht, t.mem_delete_self⟩
    obtain ⟨u, hu, -⟩ := List.mem_flatMap.mp hdeleted
    obtain ⟨hu, hname⟩ := List.mem_filter.mp hu
    obtain ⟨other, hu⟩ := OrderedMap.mem_flatten_values.mp hu
    rw [(hnamed catalog t ht).2.2, ← (hnamed other u hu).2.2]
    exact of_decide_eq_true hname
  · rintro ⟨hall, hname, hentry⟩
    refine ⟨fun catalog => ?_, ?_, fun catalog t ht hn => absurd (hall catalog t ht).1 hn, ?_, fun o => ?_⟩
    · rw [List.filter_eq_nil_iff.mpr fun t ht => by simpa using (hall catalog t ht).1]
      exact OrderedMap.under_clearLists catalog s.tables
    · exact (filter_names_iff (entry_ne_tableName a.schemaName a.tableName) s.tableNames).mpr ⟨hname, hentry⟩
    · exact s.delete_nodup List.filter_sublist
    · simp only [dropTable, List.mem_flatMap, List.mem_filter, decide_eq_true_eq, OrderedMap.mem_flatten_values]
      constructor
      · rintro ⟨t, ⟨⟨catalog, ht⟩, -⟩, ho⟩
        exact ⟨catalog, t, ht, (hall catalog t ht).1, ho⟩
      · rintro ⟨catalog, t, ht, -, ho⟩
        exact ⟨t, ⟨⟨catalog, ht⟩, (hall catalog t ht).2⟩, ho⟩

end ODBC

theorem removesOnly_iff : RemovesOnly d a s (d.dropTable a s) ↔ RemovalCondition d a s := by
  cases d with
  | sqlite current => exact SQLite.dropTable_removesOnly a s current
  | odbc subtype => exact ODBC.dropTable_removesOnly a s subtype

def twoTables (tableNames : List Text) : Impl where
  tables := .ofEntries [("main".toList,
    [⟨1, "main".toList, "client".toList, [2], .ofEntries []⟩, ⟨3, "main".toList, "invoice".toList, [], .ofEntries []⟩])]
    (List.pairwise_singleton _ _)
  tableNames := tableNames
  dbName := "main".toList
  owned := by decide

theorem dropped_client_not_removed_alone :
    ¬ RemovesOnly (.sqlite "main".toList) ⟨[], [], "client".toList⟩ (twoTables ["client".toList, "invoice".toList])
        (Driver.dropTable (.sqlite "main".toList) ⟨[], [], "client".toList⟩
          (twoTables ["client".toList, "invoice".toList])) ∧
      ¬ RemovesOnly (.odbc "PostgreSQL".toList) ⟨"main".toList, "main".toList, "client".toList⟩
        (twoTables ["main.client".toList, "main.invoice".toList])
        (Driver.dropTable (.odbc "PostgreSQL".toList) ⟨"main".toList, "main".toList, "client".toList⟩
          (twoTables ["main.client".toList, "main.invoice".toList])) := by
  constructor
  · intro h
    exact absurd h.once (by decide)
  · intro h
    have hlost := h.tables "main".toList
    exact absurd (congrArg List.length hlost) (by decide)

end DbHandler.Catalog
