import Mathlib.Data.Char
import Mathlib.Data.List.Lex
import DbHandler.MySQL.FieldProperties
import DbHandler.Odbc.FieldProperties
import DbHandler.Postgres.FieldProperties

namespace DbHandler.FieldLookup

open Foundation

/-- Of `Database::Impl` the catalog and the current database. -/
structure Impl where
  tables : OrderedMap Text (List DatabaseTable)
  dbName : Text
  names_nodup : ∀ ts ∈ tables.values, (ts.map DatabaseTable.tableName).Nodup

structure Search where
  found : Bool := false
  schemaName : Text := []
  ownerName : Text := []
  deriving DecidableEq, Repr

/-- The loop over the tables goes on while there is another one or nothing is found: `none` where it reads the
place behind the last one. -/
def searchTables (table : Text) : List DatabaseTable → Search → Option Search
  | [], s => if s.found then some s else none
  | t :: ts, s => searchTables table ts (if t.tableName = table then ⟨true, t.schemaName, t.owner⟩ else s)

def searchDatabases (table dbName : Text) : List (Text × List DatabaseTable) → Search → Option Search
  | [], s => some s
  | (name, ts) :: rest, s =>
    if name = dbName then (searchTables table ts s).bind (searchDatabases table dbName rest)
    else searchDatabases table dbName rest s

/-- A call of the function of the same name to which the schema and the owner are given. -/
structure Queried (α : Type) where
  schemaName : Text
  ownerName : Text
  result : α

def ask {α : Type} (query : Text → Text → Text → Text → α) (table schemaName ownerName fieldName : Text) : Queried α where
  schemaName := schemaName
  ownerName := ownerName
  result := query table schemaName ownerName fieldName

def getFieldProperties {α : Type} (query : Text → Text → Text → Text → α) (table fieldName : Text) (i : Impl) :
    Option (Queried α) :=
  (searchDatabases table i.dbName i.tables.entries {}).map fun s => ask query table s.schemaName s.ownerName fieldName

section Drivers

variable {δ : Type} (table fieldName : Text) (p : FieldProperties)

def postgresQuery (c : Postgres.Client δ) (s : Postgres.Session δ) (table schemaName ownerName fieldName : Text) :
    ℕ × FieldProperties × Postgres.Session δ :=
  Postgres.getFieldProperties c schemaName ⟨table, ownerName, fieldName⟩ p s

def mySQLQuery (c : MySQL.Client δ) (s : MySQL.Session δ) (table schemaName ownerName fieldName : Text) :
    Option (ℕ × FieldProperties × MySQL.Session δ) :=
  MySQL.getFieldProperties c schemaName ⟨table, ownerName, fieldName⟩ p s

/-- The names are bound too late to be read. -/
def odbcQuery (m : Odbc.Manager δ) (o : Odbc.Object δ) (_table _schemaName _ownerName _fieldName : Text) :
    ℕ × FieldProperties × Odbc.Object δ :=
  Odbc.getFieldProperties m p o

end Drivers

namespace Impl

variable (i : Impl)

def currentTables : List DatabaseTable := i.tables.under i.dbName

def tableNamed (table : Text) : Option DatabaseTable := i.currentTables.find? fun t => t.tableName = table

def schemaOf (table : Text) : Text := (i.tableNamed table).elim [] DatabaseTable.schemaName

def ownerOf (table : Text) : Text := (i.tableNamed table).elim [] DatabaseTable.owner

end Impl

theorem searchTables_eq {table : Text} {ts : List DatabaseTable} (hnodup : (ts.map DatabaseTable.tableName).Nodup)
    (s : Search) :
    searchTables table ts s = match ts.find? fun t => t.tableName = table with
      | some t => some ⟨true, t.schemaName, t.owner⟩
      | none => if s.found then some s else none := by
  induction ts generalizing s with
  | nil => rfl
  | cons t ts ih =>
    obtain ⟨hnot, hrest⟩ := List.nodup_cons.mp hnodup
    rw [searchTables, ih hrest]
    by_cases hname : t.tableName = table
    · have hnone : (ts.find? fun u => u.tableName = table) = none := by
        rw [List.find?_eq_none]
        intro u hu hsame
        apply hnot
        rw [hname, ← of_decide_eq_true hsame]
        exact List.mem_map_of_mem hu
      rw [if_pos hname, hnone, List.find?_cons_of_pos (by simpa using hname)]
      rfl
    · rw [if_neg hname, List.find?_cons_of_neg (by simpa using hname)]

theorem searchDatabases_absent {table dbName : Text} {es : List (Text × List DatabaseTable)}
    (h : dbName ∉ es.map Prod.fst) (s : Search) : searchDatabases table dbName es s = some s := by
  induction es with
  | nil => rfl
  | cons e es ih =>
    obtain ⟨name, ts⟩ := e
    obtain ⟨hne, hrest⟩ : dbName ≠ name ∧ dbName ∉ es.map Prod.fst := by simpa using h
    rw [searchDatabases, if_neg hne.symm]
    exact ih hrest

/-- A key of the map stands in it once, so the tables of one database are searched. -/
theorem searchDatabases_present {table dbName : Text} {es : List (Text × List DatabaseTable)}
    (hkeys : (es.map Prod.fst).Nodup) {ts : List DatabaseTable} (h : (dbName, ts) ∈ es) (s : Search) :
    searchDatabases table dbName es s = searchTables table ts s := by
  induction es with
  | nil => exact absurd h List.not_mem_nil
  | cons e es ih =>
    obtain ⟨name, us⟩ := e
    obtain ⟨hnot, hrest⟩ := List.nodup_cons.mp hkeys
    rw [searchDatabases]
    rcases List.mem_cons.mp h with hsame | hmem
    · obtain ⟨rfl, rfl⟩ := Prod.mk.inj hsame
      rw [if_pos rfl]
      have hdone : searchDatabases table dbName es = some := funext (searchDatabases_absent hnot)
      rw [hdone]
      exact Option.bind_fun_some _
    · have hne : name ≠ dbName := by
        intro hsame
        apply hnot
        simpa only [hsame] using List.mem_map_of_mem (f := Prod.fst) hmem
      rw [if_neg hne]
      exact ih hrest hmem

variable {i : Impl}

theorem under_eq {ts : List DatabaseTable} (h : (i.dbName, ts) ∈ i.tables.entries) : i.currentTables = ts := by
  rw [Impl.currentTables, OrderedMap.under, OrderedMap.lookup_of_mem h]
  rfl

theorem currentTables_absent (h : i.dbName ∉ i.tables.keys) : i.currentTables = [] := by
  rw [Impl.currentTables, OrderedMap.under]
  cases hlookup : i.tables.lookup i.dbName with
  | none => rfl
  | some ts =>
    obtain ⟨e, he, -⟩ := Option.map_eq_some_iff.mp hlookup
    have hname : e.1 = i.dbName := by simpa using List.find?_some he
    exact absurd (List.mem_map.mpr ⟨e, List.mem_of_find?_eq_some he, hname⟩) h

/-- The search ends at a table of that name, or is not made because the database has no list of tables. -/
theorem getFieldProperties_eq_some_iff {α : Type} (query : Text → Text → Text → Text → α) (table fieldName : Text) :
    getFieldProperties query table fieldName i = some (ask query table (i.schemaOf table) (i.ownerOf table) fieldName) ↔
      (i.dbName ∈ i.tables.keys → ∃ t ∈ i.currentTables, t.tableName = table) := by
  unfold getFieldProperties
  by_cases hkey : i.dbName ∈ i.tables.keys
  · obtain ⟨⟨name, ts⟩, hmem, hname⟩ : ∃ e ∈ i.tables.entries, e.1 = i.dbName := List.mem_map.mp hkey
    obtain rfl : name = i.dbName := hname
    have hnodup : (ts.map DatabaseTable.tableName).Nodup := i.names_nodup ts (List.mem_map_of_mem hmem)
    have hcurrent : i.currentTables = ts := under_eq hmem
    rw [searchDatabases_present i.tables.nodup_keys hmem, searchTables_eq hnodup, Impl.schemaOf, Impl.ownerOf, Impl.tableNamed,
      hcurrent]
    cases hfind : ts.find? fun t => t.tableName = table with
    | some t =>
      refine iff_of_true rfl fun _ => ⟨t, List.mem_of_find?_eq_some hfind, ?_⟩
      simpa using List.find?_some hfind
    | none =>
      refine iff_of_false (fun h => nomatch h) fun h => ?_
      obtain ⟨t, ht, hname⟩ := h hkey
      rw [List.find?_eq_none] at hfind
      exact hfind t ht (by simpa using hname)
  · rw [searchDatabases_absent hkey, Impl.schemaOf, Impl.ownerOf, Impl.tableNamed, currentTables_absent hkey]
    exact iff_of_true rfl fun h => absurd h hkey

/-- The three drivers search alike. -/
theorem field_lookup_iff {δ ε ζ : Type} (postgres : Postgres.Client δ) (mySQL : MySQL.Client ε) (odbc : Odbc.Manager ζ)
    (s : Postgres.Session δ) (t : MySQL.Session ε) (o : Odbc.Object ζ) (p : FieldProperties) (i : Impl)
    (table fieldName : Text) :
    (getFieldProperties (postgresQuery p postgres s) table fieldName i =
        some (ask (postgresQuery p postgres s) table (i.schemaOf table) (i.ownerOf table) fieldName) ↔
      (i.dbName ∈ i.tables.keys → ∃ t ∈ i.currentTables, t.tableName = table)) ∧
    (getFieldProperties (mySQLQuery p mySQL t) table fieldName i =
        some (ask (mySQLQuery p mySQL t) table (i.schemaOf table) (i.ownerOf table) fieldName) ↔
      (i.dbName ∈ i.tables.keys → ∃ t ∈ i.currentTables, t.tableName = table)) ∧
    (getFieldProperties (odbcQuery p odbc o) table fieldName i =
        some (ask (odbcQuery p odbc o) table (i.schemaOf table) (i.ownerOf table) fieldName) ↔
      (i.dbName ∈ i.tables.keys → ∃ t ∈ i.currentTables, t.tableName = table)) :=
  ⟨getFieldProperties_eq_some_iff _ table fieldName, getFieldProperties_eq_some_iff _ table fieldName,
    getFieldProperties_eq_some_iff _ table fieldName⟩

/-- A database without tables. -/
def emptyShop : Impl where
  tables := .ofEntries [("shop".toList, [])] (List.pairwise_singleton _ _)
  dbName := "shop".toList
  names_nodup ts hts := by
    obtain rfl : ts = [] := List.mem_singleton.mp hts
    exact List.nodup_nil

theorem emptyShop_reads_beyond :
    ¬ ∀ (i : Impl) (table fieldName : Text) (query : Text → Text → Text → Text → ℕ),
      getFieldProperties query table fieldName i =
        some (ask query table (i.schemaOf table) (i.ownerOf table) fieldName) := by
  intro h
  exact nomatch h emptyShop "invoice".toList "number".toList fun _ _ _ _ => 0

end DbHandler.FieldLookup
