import Mathlib.Data.Finset.Card
import Mathlib.Data.List.TakeWhile
import DbHandler.Postgres.Tables

namespace DbHandler.PostgresForeignKeys

open Foundation Postgres

/-- `confmatchtype`, as `match_option` has it. -/
inductive MatchOption
  | full
  | partly
  | simple
  deriving DecidableEq, Repr

def MatchOption.name : MatchOption → Text
  | .full => "FULL".toList
  | .partly => "PARTIAL".toList
  | .simple => "NONE".toList

def MatchOption.number : MatchOption → ℤ
  | .full => 0
  | .partly => 1
  | .simple => 2

def nul : Char := Char.ofNat 0

structure PlainText where
  text : Text
  plain : nul ∉ text
  deriving DecidableEq

/-- A row of `get_fkeys`. -/
structure KeyRow where
  oid : Fin (2 ^ 32)
  position : Fin (2 ^ 31)
  name : PlainText
  schema : PlainText
  table : PlainText
  column : PlainText
  refSchema : PlainText
  refTable : PlainText
  refColumn : PlainText
  update : FkOnUpdate
  delete : FkOnDelete
  matchOption : MatchOption
  deriving DecidableEq

def bigEndian (n : ℕ) : Text := [n / 2 ^ 24 % 256, n / 2 ^ 16 % 256, n / 2 ^ 8 % 256, n % 256].map Char.ofNat

def KeyRow.cells (row : KeyRow) : List Text :=
  [bigEndian row.oid, bigEndian row.position, row.name.text, row.schema.text, row.table.text, row.column.text,
    row.refSchema.text, row.refTable.text, row.refColumn.text, row.update.name, row.delete.name, row.matchOption.name]

def sameKey (rows : List KeyRow) (oid : Fin (2 ^ 32)) : List KeyRow := rows.filter fun row => row.oid = oid

structure Carries (rows : List KeyRow) (field : FKField) (row : KeyRow) : Prop where
  original : field.originalField = row.column.text
  referenced : field.referencedField = row.refColumn.text
  table : field.refTable = row.refTable.text
  update : field.updateConstraint = row.update
  delete : field.deleteConstraint = row.delete
  matchOption : field.matchOption = row.matchOption.number
  origFields : field.origFields = (sameKey rows row.oid).map fun r => r.column.text
  refFields : field.refFields = (sameKey rows row.oid).map fun r => r.refColumn.text

structure Loads (rows : List KeyRow) (keys : ForeignKeyMap) (key : Fin (2 ^ 32) → ℕ) : Prop where
  injOn : ∀ r ∈ rows, ∀ r' ∈ rows, key r.oid = key r'.oid → r.oid = r'.oid
  mem_keys : ∀ n, n ∈ keys.keys ↔ ∃ row ∈ rows, key row.oid = n
  fields : ∀ row ∈ rows, List.Forall₂ (Carries rows) (keys.under (key row.oid)) (sameKey rows row.oid)

def misreadOid (oid : Fin (2 ^ 32)) : ℤ := atoi (valueText (bigEndian oid))

structure Readable (rows : List KeyRow) : Prop where
  apart : ∀ r ∈ rows, ∀ r' ∈ rows, misreadOid r.oid = misreadOid r'.oid → r.oid = r'.oid
  simple : ∀ row ∈ rows, row.matchOption = .simple

section Cells

theorem valueText_plain (t : PlainText) : valueText t.text = t.text := by
  obtain ⟨text, hplain⟩ := t
  refine List.takeWhile_eq_self_iff.mpr fun c hc => ?_
  have hne : c ≠ nul := fun h => hplain (h ▸ hc)
  simpa [nul] using hne

variable (row : KeyRow)

theorem readInt_oid : readInt row.cells 0 = misreadOid row.oid := rfl

theorem readText_column : readText row.cells 5 = row.column.text := valueText_plain row.column

theorem readText_refTable : readText row.cells 7 = row.refTable.text := valueText_plain row.refTable

theorem readText_refColumn : readText row.cells 8 = row.refColumn.text := valueText_plain row.refColumn

theorem readText_update : readText row.cells 9 = row.update.name := by
  change valueText row.update.name = row.update.name
  cases row.update <;> rfl

theorem readText_delete : readText row.cells 10 = row.delete.name := by
  change valueText row.delete.name = row.delete.name
  cases row.delete <;> rfl

theorem fkMatch_cells : fkMatch (readText row.cells 11) = 2 := by
  change fkMatch (valueText row.matchOption.name) = 2
  cases row.matchOption <;> rfl

end Cells

theorem misreadOid_bounds (oid : Fin (2 ^ 32)) : -(10 ^ 4) < misreadOid oid ∧ misreadOid oid < 10 ^ 4 := by
  have hlength : (valueText (bigEndian oid)).length ≤ 4 := (List.takeWhile_sublist _).length_le
  obtain ⟨hlow, hhigh⟩ := atoi_bounds (valueText (bigEndian oid))
  have hpow : (10 : ℤ) ^ (valueText (bigEndian oid)).length ≤ 10 ^ 4 := by
    exact_mod_cast Nat.pow_le_pow_right (by omega : 0 < 10) hlength
  rw [misreadOid]
  omega

def keyOf (oid : Fin (2 ^ 32)) : ℕ := unsignedLong (misreadOid oid)

theorem keyOf_eq_iff {a b : Fin (2 ^ 32)} : keyOf a = keyOf b ↔ misreadOid a = misreadOid b := by
  obtain ⟨ha, ha'⟩ := misreadOid_bounds a
  obtain ⟨hb, hb'⟩ := misreadOid_bounds b
  constructor
  · intro h
    simp only [keyOf, unsignedLong] at h
    omega
  · intro h
    rw [keyOf, h, keyOf]

def listsOf (rows : List KeyRow) : KeyLists ℤ :=
  ⟨OrderedMap.empty.gather (fun row => misreadOid row.oid) (fun row => row.column.text) rows,
    OrderedMap.empty.gather (fun row => misreadOid row.oid) (fun row => row.refColumn.text) rows⟩

theorem foldl_collectRow (rows : List KeyRow) (lists : KeyLists ℤ) :
    (rows.map KeyRow.cells).foldl collectRow lists =
      ⟨lists.origFields.gather (fun row => misreadOid row.oid) (fun row => row.column.text) rows,
        lists.refFields.gather (fun row => misreadOid row.oid) (fun row => row.refColumn.text) rows⟩ := by
  induction rows generalizing lists with
  | nil => rfl
  | cons row rows ih =>
    rw [List.map_cons, List.foldl_cons, ih, collectRow, readInt_oid, readText_column, readText_refColumn]
    rfl

def fieldOf (lists : KeyLists ℤ) (row : KeyRow) : FKField := foreignKeyField lists row.cells row.update row.delete

theorem loadRow_cells (lists : KeyLists ℤ) (st : KeyScan) (row : KeyRow) :
    loadRow lists st row.cells = ⟨row.update, row.delete, st.keys.foreignKeys.push (keyOf row.oid) (fieldOf lists row),
      st.keys.fkNames ++ [row.column.text]⟩ := by
  rw [loadRow, readText_update, readText_delete, readOnUpdate_name, readOnDelete_name, readInt_oid, readText_column]
  rfl

theorem foldl_loadRow (lists : KeyLists ℤ) (rows : List KeyRow) (st : KeyScan) :
    ((rows.map KeyRow.cells).foldl (loadRow lists) st).keys =
      ⟨st.keys.foreignKeys.gather (fun row => keyOf row.oid) (fieldOf lists) rows,
        st.keys.fkNames ++ rows.map fun row => row.column.text⟩ := by
  induction rows generalizing st with
  | nil => simp [OrderedMap.gather]
  | cons row rows ih =>
    rw [List.map_cons, List.foldl_cons, ih, loadRow_cells]
    simp [OrderedMap.gather]

theorem readForeignKeys_cells (rows : List KeyRow) :
    readForeignKeys (rows.map KeyRow.cells) =
      ⟨(OrderedMap.ofEntries [] .nil).gather (fun row => keyOf row.oid) (fieldOf (listsOf rows)) rows,
        rows.map fun row => row.column.text⟩ := by
  rw [readForeignKeys, foldl_loadRow, foldl_collectRow]
  rfl

section Loaded

variable {rows : List KeyRow}

theorem mem_loaded_keys {n : ℕ} :
    n ∈ (readForeignKeys (rows.map KeyRow.cells)).foreignKeys.keys ↔ ∃ row ∈ rows, keyOf row.oid = n := by
  simp [readForeignKeys_cells, OrderedMap.mem_keys_gather]

theorem under_loaded (n : ℕ) : (readForeignKeys (rows.map KeyRow.cells)).foreignKeys.under n =
    (rows.filter fun row => keyOf row.oid = n).map (fieldOf (listsOf rows)) := by
  simp [readForeignKeys_cells, OrderedMap.under_gather]

theorem fieldOf_matchOption (lists : KeyLists ℤ) (row : KeyRow) : (fieldOf lists row).matchOption = 2 :=
  fkMatch_cells row

theorem MatchOption.number_eq_two {m : MatchOption} : m.number = 2 ↔ m = .simple := by
  cases m <;> simp [MatchOption.number]

theorem apart_of_loads {key : Fin (2 ^ 32) → ℕ}
    (h : Loads rows (readForeignKeys (rows.map KeyRow.cells)).foreignKeys key) :
    ∀ r ∈ rows, ∀ r' ∈ rows, misreadOid r.oid = misreadOid r'.oid → r.oid = r'.oid := by
  let oids := (rows.map KeyRow.oid).toFinset
  have hsame : oids.image keyOf = oids.image key := by
    ext n
    simp only [oids, Finset.mem_image, List.mem_toFinset, List.mem_map, exists_exists_and_eq_and]
    exact mem_loaded_keys.symm.trans (h.mem_keys n)
  have hinj : Set.InjOn key oids := by
    intro a ha b hb hab
    simp only [oids, Finset.mem_coe, List.mem_toFinset, List.mem_map] at ha hb
    obtain ⟨r, hr, rfl⟩ := ha
    obtain ⟨r', hr', rfl⟩ := hb
    exact h.injOn r hr r' hr' hab
  have hcard : (oids.image keyOf).card = oids.card := by
    rw [hsame, Finset.card_image_of_injOn hinj]
  have hkeyOf : Set.InjOn keyOf oids := Finset.card_image_iff.mp hcard
  intro r hr r' hr' hmisread
  refine hkeyOf ?_ ?_ (keyOf_eq_iff.mpr hmisread)
  · simpa [oids] using ⟨r, hr, rfl⟩
  · simpa [oids] using ⟨r', hr', rfl⟩

theorem exists_of_forall₂ {α β : Type} {R : α → β → Prop} {xs : List α} {ys : List β} (h : List.Forall₂ R xs ys) {y : β}
    (hy : y ∈ ys) : ∃ x ∈ xs, R x y := by
  induction h with
  | nil => cases hy
  | cons hxy _ ih =>
    rcases List.mem_cons.mp hy with rfl | hy
    · exact ⟨_, List.mem_cons_self, hxy⟩
    · obtain ⟨x, hx, hR⟩ := ih hy
      exact ⟨x, List.mem_cons_of_mem _ hx, hR⟩

theorem simple_of_loads {key : Fin (2 ^ 32) → ℕ}
    (h : Loads rows (readForeignKeys (rows.map KeyRow.cells)).foreignKeys key) :
    ∀ row ∈ rows, row.matchOption = .simple := by
  intro row hrow
  have hmem : row ∈ sameKey rows row.oid := List.mem_filter.mpr ⟨hrow, by simp⟩
  obtain ⟨field, hfield, hcarries⟩ : ∃ field ∈ (readForeignKeys (rows.map KeyRow.cells)).foreignKeys.under (key row.oid),
      Carries rows field row := exists_of_forall₂ (h.fields row hrow) hmem
  rw [under_loaded] at hfield
  obtain ⟨other, -, rfl⟩ := List.mem_map.mp hfield
  have hnumber := hcarries.matchOption
  rw [fieldOf_matchOption] at hnumber
  exact MatchOption.number_eq_two.mp hnumber.symm

theorem carries_fieldOf (h : Readable rows) {row : KeyRow} (hrow : row ∈ rows) :
    Carries rows (fieldOf (listsOf rows) row) row := by
  have hfilter : (rows.filter fun r => misreadOid r.oid = misreadOid row.oid) = sameKey rows row.oid := by
    refine List.filter_congr fun r hr => ?_
    have happart : misreadOid r.oid = misreadOid row.oid ↔ r.oid = row.oid :=
      ⟨fun hmisread => h.apart r hr row hrow hmisread, fun hoid => by rw [hoid]⟩
    simp [happart]
  refine ⟨readText_column row, readText_refColumn row, readText_refTable row, rfl, rfl, ?_, ?_, ?_⟩
  · rw [fieldOf_matchOption, h.simple row hrow]
    rfl
  · change (listsOf rows).origFields.under (misreadOid row.oid) = _
    simp [listsOf, OrderedMap.under_gather, hfilter]
  · change (listsOf rows).refFields.under (misreadOid row.oid) = _
    simp [listsOf, OrderedMap.under_gather, hfilter]

theorem loads_of_readable (h : Readable rows) :
    Loads rows (readForeignKeys (rows.map KeyRow.cells)).foreignKeys keyOf := by
  have happart : ∀ row ∈ rows, ∀ r ∈ rows, keyOf r.oid = keyOf row.oid ↔ r.oid = row.oid := fun row hrow r hr =>
    ⟨fun hkey => h.apart r hr row hrow (keyOf_eq_iff.mp hkey), fun hoid => by rw [hoid]⟩
  refine ⟨fun r hr r' hr' hkey => (happart r' hr' r hr).mp hkey, fun n => mem_loaded_keys, fun row hrow => ?_⟩
  have hfilter : (rows.filter fun r => keyOf r.oid = keyOf row.oid) = sameKey rows row.oid :=
    List.filter_congr fun r hr => by simp [happart row hrow r hr]
  rw [under_loaded, hfilter, List.forall₂_map_left_iff]
  exact List.forall₂_same.mpr fun r hr => carries_fieldOf h (List.mem_of_mem_filter hr)

theorem loads_iff : (∃ key, Loads rows (readForeignKeys (rows.map KeyRow.cells)).foreignKeys key) ↔ Readable rows :=
  ⟨fun ⟨_, h⟩ => ⟨apart_of_loads h, simple_of_loads h⟩, fun h => ⟨keyOf, loads_of_readable h⟩⟩

end Loaded

theorem foreign_keys_loaded_iff (catalog schemaName tableName ownerName : Text) {rows : List KeyRow} {a : TableAnswers}
    {columns : List (List Text)} (ha : a.Complete (rows.map KeyRow.cells) columns) (s : Catalogs) :
    ∃ table, addDropTable catalog schemaName tableName ownerName a s =
      (0, { s with tables := s.tables.push catalog table }) ∧
        ((∃ key, Loads rows table.foreignKeys key) ↔ Readable rows) :=
  ⟨_, addDropTable_complete ha catalog schemaName tableName ownerName s, loads_iff⟩

def plain (t : Text) (h : nul ∉ t := by decide) : PlainText := ⟨t, h⟩

def publicSchema : PlainText := plain "public".toList

def idText : PlainText := plain "id".toList

def firstPosition : Fin (2 ^ 31) := 1

def toOrders (oid : Fin (2 ^ 32)) (column : PlainText) : KeyRow where
  oid := oid
  position := firstPosition
  name := column
  schema := publicSchema
  table := plain "lines".toList
  column := column
  refSchema := publicSchema
  refTable := plain "orders".toList
  refColumn := idText
  update := .noAction
  delete := .cascade
  matchOption := .simple

def keyAnswers (rows : List KeyRow) : TableAnswers where
  fkeys := .tuplesOk (rows.map KeyRow.cells)
  columns := .tuplesOk []
  fieldProperties _ := true
  tableProperties := true
  indexes := .tuplesOk []

theorem keyAnswers_complete (rows : List KeyRow) : (keyAnswers rows).Complete (rows.map KeyRow.cells) [] :=
  ⟨rfl, rfl, fun _ _ => rfl, rfl, rfl⟩

theorem loads_single : ∃ table, addDropTable "shop".toList "public".toList "lines".toList [] (keyAnswers
      [toOrders 16400 (plain "order".toList)]) ⟨.ofEntries [], []⟩ =
    (0, ⟨(OrderedMap.ofEntries []).push "shop".toList table, []⟩) ∧
      ((∃ key, Loads [toOrders 16400 (plain "order".toList)] table.foreignKeys key) ↔
        Readable [toOrders 16400 (plain "order".toList)]) :=
  foreign_keys_loaded_iff _ _ _ _ (keyAnswers_complete _) ⟨.ofEntries [], []⟩

theorem constraints_merged : ∃ table, addDropTable "shop".toList "public".toList "lines".toList [] (keyAnswers
      [toOrders 16400 (plain "invoice".toList), toOrders 16410 (plain "order".toList)]) ⟨.ofEntries [], []⟩ =
    (0, ⟨(OrderedMap.ofEntries []).push "shop".toList table, []⟩) ∧
      ¬ ∃ key, Loads [toOrders 16400 (plain "invoice".toList), toOrders 16410 (plain "order".toList)]
        table.foreignKeys key := by
  refine ⟨_, addDropTable_complete (keyAnswers_complete _) _ _ _ _ _, fun h => ?_⟩
  have hreadable := loads_iff.mp h
  exact absurd (hreadable.apart _ List.mem_cons_self _ (List.mem_cons_of_mem _ List.mem_cons_self) (by decide)) (by decide)

end DbHandler.PostgresForeignKeys
