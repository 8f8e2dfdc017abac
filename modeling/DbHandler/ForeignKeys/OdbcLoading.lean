import Mathlib.Data.List.Nodup
import Mathlib.Data.List.TakeDrop
import DbHandler.Odbc.ForeignKeys

namespace DbHandler.OdbcForeignKeys

open Odbc

structure KeyColumn where
  fkName : Text
  original : Text
  referenced : Text
  onUpdate : FkOnUpdate
  onDelete : FkOnDelete
  deriving DecidableEq, Repr

def keyColumn (field : FKField) : KeyColumn :=
  ⟨field.fkName, field.originalField, field.referencedField, field.updateConstraint, field.deleteConstraint⟩

def ownUpdate : ReferentialRule → FkOnUpdate
  | .cascade => .cascade
  | .restrict => .restrict
  | .setNull => .setNull
  | .noAction => .noAction
  | .setDefault => .setDefault

def ownDelete : ReferentialRule → FkOnDelete
  | .cascade => .cascade
  | .restrict => .restrict
  | .setNull => .setNull
  | .noAction => .noAction
  | .setDefault => .setDefault

structure ForeignKey where
  name : Text
  refSchema : Option Text
  refTable : Text
  first : Text × Text
  rest : List (Text × Text)
  updateRule : ReferentialRule
  deleteRule : ReferentialRule

namespace ForeignKey

def columns (k : ForeignKey) : List (Text × Text) := k.first :: k.rest

def row (k : ForeignKey) (sequence : ℕ) (c : Text × Text) : ForeignKeyRow :=
  ⟨k.refSchema, k.refTable, c.2, c.1, sequence, k.updateRule, k.deleteRule, some k.name⟩

/-- KEY_SEQ counts the columns of each constraint from 1. -/
def rowsFrom (k : ForeignKey) : ℕ → List (Text × Text) → List ForeignKeyRow
  | _, [] => []
  | n, c :: cs => k.row n c :: k.rowsFrom (n + 1) cs

def rows (k : ForeignKey) : List ForeignKeyRow := k.rowsFrom 1 k.columns

def keyColumns (k : ForeignKey) : List KeyColumn :=
  k.columns.map fun c => ⟨k.name, c.1, c.2, ownUpdate k.updateRule, ownDelete k.deleteRule⟩

end ForeignKey

structure ReferencingTable where
  columns : List Text
  keys : List ForeignKey
  nodup_names : (keys.map ForeignKey.name).Nodup
  columns_mem : ∀ k ∈ keys, ∀ c ∈ k.columns, c.1 ∈ columns

def Precedes (a b : ForeignKeyRow) : Prop :=
  let referenced := fun row : ForeignKeyRow => [row.pkSchema.getD [], row.pkTable]
  referenced a < referenced b ∨ referenced a = referenced b ∧ a.keySequence ≤ b.keySequence

structure ReferencingTable.Reports (t : ReferencingTable) (rows : List ForeignKeyRow) : Prop where
  perm : rows.Perm (t.keys.flatMap ForeignKey.rows)
  ordered : rows.Pairwise Precedes

structure Loads (t : ReferencingTable) (loaded : LoadedKeys) : Prop where
  keys : (loaded.foreignKeys.values.map (List.map keyColumn)).Perm (t.keys.map ForeignKey.keyColumns)
  flags : ∀ c ∈ t.columns, columnFk loaded c ↔ ∃ k ∈ t.keys, c ∈ k.columns.map Prod.fst

structure ForeignKey.Symmetric (k : ForeignKey) : Prop where
  single : k.rest = []
  same : k.first.1 = k.first.2
  column : k.first.1.length < 64
  name : k.name.length < 128
  update : k.updateRule ≠ .restrict
  delete : k.deleteRule ≠ .restrict

def OneSymmetric : List ForeignKey → Prop
  | [] => True
  | [k] => k.Symmetric
  | _ => False

namespace ForeignKey

theorem mem_rowsFrom {k : ForeignKey} {row : ForeignKeyRow} {n : ℕ} {cs : List (Text × Text)}
    (h : row ∈ k.rowsFrom n cs) : row.fkName = some k.name := by
  induction cs generalizing n with
  | nil => cases h
  | cons c cs ih =>
    rcases List.mem_cons.mp h with rfl | h
    · rfl
    · exact ih h

theorem row_mem_rows (k : ForeignKey) : k.row 1 k.first ∈ k.rows := List.mem_cons_self

end ForeignKey

namespace ReferencingTable.Reports

variable {t : ReferencingTable} {rows : List ForeignKeyRow} (h : t.Reports rows)

include h

theorem mem_iff {row : ForeignKeyRow} : row ∈ rows ↔ ∃ k ∈ t.keys, row ∈ k.rows := by
  rw [h.perm.mem_iff, List.mem_flatMap]

theorem named {row : ForeignKeyRow} (hrow : row ∈ rows) : ∃ k ∈ t.keys, row.fkName = some k.name := by
  obtain ⟨k, hk, hrow⟩ := h.mem_iff.mp hrow
  exact ⟨k, hk, ForeignKey.mem_rowsFrom hrow⟩

theorem isSome_name {row : ForeignKeyRow} (hrow : row ∈ rows) : row.fkName.isSome := by
  obtain ⟨k, -, hk⟩ := h.named hrow
  simp [hk]

theorem eq_nil_iff : rows = [] ↔ t.keys = [] := by
  constructor
  · rintro rfl
    refine List.eq_nil_iff_forall_not_mem.mpr fun k hk => ?_
    have hrow := h.mem_iff.mpr ⟨k, hk, k.row_mem_rows⟩
    cases hrow
  · intro hkeys
    refine List.eq_nil_iff_forall_not_mem.mpr fun row hrow => ?_
    obtain ⟨k, hk, -⟩ := h.mem_iff.mp hrow
    rw [hkeys] at hk
    cases hk

end ReferencingTable.Reports

def readColumn (subtype : Text) (row : ForeignKeyRow) : KeyColumn :=
  ⟨(row.fkName.map (bound fkNameLength)).getD [], bound maxNameLength row.pkColumn, bound maxNameLength row.fkColumn,
    onUpdate subtype row.updateRule, onDelete subtype row.deleteRule⟩

section SecondPass

variable {subtype schemaName tableName : Text} {fields : KeyFields}

theorem keyColumn_foreignKeyField {b : ForeignKeyBuffers} {row : ForeignKeyRow} (hname : row.fkName.isSome) :
    keyColumn (foreignKeyField subtype schemaName tableName fields (b.fetch row) row) = readColumn subtype row := by
  obtain ⟨name, hname⟩ := Option.isSome_iff_exists.mp hname
  simp [keyColumn, foreignKeyField, ForeignKeyBuffers.fetch, readColumn, hname]

theorem fkFieldNames_loadRows (rows : List ForeignKeyRow) (st : ForeignKeyBuffers × LoadedKeys) :
    (rows.foldl (loadRow subtype schemaName tableName fields) st).2.fkFieldNames =
      st.2.fkFieldNames ++ rows.map fun row => bound maxNameLength row.pkColumn := by
  induction rows generalizing st with
  | nil => simp
  | cons row rows ih => simp [ih, loadRow]

theorem mem_keys_loadRows {k : ℕ} (rows : List ForeignKeyRow) (st : ForeignKeyBuffers × LoadedKeys) :
    k ∈ (rows.foldl (loadRow subtype schemaName tableName fields) st).2.foreignKeys.keys ↔
      k ∈ st.2.foreignKeys.keys ∨ ∃ row ∈ rows, row.keySequence = k := by
  induction rows generalizing st with
  | nil => simp
  | cons row rows ih =>
    rw [List.foldl_cons, ih, loadRow, Foundation.OrderedMap.push, Foundation.OrderedMap.mem_keys_upsert]
    constructor
    · rintro ((rfl | h) | ⟨r, hr, rfl⟩)
      · exact .inr ⟨row, by simp, rfl⟩
      · exact .inl h
      · exact .inr ⟨r, List.mem_cons_of_mem _ hr, rfl⟩
    · rintro (h | ⟨r, hr, rfl⟩)
      · exact .inl (.inr h)
      · rcases List.mem_cons.mp hr with rfl | hr
        · exact .inl (.inl rfl)
        · exact .inr ⟨r, hr, rfl⟩

theorem under_loadRows (k : ℕ) {rows : List ForeignKeyRow} (hnames : ∀ row ∈ rows, row.fkName.isSome)
    (st : ForeignKeyBuffers × LoadedKeys) :
    ((rows.foldl (loadRow subtype schemaName tableName fields) st).2.foreignKeys.under k).map keyColumn =
      (st.2.foreignKeys.under k).map keyColumn ++
        (rows.filter fun row => row.keySequence = k).map (readColumn subtype) := by
  induction rows generalizing st with
  | nil => simp
  | cons row rows ih =>
    rw [List.foldl_cons, ih fun r hr => hnames r (List.mem_cons_of_mem _ hr), loadRow,
      Foundation.OrderedMap.under_push]
    by_cases hk : row.keySequence = k
    · simp [hk, keyColumn_foreignKeyField (hnames row (by simp))]
    · simp [hk]

end SecondPass

structure Grouped (subtype : Text) (rows : List ForeignKeyRow) (loaded : LoadedKeys) : Prop where
  mem_keys : ∀ n, n ∈ loaded.foreignKeys.keys ↔ ∃ row ∈ rows, row.keySequence = n
  under : ∀ n, (loaded.foreignKeys.under n).map keyColumn =
    (rows.filter fun row => row.keySequence = n).map (readColumn subtype)
  names : loaded.fkFieldNames = rows.map fun row => bound maxNameLength row.pkColumn

theorem grouped_loadRows {subtype schemaName tableName : Text} {fields : KeyFields} {b : ForeignKeyBuffers}
    {rows : List ForeignKeyRow} (hnames : ∀ row ∈ rows, row.fkName.isSome) :
    Grouped subtype rows (rows.foldl (loadRow subtype schemaName tableName fields) (b, {})).2 where
  mem_keys n := by
    rw [mem_keys_loadRows]
    simp [Foundation.OrderedMap.keys, Foundation.OrderedMap.ofEntries]
  under n := (under_loadRows n hnames (b, {})).trans (List.nil_append _)
  names := (fkFieldNames_loadRows rows (b, {})).trans (List.nil_append _)

namespace Grouped

variable {subtype : Text} {rows : List ForeignKeyRow} {loaded : LoadedKeys} (h : Grouped subtype rows loaded)

include h

theorem values_eq : loaded.foreignKeys.values.map (List.map keyColumn) =
    loaded.foreignKeys.keys.map fun n => (rows.filter fun row => row.keySequence = n).map (readColumn subtype) := by
  rw [Foundation.OrderedMap.values_eq_map_under, List.map_map]
  exact List.map_congr_left fun n _ => h.under n

variable {t : ReferencingTable} (hrows : t.Reports rows)

include hrows

theorem keys_length_le_one (hkeys : (loaded.foreignKeys.values.map (List.map keyColumn)).Perm
    (t.keys.map ForeignKey.keyColumns)) : t.keys.length ≤ 1 := by
  rw [h.values_eq] at hkeys
  have hcut : ∀ k ∈ t.keys, ∃ j ∈ t.keys, k.name = bound fkNameLength j.name := by
    intro k hk
    have hmem := hkeys.mem_iff.mpr (List.mem_map_of_mem hk)
    obtain ⟨n, -, hn⟩ := List.mem_map.mp hmem
    have hfirst : (⟨k.name, k.first.1, k.first.2, ownUpdate k.updateRule, ownDelete k.deleteRule⟩ : KeyColumn) ∈
        (rows.filter fun row => row.keySequence = n).map (readColumn subtype) := by
      rw [hn]
      exact List.mem_cons_self
    obtain ⟨row, hrow, hread⟩ := List.mem_map.mp hfirst
    obtain ⟨j, hj, hname⟩ := hrows.named (List.mem_of_mem_filter hrow)
    refine ⟨j, hj, ?_⟩
    have hk := congrArg KeyColumn.fkName hread
    simpa [readColumn, hname] using hk.symm
  have hshared : ∀ k ∈ t.keys, ∃ d ∈ t.keys, ∀ j ∈ t.keys, bound fkNameLength j.name = d.name := by
    intro k hk
    have hone : 1 ∈ loaded.foreignKeys.keys :=
      (h.mem_keys 1).mpr ⟨k.row 1 k.first, hrows.mem_iff.mpr ⟨k, hk, k.row_mem_rows⟩, rfl⟩
    have hmem := hkeys.mem_iff.mp (List.mem_map_of_mem hone)
    obtain ⟨d, hd, hcolumns⟩ := List.mem_map.mp hmem
    refine ⟨d, hd, fun j hj => ?_⟩
    have hrow : j.row 1 j.first ∈ rows.filter fun row => row.keySequence = 1 :=
      List.mem_filter.mpr ⟨hrows.mem_iff.mpr ⟨j, hj, j.row_mem_rows⟩, by simp [ForeignKey.row]⟩
    have hread := List.mem_map_of_mem (f := readColumn subtype) hrow
    rw [← hcolumns] at hread
    obtain ⟨c, -, hc⟩ := List.mem_map.mp hread
    have hname := congrArg KeyColumn.fkName hc
    simpa [readColumn, ForeignKey.row] using hname.symm
  have hsame : ∀ k ∈ t.keys, ∀ j ∈ t.keys, k.name = j.name := by
    intro k hk j hj
    obtain ⟨d, -, hd⟩ := hshared k hk
    obtain ⟨k', hk', hcutk⟩ := hcut k hk
    obtain ⟨j', hj', hcutj⟩ := hcut j hj
    rw [hcutk, hcutj, hd k' hk', hd j' hj']
  have hnodup := t.nodup_names
  match hkeys : t.keys with
  | [] => simp
  | [k] => simp
  | k :: j :: rest =>
    rw [hkeys] at hsame hnodup
    have hkj : k.name = j.name := hsame k (by simp) j (by simp)
    simp [hkj] at hnodup

end Grouped

theorem take_swap_iff {a b : Text} {n : ℕ} : (b.take n = a ∧ a.take n = b) ↔ a = b ∧ a.length ≤ n := by
  constructor
  · rintro ⟨hba, hab⟩
    have hlength : a.length ≤ n := by
      rw [← hba, List.length_take]
      omega
    rw [List.take_of_length_le hlength] at hab
    exact ⟨hab, hlength⟩
  · rintro ⟨rfl, hlength⟩
    exact ⟨List.take_of_length_le hlength, List.take_of_length_le hlength⟩

theorem onUpdate_eq_own (subtype : Text) (rule : ReferentialRule) :
    onUpdate subtype rule = ownUpdate rule ↔ rule ≠ .restrict := by
  cases rule <;> simp [onUpdate, ownUpdate]

theorem onDelete_eq_own (subtype : Text) (rule : ReferentialRule) :
    onDelete subtype rule = ownDelete rule ↔ rule ≠ .restrict := by
  cases rule <;> simp [onDelete, ownDelete]

theorem readColumn_single {subtype : Text} {k : ForeignKey} (hsingle : k.rest = []) :
    [readColumn subtype (k.row 1 k.first)] = k.keyColumns ↔ k.Symmetric := by
  have hread : [readColumn subtype (k.row 1 k.first)] = k.keyColumns ↔
      bound fkNameLength k.name = k.name ∧ bound maxNameLength k.first.2 = k.first.1 ∧
        bound maxNameLength k.first.1 = k.first.2 ∧ onUpdate subtype k.updateRule = ownUpdate k.updateRule ∧
          onDelete subtype k.deleteRule = ownDelete k.deleteRule := by
    simp [ForeignKey.keyColumns, ForeignKey.columns, hsingle, readColumn, ForeignKey.row]
  have hname : bound fkNameLength k.name = k.name ↔ k.name.length ≤ 127 := List.take_eq_self_iff _
  have hcolumns : (bound maxNameLength k.first.2 = k.first.1 ∧ bound maxNameLength k.first.1 = k.first.2) ↔
      k.first.1 = k.first.2 ∧ k.first.1.length ≤ 63 := take_swap_iff
  rw [hread, hname, onUpdate_eq_own, onDelete_eq_own]
  constructor
  · rintro ⟨hname, hpk, hfk, hupdate, hdelete⟩
    obtain ⟨hsame, hlength⟩ := hcolumns.mp ⟨hpk, hfk⟩
    exact ⟨hsingle, hsame, by omega, by omega, hupdate, hdelete⟩
  · intro hk
    obtain ⟨hpk, hfk⟩ := hcolumns.mpr ⟨hk.same, by have := hk.column; omega⟩
    exact ⟨by have := hk.name; omega, hpk, hfk, hk.update, hk.delete⟩

section Single

variable {subtype : Text} {t : ReferencingTable} {rows : List ForeignKeyRow} {loaded : LoadedKeys} {k : ForeignKey}

theorem Grouped.keys_eq_one {row : ForeignKeyRow} (h : Grouped subtype [row] loaded) :
    loaded.foreignKeys.keys = [row.keySequence] := by
  have hmem : ∀ n, n ∈ loaded.foreignKeys.keys ↔ n ∈ [row.keySequence] := fun n => by
    simpa [eq_comm] using h.mem_keys n
  have hperm : loaded.foreignKeys.keys.Perm [row.keySequence] :=
    (List.perm_ext_iff_of_nodup loaded.foreignKeys.nodup_keys (List.nodup_singleton _)).mpr hmem
  exact List.perm_singleton.mp hperm

theorem Grouped.rest_eq_nil (h : Grouped subtype rows loaded) (hrows : t.Reports rows) (ht : t.keys = [k])
    (hkeys : (loaded.foreignKeys.values.map (List.map keyColumn)).Perm (t.keys.map ForeignKey.keyColumns)) :
    k.rest = [] := by
  have hlength : loaded.foreignKeys.keys.length = 1 := by
    have hlength := hkeys.length_eq
    rwa [h.values_eq, ht, List.length_map, List.length_map] at hlength
  obtain ⟨n, hn⟩ := List.length_eq_one_iff.mp hlength
  have hnumber : ∀ row ∈ k.rows, row.keySequence = n := by
    intro row hrow
    have hmem : row.keySequence ∈ loaded.foreignKeys.keys :=
      (h.mem_keys _).mpr ⟨row, hrows.mem_iff.mpr ⟨k, by simp [ht], hrow⟩, rfl⟩
    simpa [hn] using hmem
  match hrest : k.rest with
  | [] => rfl
  | c :: cs =>
    have h₁ : 1 = n := hnumber (k.row 1 k.first) k.row_mem_rows
    have hsecond : k.row 2 c ∈ k.rows := by simp [ForeignKey.rows, ForeignKey.columns, ForeignKey.rowsFrom, hrest]
    have h₂ : 2 = n := hnumber _ hsecond
    omega

theorem ReferencingTable.Reports.eq_singleton (hrows : t.Reports rows) (ht : t.keys = [k]) (hsingle : k.rest = []) :
    rows = [k.row 1 k.first] := by
  have hperm := hrows.perm
  rw [ht] at hperm
  simp only [List.flatMap_cons, List.flatMap_nil, List.append_nil, ForeignKey.rows, ForeignKey.columns, hsingle,
    ForeignKey.rowsFrom] at hperm
  exact List.perm_singleton.mp hperm

theorem Grouped.columnFk_iff {row : ForeignKeyRow} {c : Text} (h : Grouped subtype [row] loaded)
    (hlength : row.pkColumn.length < 64) : columnFk loaded c ↔ c = row.pkColumn := by
  have hread : row.pkColumn.take 63 = row.pkColumn := List.take_of_length_le (by omega)
  have hflag : columnFk loaded c ↔ c.take 127 = row.pkColumn.take 63 := by
    rw [columnFk, h.names, decide_eq_true_eq, List.map_singleton, List.mem_singleton]
    exact Iff.rfl
  rw [hflag, hread]
  constructor
  · intro hc
    have hlen := congrArg List.length hc
    rw [List.length_take] at hlen
    rwa [List.take_of_length_le (by omega)] at hc
  · intro hc
    rw [hc]
    exact List.take_of_length_le (by omega)

theorem Grouped.loads_single_iff (h : Grouped subtype rows loaded) (hrows : t.Reports rows) (ht : t.keys = [k]) :
    Loads t loaded ↔ k.Symmetric := by
  constructor
  · intro hloads
    have hsingle := h.rest_eq_nil hrows ht hloads.keys
    have hrow := hrows.eq_singleton ht hsingle
    subst hrow
    have hkeys := hloads.keys
    rw [h.values_eq, h.keys_eq_one, ht] at hkeys
    have hcolumns : [readColumn subtype (k.row 1 k.first)] = k.keyColumns := by
      simpa [ForeignKey.row] using List.perm_singleton.mp hkeys
    exact (readColumn_single hsingle).mp hcolumns
  · intro hk
    have hrow := hrows.eq_singleton ht hk.single
    subst hrow
    constructor
    · rw [h.values_eq, h.keys_eq_one, ht]
      have hread : [readColumn subtype (k.row 1 k.first)] = k.keyColumns := (readColumn_single hk.single).mpr hk
      simpa [ForeignKey.row] using hread
    · intro c _
      have hlength : k.first.2.length < 64 := hk.same ▸ hk.column
      rw [h.columnFk_iff hlength, ht]
      simp [ForeignKey.columns, hk.single, ForeignKey.row, hk.same]

end Single

theorem Grouped.loads_iff {subtype : Text} {t : ReferencingTable} {rows : List ForeignKeyRow} {loaded : LoadedKeys}
    (h : Grouped subtype rows loaded) (hrows : t.Reports rows) : Loads t loaded ↔ OneSymmetric t.keys := by
  match ht : t.keys with
  | [] =>
    obtain rfl := hrows.eq_nil_iff.mpr ht
    refine iff_of_true ⟨?_, fun c _ => ?_⟩ trivial
    · have hkeys : loaded.foreignKeys.keys = [] :=
        List.eq_nil_iff_forall_not_mem.mpr fun n hn => by simpa using (h.mem_keys n).mp hn
      rw [h.values_eq, hkeys, ht]
      rfl
    · simp [columnFk, h.names, ht]
  | [k] => exact h.loads_single_iff hrows ht
  | k :: j :: rest =>
    refine iff_of_false (fun hloads => ?_) id
    have hlength := h.keys_length_le_one hrows hloads.keys
    rw [ht] at hlength
    simp at hlength

variable (subtype schemaName tableName : Text) (b : ForeignKeyBuffers)

theorem readForeignKeys_eq (first second : List ForeignKeyRow) (hempty : first = [] → second = []) :
    ∃ fields b', readForeignKeys subtype schemaName tableName b (some ⟨first, true⟩) true (some ⟨second, true⟩) =
      some (second.foldl (loadRow subtype schemaName tableName fields) (b', {})).2 := by
  refine ⟨(first.foldl collectRow (b.clearName, {})).2, (first.foldl collectRow (b.clearName, {})).1, ?_⟩
  cases first with
  | nil =>
    rw [hempty rfl]
    rfl
  | cons row rows => rfl

def referencingOne (k : ForeignKey) (hrest : k.rest = []) : ReferencingTable where
  columns := [k.first.1]
  keys := [k]
  nodup_names := List.nodup_singleton _
  columns_mem := by simp [ForeignKey.columns, hrest]

theorem reports_one (k : ForeignKey) (hrest : k.rest = []) :
    (referencingOne k hrest).Reports [k.row 1 k.first] where
  perm := by
    simp [referencingOne, ForeignKey.rows, ForeignKey.columns, ForeignKey.rowsFrom, hrest]
  ordered := List.pairwise_singleton _ _

def toCustomers (column : Text) : ForeignKey where
  name := "fk_customer".toList
  refSchema := some "shop".toList
  refTable := "customers".toList
  first := (column, "id".toList)
  rest := []
  updateRule := .cascade
  deleteRule := .setNull

end DbHandler.OdbcForeignKeys
