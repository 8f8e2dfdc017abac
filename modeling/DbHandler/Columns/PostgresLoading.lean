import DbHandler.ForeignKeys.PostgresLoading

namespace DbHandler.PostgresColumns

open Foundation Postgres
open PostgresForeignKeys (PlainText nul bigEndian plain publicSchema idText firstPosition)

/-- A column as `information_schema.columns` has it; lengths, precisions and scales are cardinal numbers. -/
structure Column where
  name : PlainText
  dataType : PlainText
  charLength : Option (Fin (2 ^ 31))
  octetLength : Option (Fin (2 ^ 31))
  precision : Option (Fin (2 ^ 31))
  radix : Option (Fin (2 ^ 31))
  scale : Option (Fin (2 ^ 31))
  isNullable : Bool
  default : Option PlainText
  position : Fin (2 ^ 31)

structure OtherConstraint where
  name : PlainText
  uses : List (PlainText × PlainText)

structure Table where
  schema : PlainText
  name : PlainText
  columns : List Column
  primaryKey : Option (PlainText × List PlainText)
  others : List OtherConstraint
  nodup_names : (columns.map Column.name).Nodup

def Table.pkColumns (t : Table) : List PlainText := t.primaryKey.elim [] Prod.snd

def Table.constrained (t : Table) : Bool := t.primaryKey.isSome || !t.others.isEmpty

def Table.columnUsage (t : Table) : List (PlainText × PlainText × PlainText) :=
  t.primaryKey.elim [] (fun key => key.2.map fun column => (key.1, t.name, column)) ++
    t.others.flatMap fun c => c.uses.map fun use => (c.name, use)

abbrev Database := List Table

def leagues : Text := "leagues".toList

/-- The subquery of `get_columns`, in which a table name is written. -/
def isPk (db : Database) (column : PlainText) : Bool :=
  (db.flatMap Table.columnUsage).any fun use =>
    use.2.1.text = leagues && use.2.2 = column && db.any fun t => (t.primaryKey.map Prod.fst) = some use.1

def no : Text := "NO".toList

def yesNo (b : Bool) : Text := if b then yes else no

/-- NULL is an empty string. -/
def number (n : Option (Fin (2 ^ 31))) : Text := n.elim [] fun n => bigEndian n

def columnRow (db : Database) (c : Column) : List Text :=
  [c.name.text, c.dataType.text, number c.charLength, number c.octetLength, number c.precision, number c.radix,
    number c.scale, yesNo c.isNullable, c.default.elim [] PlainText.text, yesNo (isPk db c.name), bigEndian c.position]

/-- `get_columns` joins the columns with the constraints of their table. -/
def getColumns (db : Database) (t : Table) : List (List Text) := if t.constrained then t.columns.map (columnRow db) else []

/-- The length of characters, or else the precision and the scale. -/
def ownSizes (c : Column) : ℤ × ℤ :=
  match c.charLength with
  | some length => (length, 0)
  | none => (c.precision.elim 0 fun n => n, c.scale.elim 0 fun n => n)

structure Describes (t : Table) (field : TableField) (c : Column) : Prop where
  name : field.columnName = c.name.text
  sizes : (field.fieldSize, field.decimalSize) = ownSizes c
  nullable : field.columnIsNull = c.isNullable
  pk : field.columnPK ↔ c.name ∈ t.pkColumns

structure Loads (t : Table) (table : LoadedTable) (s : Catalogs) : Prop where
  columns : List.Forall₂ (Describes t) table.tableFields t.columns
  pkFields : table.pkFields = (t.columns.filter fun c => c.name ∈ t.pkColumns).map fun c => c.name.text
  known : knows s t.name.text

def Sizeless (c : Column) : Prop := ownSizes c = (0, 0)

instance (c : Column) : Decidable (Sizeless c) := inferInstanceAs (Decidable (_ = _))

/-- The table was known before, has a constraint if it has columns, and its columns are without a size and in its
primary key exactly if a table `leagues` has columns of these names there. -/
structure HoldsWhen (db : Database) (t : Table) (s : Catalogs) : Prop where
  known : knows s t.name.text
  constrained : t.constrained ∨ t.columns = []
  sizeless : ∀ c ∈ t.columns, Sizeless c
  pk : ∀ c ∈ t.columns, isPk db c.name ↔ c.name ∈ t.pkColumns

section Cells

variable (db : Database) (c : Column)

theorem valueText_yesNo (b : Bool) : valueText (yesNo b) = yesNo b := by cases b <;> rfl

theorem yesNo_eq_yes (b : Bool) : yesNo b = yes ↔ b = true := by cases b <;> decide

theorem readText_name : readText (columnRow db c) 0 = c.name.text := PostgresForeignKeys.valueText_plain c.name

theorem readText_isNullable : readText (columnRow db c) 7 = yesNo c.isNullable := valueText_yesNo c.isNullable

theorem readText_isPk : readText (columnRow db c) 9 = yesNo (isPk db c.name) := valueText_yesNo (isPk db c.name)

theorem atoi_lt {cell : Text} (h : cell.length ≤ 4) : atoi (valueText cell) < 10 ^ 4 := by
  have hlength : (valueText cell).length ≤ 4 := (List.takeWhile_sublist _).length_le.trans h
  have hpow : (10 : ℤ) ^ (valueText cell).length ≤ 10 ^ 4 := by
    exact_mod_cast Nat.pow_le_pow_right (by omega : 0 < 10) hlength
  exact (atoi_bounds (valueText cell)).2.trans_le hpow

theorem number_length (n : Option (Fin (2 ^ 31))) : (number n).length ≤ 4 := by
  cases n with
  | none => simp [number]
  | some n => simp [number, bigEndian]

theorem atoi_bigEndian_iff (n : ℕ) : atoi (valueText (bigEndian n)) = n ↔ n = 0 := by
  constructor
  · intro h
    have hlt : atoi (valueText (bigEndian n)) < 10 ^ 4 := atoi_lt (by simp [bigEndian])
    have hfirst : n / 2 ^ 24 % 256 = 0 := by omega
    have hnil : valueText (bigEndian n) = [] := by
      rw [bigEndian, hfirst]
      rfl
    have hzero : atoi [] = 0 := rfl
    rw [hnil, hzero] at h
    exact_mod_cast h.symm
  · rintro rfl
    rfl

theorem large_of_head {n : ℕ} (h : (bigEndian n).head? = some '0') : 10 ^ 4 ≤ n := by
  have hfirst : Char.ofNat (n / 2 ^ 24 % 256) = '0' := by simpa [bigEndian] using h
  by_contra hlt
  have hzero : n / 2 ^ 24 % 256 = 0 := by omega
  rw [hzero] at hfirst
  exact absurd hfirst (by decide)

theorem fieldSizes_eq_iff : fieldSizes (columnRow db c) = ownSizes c ↔ Sizeless c := by
  have hsizes : fieldSizes (columnRow db c) =
      if (number c.charLength).head? = some '0' then
        (atoi (valueText (number c.precision)), atoi (valueText (number c.scale)))
      else (atoi (valueText (number c.charLength)), 0) := rfl
  rw [hsizes, Sizeless]
  cases hlength : c.charLength with
  | none =>
    rw [if_neg (by simp [number])]
    exact eq_comm
  | some n =>
    have hown : ownSizes c = (((n : ℕ) : ℤ), 0) := by simp only [ownSizes, hlength]
    have hnumber : number (some n) = bigEndian n := rfl
    rw [hown, hnumber]
    by_cases hhead : (bigEndian n).head? = some '0'
    · have hlarge := large_of_head hhead
      rw [if_pos hhead]
      refine iff_of_false (fun h => ?_) (fun h => ?_)
      · have hlt := atoi_lt (number_length c.precision)
        rw [(Prod.mk.inj h).1] at hlt
        omega
      · have hzero := (Prod.mk.inj h).1
        omega
    · rw [if_neg hhead, Prod.mk.injEq, Prod.mk.injEq, atoi_bigEndian_iff]
      simp

end Cells

section Table

variable {db : Database} {t : Table}

theorem describes_iff (tableName : Text) (fkNames : List Text) (c : Column) :
    Describes t (tableField tableName fkNames (columnRow db c)) c ↔
      Sizeless c ∧ (isPk db c.name ↔ c.name ∈ t.pkColumns) := by
  have hpk : (tableField tableName fkNames (columnRow db c)).columnPK = isPk db c.name := by
    simp [tableField, readText_isPk, yesNo_eq_yes]
  constructor
  · intro h
    refine ⟨(fieldSizes_eq_iff db c).mp h.sizes, ?_⟩
    rw [← hpk]
    exact h.pk
  · rintro ⟨hsizeless, hkey⟩
    refine ⟨readText_name db c, (fieldSizes_eq_iff db c).mpr hsizeless, ?_, ?_⟩
    · simp [tableField, readText_isNullable, yesNo_eq_yes]
    · rw [hpk]
      exact hkey

theorem describes_all_iff (tableName : Text) (fkNames : List Text) :
    List.Forall₂ (Describes t) ((getColumns db t).map (tableField tableName fkNames)) t.columns ↔
      (t.constrained ∨ t.columns = []) ∧ ∀ c ∈ t.columns, Sizeless c ∧ (isPk db c.name ↔ c.name ∈ t.pkColumns) := by
  rw [getColumns]
  cases hconstrained : t.constrained with
  | true =>
    simp only [if_true, true_or, true_and, List.forall₂_map_left_iff]
    exact List.forall₂_same.trans (forall₂_congr fun c _ => describes_iff tableName fkNames c)
  | false =>
    simp only [Bool.false_eq_true, if_false, false_or, List.map_nil, List.forall₂_nil_left_iff]
    exact ⟨fun h => ⟨h, by simp [h]⟩, fun h => h.1⟩

theorem pkFieldsOf_of_describes {fields : List TableField} {columns : List Column}
    (h : List.Forall₂ (Describes t) fields columns) :
    pkFieldsOf fields = (columns.filter fun c => c.name ∈ t.pkColumns).map fun c => c.name.text := by
  induction h with
  | nil => rfl
  | @cons field c fields columns hfield _ ih =>
    rw [pkFieldsOf] at ih ⊢
    by_cases hpk : c.name ∈ t.pkColumns
    · have hflag := hfield.pk.mpr hpk
      simp [hflag, hpk, hfield.name, ih]
    · have hflag : field.columnPK = false := (Bool.not_eq_true _).mp fun hp => hpk (hfield.pk.mp hp)
      simp [hflag, hpk, ih]

theorem loads_loadedTable_iff (schemaName tableName ownerName : Text) (keyRows indexRows : List (List Text)) (s : Catalogs) :
    Loads t (loadedTable schemaName tableName ownerName keyRows (getColumns db t) indexRows) s ↔ HoldsWhen db t s := by
  constructor
  · intro h
    obtain ⟨hconstrained, hcolumns⟩ := (describes_all_iff _ _).mp h.columns
    exact ⟨h.known, hconstrained, fun c hc => (hcolumns c hc).1, fun c hc => (hcolumns c hc).2⟩
  · intro h
    have hcolumns := (describes_all_iff tableName (readForeignKeys keyRows).fkNames).mpr
      ⟨h.constrained, fun c hc => ⟨h.sizeless c hc, h.pk c hc⟩⟩
    exact ⟨hcolumns, pkFieldsOf_of_describes hcolumns, h.known⟩

end Table

theorem loads_columns_iff (db : Database) (t : Table) (catalog ownerName : Text) {a : TableAnswers} {keyRows : List (List Text)}
    (ha : a.Complete keyRows (getColumns db t)) (s : Catalogs) :
    ∃ table, addDropTable catalog t.schema.text t.name.text ownerName a s =
      (0, { s with tables := s.tables.push catalog table }) ∧
        (Loads t table { s with tables := s.tables.push catalog table } ↔ HoldsWhen db t s) := by
  refine ⟨_, addDropTable_complete ha catalog t.schema.text t.name.text ownerName s, ?_⟩
  refine (loads_loadedTable_iff _ _ _ _ _ _).trans ⟨fun h => ?_, fun h => ?_⟩
  · exact ⟨h.known, h.constrained, h.sizeless, h.pk⟩
  · exact ⟨h.known, h.constrained, h.sizeless, h.pk⟩

def columnAnswers (db : Database) (t : Table) : TableAnswers where
  fkeys := .tuplesOk []
  columns := .tuplesOk (getColumns db t)
  fieldProperties _ := true
  tableProperties := true
  indexes := .tuplesOk []

theorem columnAnswers_complete (db : Database) (t : Table) : (columnAnswers db t).Complete [] (getColumns db t) :=
  ⟨rfl, rfl, fun _ _ => rfl, rfl, rfl⟩

def idColumn : Column where
  name := idText
  dataType := plain "uuid".toList
  charLength := none
  octetLength := none
  precision := none
  radix := none
  scale := none
  isNullable := false
  default := none
  position := firstPosition

def keyed (name : PlainText) : Table where
  schema := publicSchema
  name := name
  columns := [idColumn]
  primaryKey := some (plain "pkey".toList, [idText])
  others := []
  nodup_names := List.nodup_singleton _

theorem loads_leagues : ∃ table, addDropTable "shop".toList "public".toList "leagues".toList []
      (columnAnswers [keyed (plain leagues)] (keyed (plain leagues))) ⟨.ofEntries [], [leagues]⟩ =
    (0, ⟨(OrderedMap.ofEntries []).push "shop".toList table, [leagues]⟩) ∧
      (Loads (keyed (plain leagues)) table ⟨(OrderedMap.ofEntries []).push "shop".toList table, [leagues]⟩ ↔
        HoldsWhen [keyed (plain leagues)] (keyed (plain leagues)) ⟨.ofEntries [], [leagues]⟩) :=
  loads_columns_iff _ (keyed (plain leagues)) _ _ (columnAnswers_complete _ _) ⟨.ofEntries [], [leagues]⟩

theorem primary_key_missed : ∃ table, addDropTable "shop".toList "public".toList "orders".toList []
      (columnAnswers [keyed (plain "orders".toList)] (keyed (plain "orders".toList))) ⟨.ofEntries [], []⟩ =
    (0, ⟨(OrderedMap.ofEntries []).push "shop".toList table, []⟩) ∧
      ¬ Loads (keyed (plain "orders".toList)) table ⟨(OrderedMap.ofEntries []).push "shop".toList table, []⟩ := by
  refine ⟨_, addDropTable_complete (columnAnswers_complete _ (keyed (plain "orders".toList))) _ _ _ _ _, fun h => ?_⟩
  have hholds : HoldsWhen [keyed (plain "orders".toList)] (keyed (plain "orders".toList)) _ :=
    (loads_loadedTable_iff _ _ _ _ _ _).mp h
  exact absurd ((hholds.pk idColumn List.mem_cons_self).mpr List.mem_cons_self) (by decide)

end DbHandler.PostgresColumns
