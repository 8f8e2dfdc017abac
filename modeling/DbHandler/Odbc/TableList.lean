import DbHandler.Connections.Odbc

namespace DbHandler.Odbc

open Connections.ODBC (unit units)

abbrev Name := List UInt16

/-- The first three columns of a row of `SQLTables`; `none` is NULL. -/
structure TablesRow where
  catalog : Option Name
  schema : Option Name
  table : Option Name
  deriving DecidableEq, Repr

structure TableName where
  catalog : Name
  schema : Name
  table : Name
  deriving DecidableEq, Repr

/-- `catalogName`, `schemaName` and `tableName`: a null pointer, or the text in the bound buffer. -/
structure Names where
  catalog : Option Name
  schema : Option Name
  table : Option Name
  deriving DecidableEq, Repr

/-- What is in a buffer of 1025 bytes after a fetch, up to the NUL. -/
def stored (value : Name) : Name := (value.take 511).takeWhile (· ≠ 0)

/-- A NULL leaves the buffer as it is, and the pointer too. -/
def fetched (name value : Option Name) : Option Name := (value.map stored).or name

def Names.fetch (n : Names) (row : TablesRow) : Names where
  catalog := fetched n.catalog row.catalog
  schema := fetched n.schema row.schema
  table := fetched n.table row.table

/-- The strings that are made of the pointers. Where the schema is empty the catalog is copied to the
end of the schema's buffer; `none` is a null pointer that is written to. -/
def Names.read (n : Names) : Option (TableName × Names) :=
  let cat := n.catalog.getD []
  let schema := n.schema.getD []
  let table := n.table.getD []
  if schema = [] ∧ cat ≠ [] then
    n.schema.map fun text => (⟨cat, cat, table⟩, { n with schema := some (text ++ cat) })
  else some (⟨cat, schema, table⟩, n)

/-- The answers of `GetTableId` and `AddDropTable`, which have statements of their own, to the table after so
many; the messages of a call that fails. -/
structure TableAnswers where
  getTableId : ℕ → TableName → Except (List Text) ℤ
  addDropTable : ℕ → TableName → ℤ → Option (List Text)
  freeHandle : Option (List Text)

structure Listing where
  registered : List TableName
  tableNames : List Name
  numOfTables : ℕ
  errorMsg : List Text
  deriving DecidableEq, Repr

def TableName.listed (name : TableName) : Name := name.schema ++ unit '.' :: name.table

/-- The loop over the rows: `result`, `count` and the listing. It ends alike with and without an error
of the fetch. -/
def fetchRows (a : TableAnswers) : Names → List TablesRow → ℕ → Listing → Option (ℕ × ℕ × Listing)
  | _, [], count, l => some (0, count, l)
  | n, row :: rows, count, l =>
    (n.fetch row).read.bind fun (name, n) =>
      match a.getTableId count name with
      | .error messages => some (1, count, { l with errorMsg := l.errorMsg ++ messages })
      | .ok tableId =>
        match a.addDropTable count name tableId with
        | some messages => some (1, count, { l with errorMsg := l.errorMsg ++ messages })
        | none => fetchRows a n rows (count + 1)
            { l with registered := l.registered ++ [name], tableNames := l.tableNames ++ [name.listed] }

inductive Start
  | allocFails (messages : List Text)
  | bindFails (column : ℕ) (messages : List Text)
  | tablesFail (messages : List Text)
  | fetches (rows : List TablesRow)

def Start.fetch (a : TableAnswers) (l : Listing) : Start → Option (ℕ × ℕ × Listing)
  -- the buffers that were not allocated are freed all the same
  | allocFails _ => none
  | bindFails column messages =>
    if column < 5 then none else some (1, 0, { l with errorMsg := l.errorMsg ++ messages })
  | tablesFail messages => some (1, 0, { l with errorMsg := l.errorMsg ++ messages })
  | fetches rows => fetchRows a ⟨none, none, none⟩ rows 0 l

def getTableListFromDb (a : TableAnswers) (start : Start) (l : Listing) : Option (ℕ × Listing) :=
  (start.fetch a l).map fun (result, count, l) =>
    match a.freeHandle with
    | some messages => (1, { l with errorMsg := l.errorMsg ++ messages })
    | none => (result, if result = 0 then { l with numOfTables := count } else l)

def schemaOr (cat schema : Name) : Name := if schema = [] then cat else schema

def TablesRow.expected (row : TablesRow) : TableName where
  catalog := row.catalog.getD []
  schema := schemaOr (row.catalog.getD []) (row.schema.getD [])
  table := row.table.getD []

def ListsRows (a : TableAnswers) (rows : List TablesRow) (l : Listing) : Prop :=
  ∃ result l', getTableListFromDb a (.fetches rows) l = some (result, l') ∧
    l'.registered = l.registered ++ rows.map TablesRow.expected ∧
      l'.tableNames = l.tableNames ++ rows.map (·.expected.listed) ∧ l'.numOfTables = rows.length

def TablesRow.Fits (row : TablesRow) : Prop :=
  ∀ value ∈ row.catalog.toList ++ row.schema.toList ++ row.table.toList, stored value = value

/-- The names that the buffers still have from the row before do for the ones that are NULL; `last` is
what that row was registered under, and `seen` says that a row had a schema. -/
structure TablesRow.Carries (last : TableName) (seen : Bool) (row : TablesRow) : Prop where
  fits : row.Fits
  catalog : row.catalog = none → last.catalog = []
  table : row.table = none → last.table = []
  schema : row.schema = none → if row.expected.catalog = [] then last.schema = []
    else seen = true ∧ (last.schema = [] ∨ last.schema = row.expected.catalog)

def Carried : TableName → Bool → List TablesRow → Prop
  | _, _, [] => True
  | last, seen, row :: rows => row.Carries last seen ∧ Carried row.expected (seen || row.schema.isSome) rows

def TableAnswers.Registers (a : TableAnswers) (count : ℕ) (name : TableName) : Prop :=
  ∃ tableId, a.getTableId count name = .ok tableId ∧ a.addDropTable count name tableId = none

section Rows

variable {n n' : Names} {last name : TableName} {seen : Bool} {row : TablesRow}

structure Names.Holds (n : Names) (last : TableName) (seen : Bool) : Prop where
  catalog : n.catalog.getD [] = last.catalog
  schema : n.schema.getD [] = last.schema
  table : n.table.getD [] = last.table
  seen : n.schema.isSome = seen

def Names.current (n : Names) : TableName where
  catalog := n.catalog.getD []
  schema := schemaOr (n.catalog.getD []) (n.schema.getD [])
  table := n.table.getD []

theorem read_iff : (∃ n', n.read = some (name, n')) ↔
    n.current = name ∧ (n.schema.getD [] = [] → n.catalog.getD [] ≠ [] → n.schema.isSome = true) := by
  obtain ⟨catalog, schema, table⟩ := n
  unfold Names.read Names.current
  by_cases hempty : schema.getD [] = [] ∧ catalog.getD [] ≠ []
  · cases schema with
    | none =>
      rw [if_pos hempty]
      exact iff_of_false (by simp) fun h => Bool.noConfusion (h.2 hempty.1 hempty.2)
    | some text =>
      have htext : text = [] := hempty.1
      rw [if_pos hempty]
      simp [htext, schemaOr]
  · rw [if_neg hempty]
    have hschema : schemaOr (catalog.getD []) (schema.getD []) = schema.getD [] := by
      unfold schemaOr
      split_ifs with h
      · rw [h]
        by_contra hcatalog
        exact hempty ⟨h, hcatalog⟩
      · rfl
    simp only [hschema, Option.some.injEq, Prod.mk.injEq, exists_and_left, exists_eq', and_true]
    exact (and_iff_left fun h hcatalog => absurd ⟨h, hcatalog⟩ hempty).symm

theorem read_holds (h : n.read = some (name, n')) : n'.Holds name n.schema.isSome := by
  obtain ⟨catalog, schema, table⟩ := n
  unfold Names.read at h
  by_cases hempty : schema.getD [] = [] ∧ catalog.getD [] ≠ []
  · cases schema with
    | none =>
      rw [if_pos hempty] at h
      cases h
    | some text =>
      have htext : text = [] := hempty.1
      rw [if_pos hempty] at h
      obtain ⟨rfl, rfl⟩ := Prod.mk.inj (Option.some.inj h)
      exact ⟨rfl, by simp [htext], rfl, rfl⟩
  · rw [if_neg hempty] at h
    obtain ⟨rfl, rfl⟩ := Prod.mk.inj (Option.some.inj h)
    exact ⟨rfl, rfl, rfl, rfl⟩

theorem fetched_getD (name value : Option Name) : (fetched name value).getD [] = value.elim (name.getD []) stored := by
  cases value <;> rfl

theorem not_mem_stored (value : Name) : 0 ∉ stored value := by
  intro h
  simpa using List.mem_takeWhile_imp h

theorem shown_iff {value : Option Name} {before : Name} : value.elim before stored = value.getD [] ↔
    (∀ v ∈ value, stored v = v) ∧ (value = none → before = []) := by
  cases value <;> simp

theorem schema_shown_iff {value : Option Name} {before cat : Name} (hcat : 0 ∉ cat) (hseen : before ≠ [] → seen = true) :
    (schemaOr cat (value.elim before stored) = schemaOr cat (value.getD []) ∧ (value.elim before stored = [] → cat ≠ [] → (seen || value.isSome) = true)) ↔
    (∀ v ∈ value, stored v = v) ∧ (value = none → if cat = [] then before = []
      else seen = true ∧ (before = [] ∨ before = cat)) := by
  have hblank : schemaOr cat [] = cat := if_pos rfl
  have hnamed {name : Name} (hname : name ≠ []) : schemaOr cat name = name := if_neg hname
  cases value with
  | none =>
    simp only [Option.elim_none, Option.getD_none, hblank, Option.isSome_none, Bool.or_false, Option.mem_def,
      reduceCtorEq, false_imp_iff, implies_true, true_and, forall_const]
    by_cases hbefore : before = []
    · rw [hbefore, hblank]
      by_cases hempty : cat = []
      · simp [hempty]
      · simp [hempty]
    · have hseen := hseen hbefore
      rw [hnamed hbefore]
      by_cases hempty : cat = []
      · simp [hbefore, hempty]
      · simp [hbefore, hempty, hseen]
  | some v =>
    simp only [Option.elim_some, Option.getD_some, Option.isSome_some, Bool.or_true, implies_true, and_true,
      Option.mem_def, Option.some.injEq, forall_eq', reduceCtorEq, false_imp_iff]
    constructor
    · intro heq
      by_cases hv : v = []
      · rw [hv]
        rfl
      · rw [hnamed hv] at heq
        by_cases hstored : stored v = []
        · -- a schema that begins with a NUL is not the catalog, which has none
          exfalso
          rw [hstored, hblank] at heq
          obtain ⟨c, t, rfl⟩ := List.exists_cons_of_ne_nil hv
          have hc : c = 0 := by
            by_contra hc
            have hhead : stored (c :: t) = c :: (t.take 510).takeWhile (· ≠ 0) := by
              rw [stored, List.take_succ_cons, List.takeWhile_cons_of_pos (by simpa using hc)]
            rw [hhead] at hstored
            exact List.cons_ne_nil _ _ hstored
          rw [heq, hc] at hcat
          exact hcat (List.mem_cons_self ..)
        · rwa [hnamed hstored] at heq
    · intro heq
      rw [heq]

theorem fits_iff : row.Fits ↔ (∀ value ∈ row.catalog, stored value = value) ∧
    (∀ value ∈ row.schema, stored value = value) ∧ ∀ value ∈ row.table, stored value = value := by
  unfold TablesRow.Fits
  simp only [List.forall_mem_append, Option.mem_toList, Option.mem_def, and_assoc]

theorem fetch_isSome (h : n.Holds last seen) : (n.fetch row).schema.isSome = (seen || row.schema.isSome) := by
  rw [← h.seen]
  unfold Names.fetch fetched
  cases row.schema <;> simp

theorem read_expected_iff (h : n.Holds last seen) :
    (∃ n', (n.fetch row).read = some (row.expected, n')) ↔ row.Carries last seen := by
  have hcatalog : (n.fetch row).catalog.getD [] = row.catalog.elim last.catalog stored := by
    rw [Names.fetch, fetched_getD, h.catalog]
  have hschema : (n.fetch row).schema.getD [] = row.schema.elim last.schema stored := by
    rw [Names.fetch, fetched_getD, h.schema]
  have htable : (n.fetch row).table.getD [] = row.table.elim last.table stored := by
    rw [Names.fetch, fetched_getD, h.table]
  rw [read_iff, Names.current, hcatalog, hschema, htable, fetch_isSome h, TablesRow.expected, TableName.mk.injEq]
  have hseen : last.schema ≠ [] → seen = true := by
    intro hne
    rw [← h.seen]
    by_contra hnone
    apply hne
    rw [← h.schema, Option.not_isSome_iff_eq_none.mp hnone]
    rfl
  constructor
  · rintro ⟨⟨hcatalog, hschema, htable⟩, hnull⟩
    rw [hcatalog] at hschema hnull
    obtain ⟨hfits, hlast⟩ := shown_iff.mp hcatalog
    obtain ⟨hfits', hlast'⟩ := shown_iff.mp htable
    have hcat : 0 ∉ row.catalog.getD [] := by
      rw [← hcatalog]
      cases hvalue : row.catalog with
      | none => simp [hlast hvalue]
      | some v => exact not_mem_stored v
    obtain ⟨hfits'', hlast''⟩ := (schema_shown_iff hcat hseen).mp ⟨hschema, hnull⟩
    exact ⟨fits_iff.mpr ⟨hfits, hfits'', hfits'⟩, hlast, hlast', hlast''⟩
  · rintro ⟨hfits, hlast, hlast', hlast''⟩
    obtain ⟨hfits, hfits'', hfits'⟩ := fits_iff.mp hfits
    have hcatalog := shown_iff.mpr ⟨hfits, hlast⟩
    have hcat : 0 ∉ row.catalog.getD [] := by
      rw [← hcatalog]
      cases hvalue : row.catalog with
      | none => simp [hlast hvalue]
      | some v => exact not_mem_stored v
    rw [hcatalog]
    obtain ⟨hschema, hnull⟩ := (schema_shown_iff hcat hseen).mpr ⟨hfits'', hlast''⟩
    exact ⟨⟨rfl, hschema, shown_iff.mpr ⟨hfits', hlast'⟩⟩, hnull⟩

end Rows

section Runs

variable {a : TableAnswers} {n : Names} {last : TableName} {seen : Bool} {rows : List TablesRow} {l l' : Listing}
  {count count' result : ℕ}

def TableAnswers.RegistersFrom (a : TableAnswers) (count : ℕ) (rows : List TablesRow) : Prop :=
  ∀ i row, rows[i]? = some row → a.Registers (count + i) row.expected

theorem registersFrom_cons {row : TablesRow} : a.RegistersFrom count (row :: rows) ↔
    a.Registers count row.expected ∧ a.RegistersFrom (count + 1) rows := by
  constructor
  · intro h
    refine ⟨h 0 row rfl, fun i other hother => ?_⟩
    have hnext := h (i + 1) other hother
    rwa [show count + (i + 1) = count + 1 + i by omega] at hnext
  · rintro ⟨hrow, hrows⟩ i other hother
    cases i with
    | zero =>
      obtain rfl := Option.some.inj hother
      exact hrow
    | succ i =>
      have hnext := hrows i other hother
      rwa [show count + 1 + i = count + (i + 1) by omega] at hnext

theorem fetchRows_extends (h : fetchRows a n rows count l = some (result, count', l')) :
    l.registered <+: l'.registered := by
  induction rows generalizing n count l with
  | nil =>
    obtain ⟨-, -, rfl⟩ : 0 = result ∧ count = count' ∧ l = l' := by simpa [fetchRows] using h
    exact List.prefix_refl _
  | cons row rows ih =>
    obtain ⟨⟨name, n'⟩, -, h⟩ := Option.bind_eq_some_iff.mp h
    cases hid : a.getTableId count name with
    | error messages =>
      simp only [hid] at h
      obtain ⟨-, -, rfl⟩ : 1 = result ∧ count = count' ∧ _ = l' := by simpa using h
      exact List.prefix_refl _
    | ok tableId =>
      cases hadd : a.addDropTable count name tableId with
      | some messages =>
        simp only [hid, hadd] at h
        obtain ⟨-, -, rfl⟩ : 1 = result ∧ count = count' ∧ _ = l' := by simpa using h
        exact List.prefix_refl _
      | none =>
        simp only [hid, hadd] at h
        exact (List.prefix_append _ _).trans (ih h)

theorem fetchRows_right (hn : n.Holds last seen) (hcarried : Carried last seen rows)
    (hregisters : a.RegistersFrom count rows) : fetchRows a n rows count l = some (0, count + rows.length,
      { l with
        registered := l.registered ++ rows.map TablesRow.expected
        tableNames := l.tableNames ++ rows.map (·.expected.listed) }) := by
  induction rows generalizing n last seen count l with
  | nil => simp [fetchRows]
  | cons row rows ih =>
    obtain ⟨hrow, hrows⟩ := hcarried
    obtain ⟨⟨tableId, hid, hadd⟩, hregisters⟩ := registersFrom_cons.mp hregisters
    obtain ⟨n', hread⟩ := (read_expected_iff hn).mpr hrow
    have hn' := read_holds hread
    rw [fetch_isSome hn] at hn'
    rw [fetchRows, hread, Option.bind_some]
    simp only [hid, hadd]
    rw [ih hn' hrows hregisters]
    simp [show count + 1 + rows.length = count + (rows.length + 1) by omega]

theorem fetchRows_decided (hn : n.Holds last seen) (hrun : fetchRows a n rows count l = some (result, count', l'))
    (hregistered : l'.registered = l.registered ++ rows.map TablesRow.expected) :
    Carried last seen rows ∧ a.RegistersFrom count rows := by
  induction rows generalizing n last seen count l with
  | nil => exact ⟨trivial, by simp [TableAnswers.RegistersFrom]⟩
  | cons row rows ih =>
    obtain ⟨⟨name, n'⟩, hread, hrun⟩ := Option.bind_eq_some_iff.mp hrun
    cases hid : a.getTableId count name with
    | error messages =>
      simp only [hid] at hrun
      obtain ⟨-, -, rfl⟩ : 1 = result ∧ count = count' ∧ _ = l' := by simpa using hrun
      simp at hregistered
    | ok tableId =>
      cases hadd : a.addDropTable count name tableId with
      | some messages =>
        simp only [hid, hadd] at hrun
        obtain ⟨-, -, rfl⟩ : 1 = result ∧ count = count' ∧ _ = l' := by simpa using hrun
        simp at hregistered
      | none =>
        simp only [hid, hadd] at hrun
        -- the name that was registered first is the row's own
        obtain ⟨more, hmore⟩ := fetchRows_extends hrun
        have hname : name = row.expected := by
          rw [← hmore] at hregistered
          simp only [List.append_assoc, List.map_cons, List.append_cancel_left_eq, List.singleton_append] at hregistered
          exact (List.cons.inj hregistered).1
        subst hname
        have hn' := read_holds hread
        rw [fetch_isSome hn] at hn'
        obtain ⟨hcarried, hregisters⟩ := ih hn' hrun (by simpa using hregistered)
        exact ⟨⟨(read_expected_iff hn).mp ⟨n', hread⟩, hcarried⟩,
          registersFrom_cons.mpr ⟨⟨tableId, hid, hadd⟩, hregisters⟩⟩

end Runs

theorem lists_rows_iff (a : TableAnswers) (rows : List TablesRow) (l : Listing) :
    ListsRows a rows l ↔ Carried ⟨[], [], []⟩ false rows ∧
      (∀ i row, rows[i]? = some row → a.Registers i row.expected) ∧
        (a.freeHandle = none ∨ l.numOfTables = rows.length) := by
  have hstart : Names.Holds ⟨none, none, none⟩ ⟨[], [], []⟩ false := ⟨rfl, rfl, rfl, rfl⟩
  have hfrom : a.RegistersFrom 0 rows ↔ ∀ i row, rows[i]? = some row → a.Registers i row.expected := by
    simp [TableAnswers.RegistersFrom]
  rw [← hfrom]
  constructor
  · rintro ⟨result, l', hrun, hregistered, -, hcount⟩
    obtain ⟨⟨code, count, l₁⟩, hfetch, hend⟩ := Option.map_eq_some_iff.mp hrun
    have hsame : l'.registered = l₁.registered := by
      cases hfree : a.freeHandle with
      | some messages =>
        simp only [hfree] at hend
        obtain ⟨-, rfl⟩ := Prod.mk.inj hend
        rfl
      | none =>
        simp only [hfree] at hend
        obtain ⟨-, rfl⟩ := Prod.mk.inj hend
        split_ifs <;> rfl
    obtain ⟨hcarried, hregisters⟩ := fetchRows_decided hstart hfetch (hsame ▸ hregistered)
    refine ⟨hcarried, hregisters, ?_⟩
    cases hfree : a.freeHandle with
    | none => exact Or.inl rfl
    | some messages =>
      right
      obtain ⟨-, -, rfl⟩ : 0 = code ∧ _ = count ∧ _ = l₁ := by
        simpa using (fetchRows_right hstart hcarried hregisters).symm.trans hfetch
      simp only [hfree] at hend
      obtain ⟨-, rfl⟩ := Prod.mk.inj hend
      exact hcount
  · rintro ⟨hcarried, hregisters, hfree⟩
    have hfetch := fetchRows_right (l := l) hstart hcarried hregisters
    rw [Nat.zero_add] at hfetch
    refine ⟨_, _, Option.map_eq_some_iff.mpr ⟨_, hfetch, rfl⟩, ?_⟩
    cases hanswer : a.freeHandle with
    | none => exact ⟨rfl, rfl, rfl⟩
    | some messages => exact ⟨rfl, rfl, hfree.resolve_left (by simp [hanswer])⟩

def willing : TableAnswers := ⟨fun _ _ => .ok 0, fun _ _ _ => none, none⟩

theorem schema_is_left_over : ¬ ListsRows willing
    [⟨some (units "shop".toList), some (units "dbo".toList), some (units "client".toList)⟩,
      ⟨some (units "shop".toList), none, some (units "invoice".toList)⟩] ⟨[], [], 0, []⟩ := by
  rintro ⟨result, l', hrun, hregistered, -, -⟩
  have hschemas : (getTableListFromDb willing (.fetches
      [⟨some (units "shop".toList), some (units "dbo".toList), some (units "client".toList)⟩,
        ⟨some (units "shop".toList), none, some (units "invoice".toList)⟩]) ⟨[], [], 0, []⟩).map
      (fun r => r.2.registered.map TableName.schema) = some [units "dbo".toList, units "dbo".toList] := by decide
  rw [hrun, Option.map_some, hregistered] at hschemas
  exact absurd hschemas (by decide)

end DbHandler.Odbc
