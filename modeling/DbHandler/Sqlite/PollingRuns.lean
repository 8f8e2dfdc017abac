import DbHandler.Foundation.Runs
import DbHandler.Sqlite.Polling

namespace DbHandler.Sqlite

open Foundation.Runs

inductive PollEvent
  /-- Any number of schema changes, after which the database has this schema. -/
  | change (schema : Schema) (more : ℕ)
  | poll

structure World where
  db : Database
  driver : Driver
  answer : Answer

def pollStep (w : World) : PollEvent → Option World
  | .change schema more => some { w with db := ⟨schema, w.db.version + more + 1⟩ }
  | .poll =>
    some ⟨w.db, (newTableCreation w.db w.driver).2, (newTableCreation w.db w.driver).1⟩

def PollKeeps (_ : World) (e : PollEvent) (w : World) : Prop :=
  match e with
  | .change _ _ => True
  | .poll => w.answer ≠ .undefined ∧ (w.answer = .returned 0 → InSync w.db.schema w.driver)

def PollCondition (w : World) (e : PollEvent) : Prop :=
  match e with
  | .change _ _ => True
  | .poll => w.db.version = w.driver.schema ∨ (w.db.schema.tables = [] ∧ w.driver.numOfTables = 0)

structure Kept (w : World) : Prop where
  once : ∃ schema, InSync schema w.driver
  now : w.db.version = w.driver.schema → InSync w.db.schema w.driver
  seen : w.driver.schema ≤ w.db.version

theorem InSync.tableNames_length {schema : Schema} {d : Driver} (h : InSync schema d) :
    d.tableNames.length = d.numOfTables := by
  rw [h.tableNames.length_eq, List.length_map, h.numOfTables]

theorem exists_missing_name {schema known : Schema} {d : Driver} (h : InSync known d)
    (hcount : schema.tables.length < d.numOfTables) :
    ∃ name ∈ d.tableNames, ∀ row ∈ schema.tables, row.name ≠ name := by
  by_contra hall
  push Not at hall
  have hnodup : d.tableNames.Nodup := h.tableNames.nodup_iff.mpr known.names_nodup
  have hsubset : d.tableNames ⊆ schema.tables.map (·.name) := by
    intro name hname
    obtain ⟨row, hrow, rfl⟩ := hall name hname
    exact List.mem_map_of_mem hrow
  have hle := (List.subperm_of_subset hnodup hsubset).length_le
  rw [h.tableNames_length, List.length_map] at hle
  omega

theorem poll_more {db : Database} {d : Driver} (hversion : db.version ≠ d.schema)
    (hcount : d.numOfTables < db.schema.tables.length) :
    ¬ ((newTableCreation db d).1 ≠ .undefined ∧
      ((newTableCreation db d).1 = .returned 0 → InSync db.schema (newTableCreation db d).2)) := by
  rw [newTableCreation, if_neg hversion]
  cases hscan : scanRows db d.tableNames db.schema.tables (d, d.tableNames) with
  | none => simp
  | some t =>
    have hnum : t.1.numOfTables = d.numOfTables := scanRows_numOfTables hscan
    rintro ⟨-, h⟩
    -- the counter still is the old number
    have hsync := h (by simp only [settle]; rw [if_neg (by omega), if_neg (by omega)])
    have hfull := hsync.numOfTables
    simp only [settle] at hfull
    rw [if_neg (by omega), if_neg (by omega)] at hfull
    exact absurd (hnum.symm.trans hfull) (by omega)

theorem poll_fewer {schema : Schema} {db : Database} {d : Driver} (hkept : InSync schema d)
    (hversion : db.version ≠ d.schema) (hcount : db.schema.tables.length < d.numOfTables) :
    ¬ ((newTableCreation db d).1 ≠ .undefined ∧
      ((newTableCreation db d).1 = .returned 0 → InSync db.schema (newTableCreation db d).2)) := by
  obtain ⟨name, hname, hrows⟩ := exists_missing_name hkept hcount
  obtain ⟨t, hscan, hmem⟩ :
      ∃ t, scanRows db d.tableNames db.schema.tables (d, d.tableNames) = some t ∧ name ∈ t.2 :=
    scanRows_missing hcount hname hrows
  have hnum : t.1.numOfTables = d.numOfTables := scanRows_numOfTables hscan
  obtain ⟨first, temp, htemp⟩ := List.exists_cons_of_ne_nil (List.ne_nil_of_mem hmem)
  rw [newTableCreation, if_neg hversion, hscan]
  simp only [settle, htemp]
  rw [if_pos (by omega)]
  cases hdrop : dropTable first t.1 with
  | none => simp
  | some u =>
    have hdropnum : u.numOfTables = t.1.numOfTables := by
      obtain ⟨tables, -, rfl⟩ := Option.map_eq_some_iff.mp hdrop
      rfl
    rintro ⟨-, h⟩
    have hfull : u.numOfTables = db.schema.tables.length := (h rfl).numOfTables
    omega

theorem poll_same {schema : Schema} {db : Database} {d : Driver} (hkept : InSync schema d)
    (hversion : db.version ≠ d.schema) (hcount : db.schema.tables.length = d.numOfTables)
    (hpos : d.numOfTables ≠ 0) :
    ¬ ((newTableCreation db d).1 ≠ .undefined ∧
      ((newTableCreation db d).1 = .returned 0 → InSync db.schema (newTableCreation db d).2)) := by
  rw [newTableCreation, if_neg hversion]
  cases hscan : scanRows db d.tableNames db.schema.tables (d, d.tableNames) with
  | none => simp
  | some t =>
    have hnum : t.1.numOfTables = d.numOfTables := scanRows_numOfTables hscan
    obtain ⟨hgrows, htemp⟩ := scanRows_grows (s := (d, d.tableNames)) hcount.ge hscan
    have hlength := hkept.tableNames_length
    obtain ⟨first, temp, hfirst⟩ := List.exists_cons_of_length_pos (by omega : 0 < d.tableNames.length)
    simp only [settle, htemp, hfirst]
    rw [if_neg (by omega), if_pos (by omega)]
    rintro ⟨-, h⟩
    -- the first name was added once more
    have hnames := (h rfl).tableNames.length_eq
    simp only [addTable, List.length_append, List.length_map, List.length_singleton] at hnames
    simp only [hfirst] at hgrows hlength
    omega

theorem poll_empty {schema : Schema} {db : Database} {d : Driver} (hkept : InSync schema d)
    (hversion : db.version ≠ d.schema) (htables : db.schema.tables = []) (hnum : d.numOfTables = 0) :
    newTableCreation db d = (.outOfRange, d) := by
  have hnames : d.tableNames = [] := List.length_eq_zero_iff.mp (hkept.tableNames_length.trans hnum)
  simp [newTableCreation, hversion, htables, scanRows, settle, hnum, hnames]

theorem pollStep_decided (w : World) (e : PollEvent) (w' : World) (h : Kept w) (hstep : pollStep w e = some w') :
    PollKeeps w e w' ↔ PollCondition w e := by
  cases e with
  | change schema more => simp [PollKeeps, PollCondition]
  | poll =>
    rw [pollStep] at hstep
    obtain rfl := Option.some.inj hstep
    simp only [PollKeeps, PollCondition]
    obtain ⟨schema, hkept⟩ := h.once
    by_cases hversion : w.db.version = w.driver.schema
    · have hsame : newTableCreation w.db w.driver = (.returned 0, w.driver) := by
        rw [newTableCreation, if_pos hversion]
      simp [hsame, hversion, h.now hversion]
    · rcases lt_trichotomy w.driver.numOfTables w.db.schema.tables.length with hcount | hcount | hcount
      · refine iff_of_false (poll_more hversion hcount) ?_
        rintro (hv | ⟨htables, -⟩)
        · exact hversion hv
        · simp [htables] at hcount
      · by_cases hpos : w.driver.numOfTables = 0
        · have htables : w.db.schema.tables = [] := List.length_eq_zero_iff.mp (hcount.symm.trans hpos)
          simp [poll_empty hkept hversion htables hpos, htables, hpos]
        · refine iff_of_false (poll_same hkept hversion hcount.symm hpos) ?_
          rintro (hv | ⟨-, hnum⟩)
          · exact hversion hv
          · exact hpos hnum
      · refine iff_of_false (poll_fewer hkept hversion hcount) ?_
        rintro (hv | ⟨-, hnum⟩)
        · exact hversion hv
        · omega

theorem pollStep_kept (w : World) (e : PollEvent) (w' : World) (h : Kept w) (hstep : pollStep w e = some w')
    (hkeeps : PollKeeps w e w') : Kept w' := by
  have hcond := (pollStep_decided w e w' h hstep).mp hkeeps
  cases e with
  | change schema more =>
    rw [pollStep] at hstep
    obtain rfl := Option.some.inj hstep
    have hseen := h.seen
    exact ⟨h.once, fun heq => by simp only at heq; omega, by simp only; omega⟩
  | poll =>
    rw [pollStep] at hstep
    obtain rfl := Option.some.inj hstep
    have hsame : (newTableCreation w.db w.driver).2 = w.driver := by
      obtain ⟨schema, hkept⟩ := h.once
      by_cases hversion : w.db.version = w.driver.schema
      · rw [newTableCreation, if_pos hversion]
      · obtain ⟨htables, hnum⟩ := hcond.resolve_left hversion
        rw [poll_empty hkept hversion htables hnum]
    exact ⟨by simpa [hsame] using h.once, by simpa [hsame] using h.now, by simpa [hsame] using h.seen⟩

theorem polling_keeps_sync_iff {w : World} (hsync : InSync w.db.schema w.driver)
    (hseen : w.driver.schema ≤ w.db.version) (es : List PollEvent) :
    EachStep pollStep PollKeeps w es ↔ EachStep pollStep (fun w e _ => PollCondition w e) w es :=
  eachStep_iff pollStep_kept pollStep_decided ⟨⟨_, hsync⟩, fun _ => hsync, hseen⟩ es

def oneTable : Schema := ⟨[⟨"client".toList, 2, 1⟩], by decide⟩

def twoTables : Schema := ⟨[⟨"client".toList, 2, 1⟩, ⟨"invoice".toList, 3, 0⟩], by decide⟩

def listedWorld : World :=
  { db := ⟨oneTable, 4⟩, answer := .returned 0
    driver := ⟨[some ⟨"client".toList, 2, 1⟩], ["client".toList], 1, 4, []⟩ }

theorem listedWorld_inSync : InSync listedWorld.db.schema listedWorld.driver := ⟨.refl _, .refl _, rfl⟩

theorem idle_polls_keep_sync : EachStep pollStep PollKeeps listedWorld [.poll, .poll] := by
  refine (polling_keeps_sync_iff listedWorld_inSync (le_refl 4) _).mpr ?_
  rw [eachStep_cons]
  intro w hw
  rw [pollStep] at hw
  obtain rfl := Option.some.inj hw
  refine ⟨.inl rfl, (eachStep_cons _ _ _ _).mpr fun v hv => ⟨.inl rfl, eachStep_nil _ _⟩⟩

theorem created_table_loses_sync :
    InSync listedWorld.db.schema listedWorld.driver ∧
      ¬ EachStep pollStep PollKeeps listedWorld [.change twoTables 0, .poll] := by
  refine ⟨listedWorld_inSync, fun h => ?_⟩
  rw [eachStep_cons] at h
  obtain ⟨-, h⟩ := h _ rfl
  rw [eachStep_cons] at h
  obtain ⟨hkeeps, -⟩ := h _ rfl
  exact poll_more (by decide) (by decide) hkeeps

end DbHandler.Sqlite
