import DbHandler.Interface

namespace DbHandler.Sqlite

structure TableShape where
  name : Text
  columns : ℕ
  indexes : ℕ
  deriving DecidableEq, Repr

/-- The tables and views of a database in the order of `sqlite_master`. -/
structure Schema where
  tables : List TableShape
  names_nodup : (tables.map (·.name)).Nodup

structure Database where
  schema : Schema
  version : ℕ

/-- The driver's picture of the database; an entry of `tables` whose table was deleted is `none`. -/
structure Driver where
  tables : List (Option TableShape)
  tableNames : List Text
  numOfTables : ℕ
  schema : ℕ
  errorMsg : List Text
  deriving DecidableEq, Repr

inductive Answer
  | returned (code : ℕ)
  | outOfRange
  | undefined
  deriving DecidableEq, Repr

def internalError : Text :=
  "Internaql database error!! Try to restart an applicaton and see if it will be fixed".toList

def Database.lookup (db : Database) (name : Text) : Option TableShape :=
  db.schema.tables.find? (·.name = name)

/-- The columns are read only while no error was recorded, and the list of errors is kept between polls. -/
def shapeOf (db : Database) (d : Driver) (name : Text) : TableShape :=
  match db.lookup name with
  | some t => ⟨name, if d.errorMsg.isEmpty then t.columns else 0, t.indexes⟩
  | none => ⟨name, 0, 0⟩

def addTable (db : Database) (name : Text) (d : Driver) : Driver :=
  { d with tables := d.tables ++ [some (shapeOf db d name)], tableNames := d.tableNames ++ [name] }

/-- `AddDropTable` with `tableAdded = false` deletes the fields of a table, and then the table with its fields. -/
def removeTable (name : Text) : List (Option TableShape) → Option (List (Option TableShape))
  | [] => some []
  | none :: _ => none
  | some t :: ts =>
    if t.name = name then if t.columns = 0 then removeTable name ts else none
    else (removeTable name ts).map (some t :: ·)

def dropTable (name : Text) (d : Driver) : Option Driver :=
  (removeTable name d.tables).map fun tables =>
    { d with tables := tables, tableNames := d.tableNames.filter (· ≠ name) }

/-- The table of that name, and the list after `delete`; the walk reads every entry before it. -/
def takeTable (name : Text) : List (Option TableShape) → Option (TableShape × List (Option TableShape))
  | [] => none
  | none :: _ => none
  | some t :: ts =>
    if t.name = name then some (t, none :: ts) else (takeTable name ts).map fun r => (r.1, some t :: r.2)

def checkTable (db : Database) (row : TableShape) (d : Driver) : Option Driver :=
  (takeTable row.name d.tables).map fun r =>
    if row.columns ≠ r.1.columns ∨ row.indexes ≠ r.1.indexes then addTable db row.name { d with tables := r.2 }
    else d

/-- One row of the loop over the names; `temp` is the copy of the names that the loop thins out. -/
def scanRow (db : Database) (known : List Text) (row : TableShape) (s : Driver × List Text) :
    Option (Driver × List Text) :=
  let d := s.1
  let temp := s.2
  if d.numOfTables < db.schema.tables.length then
    if row.name ∈ known then some s else some ({ addTable db row.name d with schema := db.version }, temp)
  else if db.schema.tables.length < d.numOfTables then
    some ({ d with schema := db.version }, temp.filter (· ≠ row.name))
  else (checkTable db row d).map fun d => ({ d with schema := db.version }, temp)

def scanRows (db : Database) (known : List Text) : List TableShape → Driver × List Text → Option (Driver × List Text)
  | [], s => some s
  | row :: rows, s => (scanRow db known row s).bind (scanRows db known rows)

/-- What stands after the loop: a fall in the number of tables drops the first missing name, an equal
number adds the first name once more. -/
def settle (db : Database) (d : Driver) (temp : List Text) : Answer × Driver :=
  if db.schema.tables.length < d.numOfTables then
    match temp with
    | [] => (.outOfRange, d)
    | name :: _ =>
      match dropTable name d with
      | none => (.undefined, d)
      | some d => (.returned 0, { d with errorMsg := d.errorMsg ++ [internalError] })
  else if db.schema.tables.length = d.numOfTables then
    match temp with
    | [] => (.outOfRange, d)
    | name :: _ =>
      let d := addTable db name d
      (.returned 0, { d with errorMsg := d.errorMsg ++ [internalError] })
  else (.returned 0, d)

def newTableCreation (db : Database) (d : Driver) : Answer × Driver :=
  if db.version = d.schema then (.returned 0, d)
  else match scanRows db d.tableNames db.schema.tables (d, d.tableNames) with
    | none => (.undefined, d)
    | some (d, temp) => settle db d temp

structure InSync (schema : Schema) (d : Driver) : Prop where
  tables : d.tables.Perm (schema.tables.map some)
  tableNames : d.tableNames.Perm (schema.tables.map (·.name))
  numOfTables : d.numOfTables = schema.tables.length

theorem scanRows_invariant {db : Database} {known : List Text} {P : Driver × List Text → Prop}
    (hrow : ∀ row s t, P s → scanRow db known row s = some t → P t) {rows : List TableShape}
    {s t : Driver × List Text} (hs : P s) (h : scanRows db known rows s = some t) : P t := by
  induction rows generalizing s with
  | nil =>
    obtain rfl : s = t := by simpa [scanRows] using h
    exact hs
  | cons row rows ih =>
    obtain ⟨u, hu, hrest⟩ := Option.bind_eq_some_iff.mp h
    exact ih (hrow row s u hs hu) hrest

theorem scanRow_numOfTables {db : Database} {known : List Text} {row : TableShape} {s t : Driver × List Text}
    (h : scanRow db known row s = some t) : t.1.numOfTables = s.1.numOfTables := by
  simp only [scanRow, checkTable, Option.map_map] at h
  split_ifs at h
  · rw [← Option.some.inj h]
  · rw [← Option.some.inj h]
    rfl
  · rw [← Option.some.inj h]
  · obtain ⟨r, -, rfl⟩ := Option.map_eq_some_iff.mp h
    simp only [Function.comp_apply]
    split_ifs <;> rfl

theorem scanRows_numOfTables {db : Database} {known : List Text} {rows : List TableShape} {s t : Driver × List Text}
    (h : scanRows db known rows s = some t) : t.1.numOfTables = s.1.numOfTables :=
  scanRows_invariant (P := fun u => u.1.numOfTables = s.1.numOfTables)
    (fun _ _ _ hu hrow => (scanRow_numOfTables hrow).trans hu) rfl h

theorem scanRows_grows {db : Database} {known : List Text} {rows : List TableShape} {s t : Driver × List Text}
    (hcount : s.1.numOfTables ≤ db.schema.tables.length) (h : scanRows db known rows s = some t) :
    s.1.tableNames.length ≤ t.1.tableNames.length ∧ t.2 = s.2 := by
  have hinv := scanRows_invariant
    (P := fun u => u.1.numOfTables = s.1.numOfTables ∧ s.1.tableNames.length ≤ u.1.tableNames.length ∧ u.2 = s.2)
    (fun row u v hu hrow => ?_) ⟨rfl, le_rfl, rfl⟩ h
  · exact hinv.2
  · obtain ⟨hnum, hlength, htemp⟩ := hu
    refine ⟨(scanRow_numOfTables hrow).trans hnum, ?_⟩
    simp only [scanRow, checkTable, Option.map_map] at hrow
    split_ifs at hrow with hmore hknown hfewer
    · obtain rfl := Option.some.inj hrow
      exact ⟨hlength, htemp⟩
    · obtain rfl := Option.some.inj hrow
      refine ⟨?_, htemp⟩
      simp only [addTable, List.length_append]
      omega
    · omega
    · obtain ⟨r, -, rfl⟩ := Option.map_eq_some_iff.mp hrow
      simp only [Function.comp_apply]
      refine ⟨?_, htemp⟩
      split_ifs
      · simp only [addTable, List.length_append]
        omega
      · exact hlength

theorem scanRows_missing {db : Database} {known : List Text} {rows : List TableShape} {s : Driver × List Text}
    (hcount : db.schema.tables.length < s.1.numOfTables) {name : Text} (hname : name ∈ s.2)
    (hrows : ∀ row ∈ rows, row.name ≠ name) :
    ∃ t, scanRows db known rows s = some t ∧ name ∈ t.2 := by
  induction rows generalizing s with
  | nil => exact ⟨s, rfl, hname⟩
  | cons row rows ih =>
    have hrow : scanRow db known row s =
        some ({ s.1 with schema := db.version }, s.2.filter (· ≠ row.name)) := by
      simp only [scanRow]
      rw [if_neg (by omega), if_pos hcount]
    obtain ⟨t, ht, hmem⟩ := ih (s := ({ s.1 with schema := db.version }, s.2.filter (· ≠ row.name))) hcount
      (List.mem_filter.mpr ⟨hname, by simpa using (hrows row (by simp)).symm⟩)
      fun r hr => hrows r (by simp [hr])
    exact ⟨t, by rw [scanRows, hrow, Option.bind_some, ht], hmem⟩

end DbHandler.Sqlite
