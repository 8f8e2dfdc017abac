import DbHandler.Foundation.Runs
import DbHandler.Catalog.Objects

namespace DbHandler.Catalog.ODBC

open Foundation Foundation.Runs

structure TableRow where
  tableCatalog : Text
  tableSchema : Text
  tableName : Text
  columns : List Text
  deriving DecidableEq, Repr

structure Database where
  rows : List TableRow
  names_nodup : (rows.map fun r => (r.tableSchema, r.tableName)).Nodup

structure Entry where
  address : ℕ
  schemaName : Text
  tableName : Text
  columns : List Text
  deriving DecidableEq, Repr

/-- What the driver keeps of the database; `made` objects were made so far. -/
structure Picture where
  tables : OrderedMap Text (List Entry)
  tableNames : List Text
  numOfTables : ℕ
  dbName : Text
  made : ℕ

inductive PolledSubtype
  | postgreSQL
  | mySQL
  deriving DecidableEq, Repr

def countQuery (dbName : Text) : PolledSubtype → Text
  | .postgreSQL =>
    "SELECT count(*) FROM information_schema.tables WHERE table_catalog = '".toList ++ dbName ++ "';".toList
  | .mySQL =>
    "SELECT count(*) FROM information_schema.tables WHERE table_schema = '".toList ++ dbName ++ "';".toList

/-- For MySQL the schema is misspelt. -/
def listQuery (dbName : Text) : PolledSubtype → Text
  | .postgreSQL =>
    "SELECT table_schema, table_name, table_catalog FROM information_schema.tables WHERE table_catalog = '".toList ++
      dbName ++ "';".toList
  | .mySQL =>
    "SELECT table_schema, table_name, table_catalog FROM information_schma.tables WHERE table_schema = '".toList ++
      dbName ++ "';".toList

def nameEntry (schemaName tableName : Text) : Text := schemaName ++ '.' :: tableName

def TableRow.entry (r : TableRow) : Text := nameEntry r.tableSchema r.tableName

/-- `AddDropTable` with `tableAdded = true`: it does not push the name. -/
def addTable (db : Database) (catalog schemaName tableName : Text) (p : Picture) : Picture :=
  let table : Entry :=
    { address := p.made
      schemaName := schemaName
      tableName := tableName
      columns := ((db.rows.find? fun r => r.tableSchema = schemaName ∧ r.tableName = tableName).map
        TableRow.columns).getD [] }
  { p with
    tables := p.tables.push (if catalog = [] then p.dbName else catalog) table
    made := p.made + 1 }

/-- `AddDropTable` with `tableAdded = false`. -/
def removeTable (tableName : Text) (p : Picture) : Picture :=
  { p with tables := p.tables.clearLists, tableNames := p.tableNames.filter (· ≠ tableName) }

/-- The variables of the loop; the three names are appended to and cleared on some paths only. -/
structure Scan where
  picture : Picture
  temp : List Text
  sname : Text
  tname : Text
  cname : Text

def Scan.clearNames (st : Scan) : Scan := { st with sname := [], tname := [], cname := [] }

/-- The first fetch is from `stmt`, every later one from `m_hstmt`, which is null between the calls. -/
def fetchedRows (rows : List TableRow) : List TableRow := rows.take 1

def scanRow (db : Database) (count : ℕ) (st : Scan) (row : TableRow) : Scan :=
  let st := { st with
    sname := st.sname ++ row.tableSchema
    tname := st.tname ++ row.tableName
    cname := st.cname ++ row.tableCatalog }
  let tableName := nameEntry st.sname st.tname
  if st.picture.numOfTables < count then
    if tableName ∈ st.picture.tableNames then st.clearNames
    else
      let picture := addTable db st.cname st.sname st.tname st.picture
      { st.clearNames with picture := { picture with numOfTables := picture.numOfTables + 1 } }
  else if count < st.picture.numOfTables ∧ 0 < st.temp.length then
    { st.clearNames with temp := st.temp.filter (· ≠ tableName) }
  else st

def settle (count : ℕ) (st : Scan) : Outcome Picture :=
  if count < st.picture.numOfTables then
    match st.temp with
    | [] => .outOfRange st.picture
    | name :: _ => .returned 0 (removeTable name st.picture)
  else .returned 0 st.picture

def compareTables (db : Database) (p : Picture) : Outcome Picture :=
  settle db.rows.length ((fetchedRows db.rows).foldl (scanRow db db.rows.length) ⟨p, p.tableNames, [], [], []⟩)

def newTableCreation (subtype : PolledSubtype) (accepts : Text → Bool) (db : Database) (p : Picture) :
    Outcome Picture :=
  if accepts (countQuery p.dbName subtype) = false then .returned 1 p
  else if db.rows.length = p.numOfTables then .returned 0 p
  else if accepts (listQuery p.dbName subtype) = false then .returned 1 p
  else compareTables db p

def Picture.entries (p : Picture) : List Entry := p.tables.values.flatten

def TableRow.shown (r : TableRow) : Text × Text × List Text := (r.tableSchema, r.tableName, r.columns)

def Entry.shows (e : Entry) : Text × Text × List Text := (e.schemaName, e.tableName, e.columns)

def Shows (p : Picture) (db : Database) : Prop := (p.entries.map Entry.shows).Perm (db.rows.map TableRow.shown)

structure InSync (p : Picture) (db : Database) : Prop where
  tables : Shows p db
  tableNames : p.tableNames.Perm (db.rows.map TableRow.entry)
  numOfTables : p.numOfTables = db.rows.length

def KeepsUntouched (p : Picture) (db : Database) (q : Picture) : Prop :=
  ∀ e ∈ p.entries, e.shows ∈ db.rows.map TableRow.shown → e ∈ q.entries

inductive PollEvent
  /-- Any number of tables created and dropped, after which the database is this one. -/
  | change (db : Database)
  | poll (accepts : Text → Bool)

structure World where
  subtype : PolledSubtype
  db : Database
  outcome : Outcome Picture

def World.picture (w : World) : Picture := w.outcome.state

def pollStep (w : World) : PollEvent → Option World
  | .change db => some { w with db := db }
  | .poll accepts => some { w with outcome := newTableCreation w.subtype accepts w.db w.picture }

def PollKeeps (w : World) (e : PollEvent) (w' : World) : Prop :=
  match e with
  | .change _ => True
  | .poll _ => ∀ q, w'.outcome = .returned 0 q → InSync q w.db ∧ KeepsUntouched w.picture w.db q

/-- The poll ends early, or `temp.at( 0 )` throws because the first table is the only one that is named, or the
database has the tables it had. -/
def PollCondition (w : World) (e : PollEvent) : Prop :=
  match e with
  | .change _ => True
  | .poll accepts =>
    accepts (countQuery w.picture.dbName w.subtype) = false ∨
      (w.db.rows.length ≠ w.picture.numOfTables ∧ accepts (listQuery w.picture.dbName w.subtype) = false) ∨
      (w.db.rows.length < w.picture.numOfTables ∧
        ∃ row ∈ w.db.rows.head?, ∀ name ∈ w.picture.tableNames, name = row.entry) ∨
      Shows w.picture w.db

theorem scanRow_grown (db : Database) (row : TableRow) {p : Picture} {count : ℕ} (hcount : p.numOfTables < count) :
    (scanRow db count ⟨p, p.tableNames, [], [], []⟩ row).picture.tableNames = p.tableNames ∧
      (scanRow db count ⟨p, p.tableNames, [], [], []⟩ row).picture.numOfTables ≤ count := by
  simp only [scanRow, if_pos hcount]
  split_ifs
  · exact ⟨rfl, hcount.le⟩
  · exact ⟨rfl, hcount⟩

theorem scanRow_fallen {db : Database} {p : Picture} {row : TableRow} {count : ℕ} (hcount : count < p.numOfTables)
    (hnames : 0 < p.tableNames.length) :
    scanRow db count ⟨p, p.tableNames, [], [], []⟩ row =
      ⟨p, p.tableNames.filter (· ≠ row.entry), [], [], []⟩ := by
  simp only [scanRow]
  rw [if_neg (by omega), if_pos ⟨hcount, hnames⟩]
  rfl

theorem compareTables_grown {db : Database} {p : Picture} (hcount : p.numOfTables < db.rows.length) :
    ∃ q, compareTables db p = .returned 0 q ∧ q.tableNames = p.tableNames := by
  obtain ⟨row, rows, hrows⟩ := List.exists_cons_of_length_pos (by omega : 0 < db.rows.length)
  obtain ⟨hnames, hnum⟩ := scanRow_grown db row hcount
  refine ⟨_, ?_, hnames⟩
  simp only [compareTables, fetchedRows, hrows, List.take_succ_cons, List.take_zero, List.foldl_cons, List.foldl_nil]
  rw [settle, if_neg]
  rw [← hrows]
  omega

def namesLeft (db : Database) (p : Picture) : List Text :=
  match db.rows with
  | [] => p.tableNames
  | row :: _ => p.tableNames.filter (· ≠ row.entry)

theorem compareTables_fallen {db : Database} {p : Picture} (hcount : db.rows.length < p.numOfTables)
    (hnames : 0 < p.tableNames.length) :
    compareTables db p = match namesLeft db p with
      | [] => .outOfRange p
      | name :: _ => .returned 0 (removeTable name p) := by
  cases hrows : db.rows with
  | nil =>
    simp only [compareTables, fetchedRows, namesLeft, hrows, List.take_nil, List.foldl_nil, settle, List.length_nil]
    rw [if_pos (by simpa [hrows] using hcount)]
  | cons row rows =>
    simp only [compareTables, fetchedRows, namesLeft, hrows, List.take_succ_cons, List.take_zero, List.foldl_cons,
      List.foldl_nil]
    rw [← hrows, scanRow_fallen hcount hnames, settle, if_pos hcount]

theorem namesLeft_eq_nil_iff {db : Database} {p : Picture} (hnames : 0 < p.tableNames.length) :
    namesLeft db p = [] ↔ ∃ row ∈ db.rows.head?, ∀ name ∈ p.tableNames, name = row.entry := by
  rw [namesLeft]
  cases db.rows with
  | nil => simpa using List.ne_nil_of_length_pos hnames
  | cons row rows => simp [List.filter_eq_nil_iff]

theorem InSync.tableNames_length {p : Picture} {db : Database} (h : InSync p db) :
    p.tableNames.length = p.numOfTables := by
  rw [h.tableNames.length_eq, List.length_map, h.numOfTables]

theorem Shows.length_eq {p : Picture} {db : Database} (h : Shows p db) : p.entries.length = db.rows.length := by
  simpa using List.Perm.length_eq h

theorem Shows.tableNames {p : Picture} {db : Database} (h : Shows p db) :
    (p.entries.map fun e => nameEntry e.schemaName e.tableName).Perm (db.rows.map TableRow.entry) := by
  have hnames := List.Perm.map (fun t : Text × Text × List Text => nameEntry t.1 t.2.1) h
  rwa [List.map_map, List.map_map] at hnames

theorem InSync.of_shows {p : Picture} {known db : Database} (h : InSync p known) (hshows : Shows p db) :
    InSync p db where
  tables := hshows
  tableNames := h.tableNames.trans (h.tables.tableNames.symm.trans hshows.tableNames)
  numOfTables := by rw [h.numOfTables, ← h.tables.length_eq, hshows.length_eq]

theorem keepsUntouched_refl (p : Picture) (db : Database) : KeepsUntouched p db p := fun _ he _ => he

theorem not_shows_of_count {p : Picture} {known db : Database} (h : InSync p known)
    (hcount : db.rows.length ≠ p.numOfTables) : ¬ Shows p db := by
  intro hshows
  apply hcount
  rw [← hshows.length_eq, h.tables.length_eq, h.numOfTables]

theorem compareTables_keeps_iff {p : Picture} {known db : Database} (h : InSync p known)
    (hcount : db.rows.length ≠ p.numOfTables) :
    (∀ q, compareTables db p = .returned 0 q → InSync q db ∧ KeepsUntouched p db q) ↔
      db.rows.length < p.numOfTables ∧ ∃ row ∈ db.rows.head?, ∀ name ∈ p.tableNames, name = row.entry := by
  have hlength := h.tableNames_length
  rcases lt_or_gt_of_ne hcount with hfallen | hgrown
  · have hnames : 0 < p.tableNames.length := by omega
    rw [compareTables_fallen hfallen hnames, ← namesLeft_eq_nil_iff hnames]
    cases hleft : namesLeft db p with
    | nil => simp [hfallen]
    | cons name names =>
      simp only [reduceCtorEq, and_false, iff_false]
      intro hkeeps
      have hnum : (removeTable name p).numOfTables = db.rows.length := (hkeeps _ rfl).1.numOfTables
      exact hcount hnum.symm
  · obtain ⟨q, hq, hnames⟩ := compareTables_grown hgrown
    refine iff_of_false (fun hkeeps => ?_) (fun hfallen => by omega)
    have hsync := (hkeeps q hq).1
    have hlengths := hsync.tableNames.length_eq
    rw [List.length_map, hnames] at hlengths
    omega

def Kept (w : World) : Prop := ∃ known, InSync w.picture known

theorem pollStep_decided (w : World) (e : PollEvent) (w' : World) (h : Kept w) (hstep : pollStep w e = some w') :
    PollKeeps w e w' ↔ PollCondition w e := by
  cases e with
  | change db => exact iff_of_true trivial trivial
  | poll accepts =>
    obtain ⟨known, hkept⟩ := h
    rw [pollStep] at hstep
    obtain rfl := Option.some.inj hstep
    simp only [PollKeeps, PollCondition, newTableCreation]
    by_cases hquery : accepts (countQuery w.picture.dbName w.subtype) = false
    · simp [hquery]
    · rw [if_neg hquery]
      by_cases hcount : w.db.rows.length = w.picture.numOfTables
      · rw [if_pos hcount]
        have hsame : (∀ q, Outcome.returned 0 w.picture = .returned 0 q →
            InSync q w.db ∧ KeepsUntouched w.picture w.db q) ↔ Shows w.picture w.db := by
          constructor
          · intro hkeeps
            exact (hkeeps _ rfl).1.tables
          · rintro hshows q hq
            obtain ⟨-, rfl⟩ := Outcome.returned.inj hq
            exact ⟨hkept.of_shows hshows, keepsUntouched_refl _ _⟩
        rw [hsame]
        simp [hquery, hcount]
      · rw [if_neg hcount]
        by_cases hlist : accepts (listQuery w.picture.dbName w.subtype) = false
        · simp [hlist, hcount]
        · rw [if_neg hlist, compareTables_keeps_iff hkept hcount]
          simp [hquery, hlist, not_shows_of_count hkept hcount]

theorem newTableCreation_unchanged (subtype : PolledSubtype) (accepts : Text → Bool) (db : Database) {known : Database}
    {p : Picture} (h : InSync p known) :
    (∃ q, newTableCreation subtype accepts db p = .returned 0 q) ∨
      (newTableCreation subtype accepts db p).state = p := by
  have hlength := h.tableNames_length
  rw [newTableCreation]
  split_ifs with hquery hcount hlist
  · exact .inr rfl
  · exact .inl ⟨p, rfl⟩
  · exact .inr rfl
  · rcases lt_or_gt_of_ne hcount with hfallen | hgrown
    · rw [compareTables_fallen hfallen (by omega)]
      cases namesLeft db p with
      | nil => exact .inr rfl
      | cons name names => exact .inl ⟨_, rfl⟩
    · obtain ⟨q, hq, -⟩ := compareTables_grown hgrown
      exact .inl ⟨q, hq⟩

theorem pollStep_kept (w : World) (e : PollEvent) (w' : World) (h : Kept w) (hstep : pollStep w e = some w')
    (hkeeps : PollKeeps w e w') : Kept w' := by
  cases e with
  | change db =>
    rw [pollStep] at hstep
    obtain rfl := Option.some.inj hstep
    exact h
  | poll accepts =>
    obtain ⟨known, hkept⟩ := h
    rw [pollStep] at hstep
    obtain rfl := Option.some.inj hstep
    rcases newTableCreation_unchanged w.subtype accepts w.db hkept with ⟨q, hq⟩ | hsame
    · refine ⟨w.db, ?_⟩
      change InSync (newTableCreation w.subtype accepts w.db w.picture).state w.db
      rw [hq]
      exact (hkeeps q hq).1
    · refine ⟨known, ?_⟩
      change InSync (newTableCreation w.subtype accepts w.db w.picture).state known
      rw [hsame]
      exact hkept

theorem polls_keep_sync_iff {w : World} (hsync : InSync w.picture w.db) (es : List PollEvent) :
    EachStep pollStep PollKeeps w es ↔ EachStep pollStep (fun w e _ => PollCondition w e) w es :=
  eachStep_iff pollStep_kept pollStep_decided ⟨w.db, hsync⟩ es

def oneTable : Database := ⟨[⟨"shop".toList, "public".toList, "client".toList, ["id".toList]⟩], by decide⟩

def twoTables : Database :=
  ⟨[⟨"shop".toList, "public".toList, "client".toList, ["id".toList]⟩,
    ⟨"shop".toList, "public".toList, "invoice".toList, ["id".toList]⟩], by decide⟩

def listedWorld : World where
  subtype := .postgreSQL
  db := oneTable
  outcome := .returned 0 {
    tables := .ofEntries [("shop".toList, [⟨0, "public".toList, "client".toList, ["id".toList]⟩])]
      (List.pairwise_singleton _ _)
    tableNames := ["public.client".toList]
    numOfTables := 1
    dbName := "shop".toList
    made := 1 }

theorem listedWorld_inSync : InSync listedWorld.picture listedWorld.db := ⟨.refl _, .refl _, rfl⟩

theorem idle_polls_leave_sync : EachStep pollStep PollKeeps listedWorld [.poll fun _ => true] := by
  refine (polls_keep_sync_iff listedWorld_inSync _).mpr ?_
  rw [eachStep_cons]
  exact fun w hw => ⟨.inr (.inr (.inr (.refl _))), eachStep_nil _ _⟩

theorem created_table_not_seen :
    InSync listedWorld.picture listedWorld.db ∧
      ¬ EachStep pollStep PollKeeps listedWorld [.change twoTables, .poll fun _ => true] := by
  refine ⟨listedWorld_inSync, fun h => ?_⟩
  rw [eachStep_cons] at h
  obtain ⟨-, h⟩ := h _ rfl
  rw [eachStep_cons] at h
  obtain ⟨hkeeps, -⟩ := h _ rfl
  have hsync := (hkeeps _ rfl).1.tableNames.length_eq
  exact absurd hsync (by decide)

end DbHandler.Catalog.ODBC
