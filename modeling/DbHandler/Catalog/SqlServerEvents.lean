import DbHandler.Foundation.Runs
import DbHandler.Catalog.Objects

namespace DbHandler.Catalog.SqlServer

open Foundation Foundation.Runs

structure Pointer where
  schemaName : Text
  tableName : Text
  live : Bool
  deriving DecidableEq, Repr

structure Picture where
  tables : OrderedMap Text (List Pointer)
  tableNames : List Text
  dbName : Text

structure TableRow where
  catalog : Text
  schema : Text
  table : Text
  deriving DecidableEq, Repr

/-- What the queue of notifications and the calls that follow deliver: the text of the statement, the name of its
target, the rows of `SQLTables` and whether `GetTableOwner`, `GetTableId` and `AddDropTable` succeed. -/
structure Message where
  command : Text
  target : Text
  sqlTables : Option Text → Text → List TableRow
  ownerRead : Bool
  idRead : Bool
  tableRead : Bool

inductive Operation
  | create
  | drop
  | alter
  deriving DecidableEq, Repr

def upToBlank (s : Text) : Text := s.takeWhile (· ≠ ' ')

/-- `s.substr( s.find( L' ' ) + 1 )`, the whole text where there is no blank. -/
def afterBlank (s : Text) : Text := if ' ' ∈ s then (s.dropWhile (· ≠ ' ')).drop 1 else s

/-- `ops`: 0, 1 and 2. `trim` works on a copy of its argument, so nothing is trimmed. -/
def operationOf (command : Text) : Operation :=
  let operation := upToBlank command
  let element := (upToBlank (afterBlank command)).map Char.toUpper
  if element = "TABLE".toList ∨ element = "VIEW".toList then
    if operation = "DROP".toList then .drop
    else if operation = "ALTER".toList then .alter
    else .create
  else if element = "INDEX".toList then .alter
  else .create

def splitTarget (target : Text) : Option Text × Text :=
  if '.' ∈ target then
    let schemaName := target.takeWhile (· ≠ '.')
    (if schemaName = [] then none else some schemaName, (target.dropWhile (· ≠ '.')).drop 1)
  else (none, target)

def Message.found (m : Message) : Option TableRow :=
  (m.sqlTables (splitTarget m.target).1 (splitTarget m.target).2).head?

def storedPointer (schema table : Text) : Pointer :=
  ⟨schema, ODBC.storedName "Microsoft SQL Server".toList schema table, true⟩

/-- `AddDropTable` with `tableAdded = true`, of which the result is not looked at. -/
def addTable (m : Message) (row : TableRow) (p : Picture) : Picture :=
  let catalog := if row.catalog = [] then p.dbName else row.catalog
  if m.tableRead then { p with tables := p.tables.push catalog (storedPointer row.schema row.table) } else p

def pushName (row : TableRow) (p : Picture) : Picture :=
  { p with tableNames := p.tableNames ++ [row.schema ++ '.' :: row.table] }

/-- The walk over a copy of the vector; `none` where it reads a table that was deleted. The vector itself keeps the
pointer to the table that is deleted here. -/
def deleteFirst (schema table : Text) : List Pointer → Option (List Pointer)
  | [] => some []
  | t :: ts =>
    if t.live = false then none
    else if t.schemaName = schema ∧ t.tableName = table then some ({ t with live := false } :: ts)
    else (deleteFirst schema table ts).map (t :: ·)

def deleteTable (row : TableRow) (p : Picture) : Option Picture :=
  (deleteFirst row.schema row.table (p.tables.under p.dbName)).map fun ts =>
    { p with tables := p.tables.revise p.dbName fun _ => ts }

/-- What `NewTableCreation` makes of a message; `none` where it reads a deleted table, or copies the name of the
catalog behind itself because there is no schema. -/
def newTableCreation (m : Message) (p : Picture) : Option Picture :=
  if m.command = [] then some p
  else match m.found with
    | none => some p
    | some row =>
      if row.schema = [] ∧ row.catalog ≠ [] then none
      else match operationOf m.command with
        | .create => if m.ownerRead && m.idRead then some (pushName row (addTable m row p)) else some p
        | .drop => deleteTable row p
        | .alter => (deleteTable row p).map (addTable m row)

structure TableName where
  schema : Text
  table : Text
  deriving DecidableEq, Repr

def TableName.row (dbName : Text) (t : TableName) : TableRow := ⟨dbName, t.schema, t.table⟩

def TableName.pointer (t : TableName) : Pointer := storedPointer t.schema t.table

def TableName.entry (t : TableName) : Text := t.schema ++ '.' :: t.table

structure Database where
  tables : List TableName
  nodup : tables.Nodup

structure InSync (p : Picture) (db : Database) : Prop where
  tables : (p.tables.under p.dbName).Perm (db.tables.map TableName.pointer)
  otherCatalogs : ∀ catalog, catalog ≠ p.dbName → p.tables.under catalog = []
  tableNames : p.tableNames.Perm (db.tables.map TableName.entry)

inductive Change
  | create
  | alter
  | drop
  | createIndex
  | dropIndex
  deriving DecidableEq, Repr

structure Event where
  change : Change
  table : TableName
  message : Message

def Change.apply (t : TableName) (db : Database) : Change → Option Database
  | .create => if h : t ∈ db.tables then none else some ⟨t :: db.tables, List.nodup_cons.mpr ⟨h, db.nodup⟩⟩
  | .drop => if t ∈ db.tables then some ⟨db.tables.erase t, db.nodup.erase t⟩ else none
  | .alter | .createIndex | .dropIndex => if t ∈ db.tables then some db else none

/-- `SQLTables` resolves the name; a table that was dropped may be unknown to it. The schema sys has no such events. -/
def Event.Resolved (e : Event) (dbName : Text) : Prop :=
  e.table.schema ≠ "sys".toList ∧
    (e.message.found = some (e.table.row dbName) ∨ e.change = .drop ∧ e.message.found = none)

instance (e : Event) (dbName : Text) : Decidable (e.Resolved dbName) := inferInstanceAs (Decidable (_ ∧ (_ ∨ _ ∧ _)))

structure World where
  db : Database
  picture : Option Picture

def eventStep (w : World) (e : Event) : Option World := do
  let p ← w.picture
  let db ← e.change.apply e.table w.db
  if e.Resolved p.dbName then some ⟨db, newTableCreation e.message p⟩ else none

def EventKeeps (_ : World) (_ : Event) (w : World) : Prop := ∃ p, w.picture = some p ∧ InSync p w.db

/-- A creation that is taken for one and whose calls succeed, or a change of a table that is passed over. -/
def Event.Keeps (e : Event) (p : Picture) : Prop :=
  match e.change with
  | .create =>
    e.message.command ≠ [] ∧ ¬ (e.table.schema = [] ∧ p.dbName ≠ []) ∧ operationOf e.message.command = .create ∧
      e.message.ownerRead = true ∧ e.message.idRead = true ∧ e.message.tableRead = true
  | .drop => False
  | .alter | .createIndex | .dropIndex =>
    e.message.command = [] ∨
      ¬ (e.table.schema = [] ∧ p.dbName ≠ []) ∧ operationOf e.message.command = .create ∧
        ¬ (e.message.ownerRead = true ∧ e.message.idRead = true)

def EventCondition (w : World) (e : Event) : Prop := ∀ p, w.picture = some p → e.Keeps p

theorem TableName.pointer_live (t : TableName) : t.pointer.live = true := rfl

theorem InSync.live {p : Picture} {db : Database} (h : InSync p db) : ∀ t ∈ p.tables.under p.dbName, t.live = true := by
  intro t ht
  obtain ⟨name, -, rfl⟩ := List.mem_map.mp (h.tables.mem_iff.mp ht)
  exact name.pointer_live

theorem InSync.length_eq {p : Picture} {db : Database} (h : InSync p db) : p.tableNames.length = db.tables.length := by
  rw [h.tableNames.length_eq, List.length_map]

theorem pointer_of_ne_sys {t : TableName} (h : t.schema ≠ "sys".toList) : t.pointer = ⟨t.schema, t.table, true⟩ := by
  rw [TableName.pointer, storedPointer, ODBC.storedName, if_neg fun hsys => h hsys.2]

theorem deleteFirst_dead {schema table : Text} {ts us : List Pointer} (hmem : ⟨schema, table, true⟩ ∈ ts)
    (h : deleteFirst schema table ts = some us) : ∃ u ∈ us, u.live = false := by
  induction ts generalizing us with
  | nil => simp at hmem
  | cons t ts ih =>
    rw [deleteFirst] at h
    split_ifs at h with hdead hfound
    · obtain rfl := Option.some.inj h
      exact ⟨_, List.mem_cons_self, rfl⟩
    · obtain ⟨vs, hvs, rfl⟩ := Option.map_eq_some_iff.mp h
      rcases List.mem_cons.mp hmem with rfl | hmem
      · exact absurd ⟨rfl, rfl⟩ hfound
      · obtain ⟨u, hu, hlive⟩ := ih hmem hvs
        exact ⟨u, List.mem_cons_of_mem _ hu, hlive⟩

theorem addTable_tableNames (m : Message) (row : TableRow) (p : Picture) :
    (addTable m row p).tableNames = p.tableNames := by
  rw [addTable]
  split_ifs <;> rfl

theorem addTable_dbName (m : Message) (row : TableRow) (p : Picture) : (addTable m row p).dbName = p.dbName := by
  rw [addTable]
  split_ifs <;> rfl

theorem mem_under_addTable {m : Message} {row : TableRow} {p : Picture} {catalog : Text} {t : Pointer}
    (h : t ∈ p.tables.under catalog) : t ∈ (addTable m row p).tables.under catalog := by
  rw [addTable]
  by_cases hread : m.tableRead = true
  · rw [if_pos hread, OrderedMap.under_push]
    exact List.mem_append_left _ h
  · rw [if_neg hread]
    exact h

theorem deleteTable_dead {row : TableRow} {p q : Picture}
    (hmem : ⟨row.schema, row.table, true⟩ ∈ p.tables.under p.dbName) (h : deleteTable row p = some q) :
    q.tableNames = p.tableNames ∧ q.dbName = p.dbName ∧ ∃ u ∈ q.tables.under q.dbName, u.live = false := by
  obtain ⟨us, hus, rfl⟩ := Option.map_eq_some_iff.mp h
  refine ⟨rfl, rfl, ?_⟩
  rw [OrderedMap.under_revise, if_pos rfl]
  exact deleteFirst_dead hmem hus

theorem deleteTable_tableNames {row : TableRow} {p q : Picture} (h : deleteTable row p = some q) :
    q.tableNames = p.tableNames := by
  obtain ⟨us, -, rfl⟩ := Option.map_eq_some_iff.mp h
  rfl

theorem InSync.not_dead {p : Picture} {db : Database} (h : InSync p db) :
    ¬ ∃ u ∈ p.tables.under p.dbName, u.live = false := by
  rintro ⟨u, hu, hdead⟩
  rw [h.live u hu] at hdead
  cases hdead

theorem newTableCreation_found {m : Message} {p : Picture} {row : TableRow} (hcommand : m.command ≠ [])
    (hfound : m.found = some row) (hschema : ¬ (row.schema = [] ∧ row.catalog ≠ [])) :
    newTableCreation m p = match operationOf m.command with
      | .create => if m.ownerRead && m.idRead then some (pushName row (addTable m row p)) else some p
      | .drop => deleteTable row p
      | .alter => (deleteTable row p).map (addTable m row) := by
  rw [newTableCreation, if_neg hcommand, hfound]
  simp only [if_neg hschema]

theorem newTableCreation_overrun {m : Message} {p : Picture} {row : TableRow} (hcommand : m.command ≠ [])
    (hfound : m.found = some row) (hschema : row.schema = [] ∧ row.catalog ≠ []) : newTableCreation m p = none := by
  rw [newTableCreation, if_neg hcommand, hfound]
  simp only [if_pos hschema]

theorem newTableCreation_tableNames {m : Message} {p q : Picture} (h : newTableCreation m p = some q) :
    q.tableNames = p.tableNames ∨
      operationOf m.command = .create ∧ ∃ name, q.tableNames = p.tableNames ++ [name] := by
  by_cases hcommand : m.command = []
  · rw [newTableCreation, if_pos hcommand] at h
    exact .inl (by rw [← Option.some.inj h])
  · cases hfound : m.found with
    | none =>
      rw [newTableCreation, if_neg hcommand, hfound] at h
      exact .inl (by rw [← Option.some.inj h])
    | some row =>
      by_cases hschema : row.schema = [] ∧ row.catalog ≠ []
      · rw [newTableCreation_overrun hcommand hfound hschema] at h
        cases h
      · rw [newTableCreation_found hcommand hfound hschema] at h
        cases hoperation : operationOf m.command with
        | create =>
          rw [hoperation] at h
          simp only at h
          split_ifs at h
          · refine .inr ⟨rfl, row.schema ++ '.' :: row.table, ?_⟩
            rw [← Option.some.inj h, pushName, addTable_tableNames]
          · exact .inl (by rw [← Option.some.inj h])
        | drop =>
          rw [hoperation] at h
          exact .inl (deleteTable_tableNames h)
        | alter =>
          rw [hoperation] at h
          obtain ⟨r, hr, rfl⟩ := Option.map_eq_some_iff.mp h
          exact .inl ((addTable_tableNames m row r).trans (deleteTable_tableNames hr))

theorem creation_keeps_iff {p : Picture} {known db : Database} {t : TableName} {m : Message} (h : InSync p known)
    (hdb : db.tables = t :: known.tables) (hfound : m.found = some (t.row p.dbName)) :
    (∃ q, newTableCreation m p = some q ∧ InSync q db) ↔
      m.command ≠ [] ∧ ¬ (t.schema = [] ∧ p.dbName ≠ []) ∧ operationOf m.command = .create ∧
        m.ownerRead = true ∧ m.idRead = true ∧ m.tableRead = true := by
  have hlength : db.tables.length = p.tableNames.length + 1 := by rw [hdb, h.length_eq, List.length_cons]
  have hcatalog : (if (t.row p.dbName).catalog = [] then p.dbName else (t.row p.dbName).catalog) = p.dbName := by
    rw [ite_eq_left_iff]
    exact fun _ => rfl
  constructor
  · rintro ⟨q, hq, hsync⟩
    have hnames := hsync.length_eq
    have hcommand : m.command ≠ [] := by
      intro hcommand
      rw [newTableCreation, if_pos hcommand] at hq
      rw [← Option.some.inj hq] at hnames
      omega
    have hschema : ¬ (t.schema = [] ∧ p.dbName ≠ []) := by
      intro hschema
      rw [newTableCreation_overrun hcommand hfound hschema] at hq
      cases hq
    have hoperation : operationOf m.command = .create := by
      rcases newTableCreation_tableNames hq with hsame | ⟨hoperation, -⟩
      · rw [hsame] at hnames
        omega
      · exact hoperation
    rw [newTableCreation_found hcommand hfound hschema, hoperation] at hq
    simp only at hq
    by_cases hread : (m.ownerRead && m.idRead) = true
    · rw [if_pos hread] at hq
      obtain rfl := Option.some.inj hq
      have htable : m.tableRead = true := by
        by_contra htable
        have htables := hsync.tables.length_eq
        rw [pushName, addTable, if_neg htable] at htables
        simp only [List.length_map] at htables
        have hknown := h.tables.length_eq
        rw [List.length_map] at hknown
        rw [hdb, List.length_cons] at htables
        omega
      obtain ⟨howner, hid⟩ := Bool.and_eq_true_iff.mp hread
      exact ⟨hcommand, hschema, hoperation, howner, hid, htable⟩
    · rw [if_neg hread] at hq
      rw [← Option.some.inj hq] at hnames
      omega
  · rintro ⟨hcommand, hschema, hoperation, howner, hid, htable⟩
    refine ⟨pushName (t.row p.dbName) (addTable m (t.row p.dbName) p), ?_, ?_⟩
    · rw [newTableCreation_found hcommand hfound hschema, hoperation]
      simp only [howner, hid, Bool.and_self, if_true]
    · have hadded : addTable m (t.row p.dbName) p = { p with tables := p.tables.push p.dbName t.pointer } := by
        simp only [addTable, hcatalog, htable, if_true]
        rfl
      rw [hadded]
      refine ⟨?_, fun catalog hne => ?_, ?_⟩
      · simp only [pushName]
        rw [OrderedMap.under_push, if_pos rfl, hdb, List.map_cons]
        exact (h.tables.append_right _).trans List.perm_append_comm
      · simp only [pushName] at hne ⊢
        rw [OrderedMap.under_push, if_neg hne.symm, h.otherCatalogs catalog hne, List.append_nil]
      · simp only [pushName]
        rw [hdb, List.map_cons]
        exact (h.tableNames.append_right _).trans List.perm_append_comm

theorem change_keeps_iff {p : Picture} {db : Database} {t : TableName} {m : Message} (h : InSync p db)
    (ht : t ∈ db.tables) (hsys : t.schema ≠ "sys".toList) (hfound : m.found = some (t.row p.dbName)) :
    (∃ q, newTableCreation m p = some q ∧ InSync q db) ↔
      m.command = [] ∨ ¬ (t.schema = [] ∧ p.dbName ≠ []) ∧ operationOf m.command = .create ∧
        ¬ (m.ownerRead = true ∧ m.idRead = true) := by
  have hmem : ⟨t.schema, t.table, true⟩ ∈ p.tables.under p.dbName := by
    rw [← pointer_of_ne_sys hsys]
    exact h.tables.mem_iff.mpr (List.mem_map_of_mem ht)
  by_cases hcommand : m.command = []
  · refine iff_of_true ⟨p, ?_, h⟩ (.inl hcommand)
    rw [newTableCreation, if_pos hcommand]
  · by_cases hschema : t.schema = [] ∧ p.dbName ≠ []
    · rw [newTableCreation_overrun hcommand hfound hschema]
      simp [hcommand, hschema]
    · rw [newTableCreation_found hcommand hfound hschema]
      cases hoperation : operationOf m.command with
      | create =>
        by_cases hread : (m.ownerRead && m.idRead) = true
        · simp only [if_pos hread]
          have hreads := Bool.and_eq_true_iff.mp hread
          refine iff_of_false ?_ (by simp [hcommand, hreads])
          rintro ⟨q, hq, hsync⟩
          have hnames := hsync.length_eq
          rw [← Option.some.inj hq, pushName, addTable_tableNames, List.length_append, h.length_eq,
            List.length_singleton] at hnames
          omega
        · simp only [if_neg hread]
          refine iff_of_true ⟨p, rfl, h⟩ (.inr ⟨hschema, trivial, ?_⟩)
          rwa [← Bool.and_eq_true_iff]
      | drop =>
        refine iff_of_false ?_ (by simp [hcommand])
        rintro ⟨q, hq, hsync⟩
        exact hsync.not_dead (deleteTable_dead hmem hq).2.2
      | alter =>
        refine iff_of_false ?_ (by simp [hcommand])
        rintro ⟨q, hq, hsync⟩
        obtain ⟨r, hr, rfl⟩ := Option.map_eq_some_iff.mp hq
        obtain ⟨-, -, u, hu, hdead⟩ := deleteTable_dead hmem hr
        apply hsync.not_dead
        rw [addTable_dbName]
        exact ⟨u, mem_under_addTable hu, hdead⟩

theorem drop_not_in_sync {p q : Picture} {known db : Database} {m : Message} (h : InSync p known)
    (hdb : db.tables.length < known.tables.length) (hq : newTableCreation m p = some q) : ¬ InSync q db := by
  intro hsync
  have hknown := h.length_eq
  have hnames := hsync.length_eq
  rcases newTableCreation_tableNames hq with hsame | ⟨-, name, hmore⟩
  · rw [hsame] at hnames
    omega
  · rw [hmore, List.length_append] at hnames
    omega

def Kept (w : World) : Prop := ∃ p, w.picture = some p ∧ InSync p w.db

theorem eventStep_eq_some {w w' : World} {e : Event} (h : eventStep w e = some w') :
    ∃ p db, w.picture = some p ∧ e.change.apply e.table w.db = some db ∧ e.Resolved p.dbName ∧
      w' = ⟨db, newTableCreation e.message p⟩ := by
  obtain ⟨p, hp, h⟩ := Option.bind_eq_some_iff.mp h
  obtain ⟨db, hdb, h⟩ := Option.bind_eq_some_iff.mp h
  split_ifs at h with hresolved
  exact ⟨p, db, hp, hdb, hresolved, (Option.some.inj h).symm⟩

theorem Event.Resolved.found {e : Event} {dbName : Text} (h : e.Resolved dbName) (hdrop : e.change ≠ .drop) :
    e.message.found = some (e.table.row dbName) := h.2.resolve_right fun hd => hdrop hd.1

theorem Change.apply_same {c : Change} {t : TableName} {db db' : Database}
    (hc : c = .alter ∨ c = .createIndex ∨ c = .dropIndex) (h : c.apply t db = some db') : t ∈ db.tables ∧ db' = db := by
  rcases hc with rfl | rfl | rfl <;>
    · simp only [Change.apply] at h
      split_ifs at h with hmem
      exact ⟨hmem, (Option.some.inj h).symm⟩

theorem eventStep_decided (w : World) (e : Event) (w' : World) (h : Kept w) (hstep : eventStep w e = some w') :
    EventKeeps w e w' ↔ EventCondition w e := by
  obtain ⟨p, db, hp, hdb, hresolved, rfl⟩ := eventStep_eq_some hstep
  obtain ⟨q, hq, hkept⟩ := h
  obtain rfl : p = q := Option.some.inj (hp.symm.trans hq)
  have hcondition : EventCondition w e ↔ e.Keeps p := by simp [EventCondition, hp]
  have hsame (hc : e.change = .alter ∨ e.change = .createIndex ∨ e.change = .dropIndex) :
      (∃ q, newTableCreation e.message p = some q ∧ InSync q db) ↔
        e.message.command = [] ∨ ¬ (e.table.schema = [] ∧ p.dbName ≠ []) ∧ operationOf e.message.command = .create ∧
          ¬ (e.message.ownerRead = true ∧ e.message.idRead = true) := by
    obtain ⟨hmem, rfl⟩ := Change.apply_same hc hdb
    refine change_keeps_iff hkept hmem hresolved.1 (hresolved.found ?_)
    intro hdrop
    rw [hdrop] at hc
    simp at hc
  rw [hcondition, EventKeeps, Event.Keeps]
  cases hchange : e.change with
  | create =>
    rw [hchange, Change.apply] at hdb
    split_ifs at hdb
    obtain rfl := Option.some.inj hdb
    exact creation_keeps_iff hkept rfl (hresolved.found (by rw [hchange]; decide))
  | drop =>
    rw [hchange, Change.apply] at hdb
    split_ifs at hdb with hmem
    obtain rfl := Option.some.inj hdb
    refine iff_of_false ?_ not_false
    rintro ⟨q, hq, hsync⟩
    refine drop_not_in_sync hkept ?_ hq hsync
    have hpos := List.length_pos_of_mem hmem
    simp only [List.length_erase_of_mem hmem]
    omega
  | alter => exact hsame (.inl hchange)
  | createIndex => exact hsame (.inr (.inl hchange))
  | dropIndex => exact hsame (.inr (.inr hchange))

theorem events_keep_sync_iff {w : World} {p : Picture} (hpicture : w.picture = some p) (hsync : InSync p w.db)
    (es : List Event) :
    EachStep eventStep EventKeeps w es ↔ EachStep eventStep (fun w e _ => EventCondition w e) w es :=
  eachStep_iff (P := Kept) (fun _ _ _ _ _ hkeeps => hkeeps) eventStep_decided ⟨p, hpicture, hsync⟩ es

def clients : Database := ⟨[⟨"dbo".toList, "client".toList⟩], by decide⟩

def listedWorld : World where
  db := clients
  picture := some {
    tables := OrderedMap.push "shop".toList ⟨"dbo".toList, "client".toList, true⟩ .empty
    tableNames := ["dbo.client".toList]
    dbName := "shop".toList }

theorem listed_inSync (p : Picture) (h : listedWorld.picture = some p) : InSync p listedWorld.db := by
  obtain rfl := Option.some.inj h
  refine ⟨.refl _, fun catalog hne => ?_, .refl _⟩
  rw [OrderedMap.under_push, if_neg (Ne.symm hne), OrderedMap.under_empty, List.append_nil]

def statement (change : Change) (name command : Text) : Event where
  change := change
  table := ⟨"dbo".toList, name⟩
  message := ⟨command, "dbo.".toList ++ name, fun _ table => [⟨"shop".toList, "dbo".toList, table⟩], true, true, true⟩

theorem created_table_keeps_sync :
    EachStep eventStep EventKeeps listedWorld
      [statement .create "invoice".toList "CREATE TABLE dbo.invoice (id int)".toList] := by
  refine (events_keep_sync_iff rfl (listed_inSync _ rfl) _).mpr ?_
  rw [eachStep_cons]
  refine fun w hw => ⟨fun p hp => ?_, eachStep_nil _ _⟩
  obtain rfl := Option.some.inj hp
  refine ⟨by decide, by decide, by decide, rfl, rfl, rfl⟩

theorem altered_table_dangles :
    (∃ p, listedWorld.picture = some p ∧ InSync p listedWorld.db) ∧
      ¬ EachStep eventStep EventKeeps listedWorld
        [statement .alter "client".toList "ALTER TABLE dbo.client ADD name varchar(20)".toList] := by
  refine ⟨⟨_, rfl, listed_inSync _ rfl⟩, fun h => ?_⟩
  rw [eachStep_cons] at h
  obtain ⟨⟨p, hp, hsync⟩, -⟩ := h _ rfl
  obtain rfl := Option.some.inj hp
  have htables := hsync.tables.length_eq
  exact absurd htables (by decide)

end DbHandler.Catalog.SqlServer
