import DbHandler.Foundation.Resources

namespace DbHandler.SqliteStatements

open Foundation.Resources

inductive Member where
  | stmt1
  | stmt2
  | stmt3
  | stmt
  deriving DecidableEq, Repr

/-- How a function ends. `from_bytes` throws where a text of the database is not UTF-8. -/
inductive Exit where
  | returned (failed : Bool)
  | thrown
  deriving DecidableEq, Repr

def Exit.throws : Exit → Bool
  | .returned _ => false
  | .thrown => true

/-- What `sqlite3_prepare_v2` answers, and how the code ends that uses the statement. -/
inductive Reading where
  | refused
  | finished (failed : Bool)
  | thrown
  deriving DecidableEq, Repr

def Reading.prepared : Reading → Bool
  | .refused => false
  | _ => true

/-- The exit, where a statement that is not prepared leaves `result` as `refused` says. -/
def Reading.exit (refused : Bool) : Reading → Exit
  | .refused => .returned refused
  | .finished failed => .returned failed
  | .thrown => .thrown

abbrev Driver (α : Type) := StateM (Store Member) α

section Statements

def reading (o : Reading) (refused : Bool) : Driver Exit :=
  scope o.prepared (.returned refused) Exit.throws fun _ => pure (o.exit refused)

/-- A statement whose rows hold no text that is converted. -/
def execute (prepared failed : Bool) : Driver Exit :=
  scope prepared (.returned true) Exit.throws fun _ => pure (.returned failed)

/-- A statement that no path finalises. -/
def unfinalised (prepared failed : Bool) : Driver Exit :=
  scope prepared (.returned true) (fun _ => true) fun _ => pure (.returned failed)

/-- `if( !result )`; an exception is passed on. -/
def Exit.andThen (e : Exit) (f : Driver Exit) : Driver Exit :=
  guarded (e = .returned false) e f

theorem balanced_reading (o : Reading) (refused : Bool) :
    Balanced (reading o refused) (o.exit refused) (o ≠ .thrown) := by
  have h := (balanced_pure (V := Member) (o.exit refused)).scope Exit.throws o.prepared (.returned refused)
  unfold reading
  cases o with
  | refused => exact h.congr (by simp [Reading.prepared])
  | finished failed => exact h.congr (by simp [Reading.prepared, Reading.exit, Exit.throws])
  | thrown => exact h.congr (by simp [Reading.prepared, Reading.exit, Exit.throws])

theorem balanced_execute (prepared failed : Bool) :
    Balanced (execute prepared failed) (.returned (!prepared || failed)) True := by
  have h := (balanced_pure (V := Member) (Exit.returned failed)).scope Exit.throws prepared (.returned true)
  cases prepared <;> exact h.congr (by simp [Exit.throws])

theorem balanced_unfinalised (prepared failed : Bool) :
    Balanced (unfinalised prepared failed) (.returned (!prepared || failed)) (prepared = false) := by
  have h := balanced_dropped (V := Member) (Exit.returned failed) prepared (.returned true)
  cases prepared <;> exact h

variable {f : Driver Exit} {a : Exit} {C : Prop}

theorem balanced_andThen (h : Balanced f a C) (e : Exit) :
    Balanced (e.andThen f) (if e = .returned false then a else e) (e = .returned false → C) := by
  have hguarded := h.guarded (e = .returned false) e
  unfold Exit.andThen
  simpa only [decide_eq_true_eq] using hguarded

end Statements

section Tables

def getTableProperties (o : Reading) : Driver Exit := reading o true

def getFieldProperties (o : Reading) : Driver Exit := reading o true

/-- A row of `pragma_table_info`: whether `sqlite3_table_column_metadata` knows the column, whether
the texts convert, and what becomes of its properties. -/
inductive Column where
  | unknown
  | known (convertible : Bool) (properties : Reading)
  deriving DecidableEq, Repr

structure Table where
  keys : Reading
  prepared : Bool
  bound : Bool
  columns : List Column
  complete : Bool
  indexes : Reading
  properties : Reading
  deriving DecidableEq, Repr

/-- The loop of `stmt2`. `quiet` is `errorMsg.empty()`, which the loop does not change before it is
left. -/
def readColumns (quiet complete : Bool) (stmt2 : Pointer) : List Column → Driver Exit
  | [] => pure (.returned (!complete))
  | .unknown :: _ => pure (.returned true)
  | .known convertible properties :: rest =>
    if quiet then
      if convertible then do
        match ← getFieldProperties properties with
        | .returned false => readColumns quiet complete stmt2 rest
        | .returned true => do
          release stmt2
          return .returned true
        | .thrown => return .thrown
      else pure .thrown
    else readColumns quiet complete stmt2 rest

def readTableInfo (quiet : Bool) (o : Table) : Driver Exit :=
  scope o.prepared (.returned true) Exit.throws fun stmt2 =>
    if o.bound then readColumns quiet o.complete stmt2 o.columns else pure (.returned true)

/-- `AddDropTable( …, true, … )`. A failure to prepare `stmt3` or `stmt4` is passed over, and `stmt`
stays NULL. -/
def addDropTable (quiet : Bool) (o : Table) : Driver Exit := do
  let keys ← reading o.keys false
  let columns ← keys.andThen (readTableInfo quiet o)
  let indexes ← columns.andThen (reading o.indexes false)
  indexes.andThen (getTableProperties o.properties)

structure Listing where
  prepared : Bool
  tables : List (Option Table)
  complete : Bool
  deriving DecidableEq, Repr

/-- `none` is a name that does not convert. -/
def listTables (quiet complete : Bool) : List (Option Table) → Driver Exit
  | [] => pure (.returned (!complete))
  | none :: _ => pure .thrown
  | some table :: rest => do
    let added ← addDropTable quiet table
    added.andThen (listTables quiet complete rest)

def getTableListFromDb (quiet : Bool) (o : Listing) : Driver Exit :=
  scope o.prepared (.returned true) Exit.throws fun _ => listTables quiet o.complete o.tables

end Tables

section TableInfo

def columnsExit (quiet complete : Bool) : List Column → Exit
  | [] => .returned (!complete)
  | .unknown :: _ => .returned true
  | .known convertible properties :: rest =>
    if quiet then
      if convertible then
        match properties with
        | .finished false => columnsExit quiet complete rest
        | .thrown => .thrown
        | _ => .returned true
      else .thrown
    else columnsExit quiet complete rest

/-- Up to the first column without metadata every text converts and the properties are read. -/
def ColumnsFinalised (quiet : Bool) : List Column → Prop
  | [] => True
  | .unknown :: _ => True
  | .known convertible properties :: rest =>
    (quiet = true → convertible = true ∧ properties = .finished false) ∧ ColumnsFinalised quiet rest

def Table.infoExit (quiet : Bool) (o : Table) : Exit :=
  if o.prepared then if o.bound then columnsExit quiet o.complete o.columns else .returned true
  else .returned true

variable (quiet complete : Bool) (stmt2 : Pointer)

theorem readColumns_unread {properties : Reading} (h : properties.exit true = .returned true) (rest : List Column)
    (s : Store Member) : readColumns true complete stmt2 (.known true properties :: rest) s =
      (.returned true, (release stmt2 (getFieldProperties properties s).2).2) := by
  cases properties with
  | refused => rfl
  | finished failed =>
    obtain rfl : failed = true := by simpa [Reading.exit] using h
    rfl
  | thrown => cases h

theorem readColumns_result (rows : List Column) (s : Store Member) :
    (readColumns quiet complete stmt2 rows s).1 = columnsExit quiet complete rows := by
  induction rows generalizing s with
  | nil => rfl
  | cons row rest ih =>
    cases row with
    | unknown => rfl
    | known convertible properties =>
      cases quiet
      · exact ih s
      cases convertible
      · rfl
      rcases properties with - | (- | -) | -
      · rfl
      · exact ih _
      · rfl
      · rfl

theorem grows_readColumns (rows : List Column) : Grows (readColumns quiet complete stmt2 rows) := by
  induction rows with
  | nil => exact grows_pure _
  | cons row rest ih =>
    cases row with
    | unknown => exact grows_pure _
    | known convertible properties =>
      cases quiet
      · exact ih
      cases convertible
      · exact grows_pure _
      apply (balanced_reading properties true).grows.bind
      intro e
      rcases e with (- | -) | -
      · exact ih
      · exact (grows_release stmt2).bind fun _ => grows_pure _
      · exact grows_pure _

theorem readColumns_same {rows : List Column} (h : ColumnsFinalised quiet rows) (s : Store Member)
    (hs : Accounted s) : Same s (readColumns quiet complete stmt2 rows s).2 ∧
      Accounted (readColumns quiet complete stmt2 rows s).2 := by
  induction rows generalizing s with
  | nil => exact ⟨.refl s, hs⟩
  | cons row rest ih =>
    cases row with
    | unknown => exact ⟨.refl s, hs⟩
    | known convertible properties =>
      obtain ⟨hread, hrest⟩ := h
      cases quiet
      · exact ih hrest s hs
      obtain ⟨rfl, rfl⟩ := hread rfl
      obtain ⟨hsame, hcounts⟩ := (balanced_reading (.finished false) true).same (by simp) s hs
      obtain ⟨hsame', hcounts'⟩ := ih hrest _ hcounts
      exact ⟨hsame.trans hsame', hcounts'⟩

/-- Where the properties are not read `stmt2` is finalised before the loop is left, and again after it. -/
theorem readColumns_twice {properties : Reading} (h : properties.exit true = .returned true) (rest : List Column)
    {n : ℕ} {s : Store Member} (hs : Accounted s) (hn : n ∈ s.live) :
    (release (.handle n) (readColumns true complete (.handle n) (.known true properties :: rest) s).2).2.faults
      ≠ [] := by
  have hthrown : properties ≠ .thrown := by
    rintro rfl
    cases h
  obtain ⟨hsame, hcounts⟩ := (balanced_reading properties true).same hthrown s hs
  have hlive : n ∈ (getFieldProperties properties s).2.live := by
    unfold getFieldProperties
    rwa [hsame.live]
  rw [readColumns_unread complete (.handle n) h rest s, release_live hlive]
  exact release_dead (hcounts.erased n)

theorem readColumns_faulty {rows : List Column} (h : ¬ColumnsFinalised quiet rows) {n : ℕ} {s : Store Member}
    (hs : Accounted s) (hn : n ∈ s.live) :
    (leave (columnsExit quiet complete rows).throws (.handle n)
      (readColumns quiet complete (.handle n) rows s).2).2.faults ≠ [] := by
  induction rows generalizing s with
  | nil => exact absurd trivial h
  | cons row rest ih =>
    cases row with
    | unknown => exact absurd trivial h
    | known convertible properties =>
      cases quiet
      · exact ih (fun hrest => h ⟨by simp, hrest⟩) hs hn
      cases convertible
      · exact lose_live hn
      rcases properties with - | (- | -) | -
      · exact readColumns_twice complete rfl rest hs hn
      · obtain ⟨hsame, hcounts⟩ := (balanced_reading (.finished false) true).same (by simp) s hs
        have hlive : n ∈ (reading (.finished false) true s).2.live := by rwa [hsame.live]
        exact ih (fun hrest => h ⟨by simp, hrest⟩) hcounts hlive
      · exact readColumns_twice complete rfl rest hs hn
      · apply grows_leave
        exact (balanced_reading .thrown true).faulty (by simp) s hs

theorem columnsExit_kept {rows : List Column} (h : ColumnsFinalised quiet rows) :
    (columnsExit quiet complete rows).throws = false := by
  induction rows with
  | nil => rfl
  | cons row rest ih =>
    cases row with
    | unknown => rfl
    | known convertible properties =>
      obtain ⟨hread, hrest⟩ := h
      cases quiet
      · exact ih hrest
      obtain ⟨rfl, rfl⟩ := hread rfl
      exact ih hrest

theorem balanced_readTableInfo (o : Table) :
    Balanced (readTableInfo quiet o) (o.infoExit quiet)
      (o.prepared = true → o.bound = true → ColumnsFinalised quiet o.columns) := by
  unfold readTableInfo Table.infoExit
  cases o.bound with
  | false =>
    exact ((balanced_pure (Exit.returned true)).scope Exit.throws o.prepared (.returned true)).congr
      (by simp [Exit.throws])
  | true =>
    apply (balanced_scope (readColumns_result quiet o.complete · o.columns)
      (fun h stmt2 s hs => readColumns_same quiet o.complete stmt2 h s hs)
      (columnsExit_kept quiet o.complete) (fun h n s hs hn => readColumns_faulty quiet o.complete h hs hn)
      (grows_readColumns quiet o.complete · o.columns) o.prepared (.returned true)).congr
    simp

end TableInfo

section Loading

def Exit.followed (e next : Exit) : Exit :=
  if e = .returned false then next else e

def Table.columnsRead (quiet : Bool) (o : Table) : Exit := (o.keys.exit false).followed (o.infoExit quiet)

def Table.indexesRead (quiet : Bool) (o : Table) : Exit := (o.columnsRead quiet).followed (o.indexes.exit false)

def Table.exit (quiet : Bool) (o : Table) : Exit := (o.indexesRead quiet).followed (o.properties.exit true)

/-- The table's load finalises what it prepares, each once. -/
structure Table.Finalised (quiet : Bool) (o : Table) : Prop where
  keys : o.keys ≠ .thrown
  columns : o.keys.exit false = .returned false → o.prepared = true → o.bound = true →
    ColumnsFinalised quiet o.columns
  indexes : o.columnsRead quiet = .returned false → o.indexes ≠ .thrown
  properties : o.indexesRead quiet = .returned false → o.properties ≠ .thrown

theorem balanced_addDropTable (quiet : Bool) (o : Table) :
    Balanced (addDropTable quiet o) (o.exit quiet) (o.Finalised quiet) := by
  have hcolumns := balanced_andThen (balanced_readTableInfo quiet o) (o.keys.exit false)
  have hindexes := balanced_andThen (balanced_reading o.indexes false) (o.columnsRead quiet)
  have hproperties := balanced_andThen (balanced_reading o.properties true) (o.indexesRead quiet)
  apply ((balanced_reading o.keys false).bind (hcolumns.bind (hindexes.bind hproperties))).congr
  exact ⟨fun ⟨hk, hc, hi, hp⟩ => ⟨hk, hc, hi, hp⟩, fun ⟨hk, hc, hi, hp⟩ => ⟨hk, hc, hi, hp⟩⟩

theorem reading_exit_kept {o : Reading} (h : o ≠ .thrown) (refused : Bool) : (o.exit refused).throws = false := by
  cases o with
  | refused => rfl
  | finished failed => rfl
  | thrown => exact absurd rfl h

theorem followed_kept {e next : Exit} (he : e.throws = false) (h : e = .returned false → next.throws = false) :
    (e.followed next).throws = false := by
  unfold Exit.followed
  split
  · exact h ‹_›
  · exact he

theorem Table.infoExit_kept {quiet : Bool} {o : Table}
    (h : o.prepared = true → o.bound = true → ColumnsFinalised quiet o.columns) :
    (o.infoExit quiet).throws = false := by
  unfold Table.infoExit
  split
  · split
    · exact columnsExit_kept quiet o.complete (h ‹_› ‹_›)
    · rfl
  · rfl

theorem Table.Finalised.exit_kept {quiet : Bool} {o : Table} (h : o.Finalised quiet) :
    (o.exit quiet).throws = false := by
  have hcolumns : (o.columnsRead quiet).throws = false :=
    followed_kept (reading_exit_kept h.keys false) fun hk => Table.infoExit_kept (h.columns hk)
  have hindexes : (o.indexesRead quiet).throws = false :=
    followed_kept hcolumns fun hc => reading_exit_kept (h.indexes hc) false
  exact followed_kept hindexes fun hi => reading_exit_kept (h.properties hi) true

def listExit (quiet complete : Bool) : List (Option Table) → Exit
  | [] => .returned (!complete)
  | none :: _ => .thrown
  | some table :: rest => (table.exit quiet).followed (listExit quiet complete rest)

/-- The tables up to the first that fails are loaded cleanly. -/
def TablesFinalised (quiet : Bool) : List (Option Table) → Prop
  | [] => True
  | none :: _ => True
  | some table :: rest =>
    table.Finalised quiet ∧ (table.exit quiet = .returned false → TablesFinalised quiet rest)

/-- The same, and their names convert. -/
def ListFinalised (quiet : Bool) : List (Option Table) → Prop
  | [] => True
  | none :: _ => False
  | some table :: rest =>
    table.Finalised quiet ∧ (table.exit quiet = .returned false → ListFinalised quiet rest)

theorem listFinalised_iff (quiet complete : Bool) (tables : List (Option Table)) :
    TablesFinalised quiet tables ∧ (listExit quiet complete tables).throws = false ↔ ListFinalised quiet tables := by
  induction tables with
  | nil => exact ⟨fun _ => trivial, fun _ => ⟨trivial, rfl⟩⟩
  | cons table rest ih =>
    cases table with
    | none => exact ⟨fun h => Bool.noConfusion h.2, False.elim⟩
    | some table =>
      unfold TablesFinalised ListFinalised listExit Exit.followed
      by_cases hexit : table.exit quiet = .returned false
      · rw [if_pos hexit, ← ih]
        exact ⟨fun ⟨⟨ht, hrest⟩, hkept⟩ => ⟨ht, fun _ => ⟨hrest hexit, hkept⟩⟩,
          fun ⟨ht, h⟩ => ⟨⟨ht, fun _ => (h hexit).1⟩, (h hexit).2⟩⟩
      · rw [if_neg hexit]
        exact ⟨fun ⟨⟨ht, _⟩, _⟩ => ⟨ht, fun hok => absurd hok hexit⟩,
          fun ⟨ht, _⟩ => ⟨⟨ht, fun hok => absurd hok hexit⟩, ht.exit_kept⟩⟩

theorem balanced_listTables (quiet complete : Bool) (tables : List (Option Table)) :
    Balanced (listTables quiet complete tables) (listExit quiet complete tables) (TablesFinalised quiet tables) := by
  induction tables with
  | nil => exact balanced_pure _
  | cons table rest ih =>
    cases table with
    | none => exact balanced_pure _
    | some table => exact (balanced_addDropTable quiet table).bind (balanced_andThen ih (table.exit quiet))

def Listing.exit (quiet : Bool) (o : Listing) : Exit :=
  if o.prepared then listExit quiet o.complete o.tables else .returned true

def Listing.Finalised (quiet : Bool) (o : Listing) : Prop :=
  o.prepared = true → ListFinalised quiet o.tables

theorem balanced_getTableListFromDb (quiet : Bool) (o : Listing) :
    Balanced (getTableListFromDb quiet o) (o.exit quiet) (o.Finalised quiet) := by
  have h := (balanced_listTables quiet o.complete o.tables).scope Exit.throws o.prepared (.returned true)
  unfold getTableListFromDb Listing.Finalised Listing.exit
  exact h.congr (by rw [listFinalised_iff])

end Loading

end DbHandler.SqliteStatements
