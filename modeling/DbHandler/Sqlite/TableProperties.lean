import DbHandler.Sqlite.FieldProperties
import DbHandler.TableProperties.Loading

namespace DbHandler.Sqlite

variable {δ : Type}

def tableKey (t : DatabaseTable) : List Text := [t.tableName, t.owner]

def isTablePropertiesExist (c : Client δ) (t : DatabaseTable) (s : Session δ) : Bool × Session δ :=
  let (prepared, s) := s.prepare c .tablePropertiesExist
  let (bound, s) := if prepared then bindAll c .tablePropertiesExist 1 (tableKey t) s else (false, s)
  if bound then
    let (cursor, s) := s.step c .tablePropertiesExist (tableKey t)
    match cursor.rows, cursor.last with
    | _ :: _, _ => (true, s)
    | [], none => (false, s)
    | [], some err => (false, s.fail err)
  else (false, s)

def commitStatement : Statement := ⟨"COMMIT;".toList, .commit⟩

def rollbackStatement : Statement := ⟨"ROLLBACK;".toList, .rollback⟩

@[simp] theorem commitStatement_entry : commitStatement.entry = .commit := rfl

@[simp] theorem rollbackStatement_entry : rollbackStatement.entry = .rollback := rfl

/-- The command is prepared with its length in characters as the number of its bytes. -/
def setTableProperties (c : Client δ) (t : DatabaseTable) (p : TableProperties) (isLog : Bool) (command : Text)
    (s : Session δ) : ℕ × Text × Session δ :=
  let (begun, s) := s.exec c .beginTransaction
  let (done, command, s) :=
    if begun then
      let (exist, s) := isTablePropertiesExist c t s
      if s.errorMsg ≠ [] then (false, command, s)
      else
        let command := PropertyStatements.Driver.sqlite.command exist [] t p
        if isLog then (true, command, s)
        else
          let (prepared, s) := s.prepare c (.commandCut command)
          let (ran, s) := if prepared then s.run c (.commandCut command) [] command else (false, s)
          (ran, command, s)
    else (false, command, s)
  let (ended, s) := s.exec c (if done then commitStatement else rollbackStatement)
  (if done && ended then 0 else 1, command, s)

/-- The flags for underline and strike-out are set, and never cleared. -/
def readFont (first : ℕ) (row : List Value) (f : LoadedFont) : LoadedFont where
  font :=
    { size := (column row first).columnInt
      weight := (column row (first + 1)).columnInt
      italic := match (column row (first + 2)).columnText with
        | some italic => italic.head? = some 'Y'
        | none => f.font.italic
      underline := if 0 < (column row (first + 3)).columnInt then true else f.font.underline
      strikethrough := if 0 < (column row (first + 4)).columnInt then true else f.font.strikethrough
      encoding := f.font.encoding
      pixelSize := (column row (first + 6)).columnInt
      name := (column row (first + 7)).columnText.getD f.font.name }
  characterSet := (column row (first + 5)).columnInt

/-- A comment that is NULL is a null pointer. -/
def readTableProperties (p : LoadedProperties) (row : List Value) : Option LoadedProperties :=
  (column row 27).columnText.map fun comment =>
    ⟨comment, readFont 3 row p.data, readFont 11 row p.heading, readFont 19 row p.label⟩

/-- The loop over the rows does not end where a step fails. -/
def getTableProperties (c : Client δ) (t : DatabaseTable) (p : LoadedProperties) (s : Session δ) :
    Option (ℕ × LoadedProperties × Session δ) :=
  let (prepared, s) := s.prepare c .tableProperties
  let (bound, s) := if prepared then bindAll c .tableProperties 1 (tableKey t) s else (false, s)
  if bound then
    let (cursor, s) := s.step c .tableProperties (tableKey t)
    match cursor.last with
    | none => (cursor.rows.foldlM readTableProperties p).map fun p => (0, p, s)
    | some _ => none
  else some (1, p, s)

end DbHandler.Sqlite
