import DbHandler.Odbc.SystemStatements

namespace DbHandler.Odbc

/-- The places where the system objects are created by calls of the driver manager. A test and the statement
that follows it are known by the number of the query; 0 is the end of the function. -/
inductive Site
  | alloc (n : ℕ)
  | exec (n : ℕ)
  | fetch (n : ℕ)
  | freeTest (n : ℕ)
  | allocAgain (n : ℕ)
  | free (n : ℕ)
  | findIndex (i : SystemIndex)
  | fetchIndex (i : SystemIndex)
  | closeTest (i : SystemIndex)
  | createIndex (i : SystemIndex)
  | closeFirst
  | rollback (failed : Site)
  | commit
  | autocommit
  | tableList
  deriving DecidableEq, Repr

structure Driver (δ : Type) where
  answer : δ → Site → Option SystemStatement → Ret × δ
  diagnostics : δ → List Text

/-- The members that the function works on, its variables `ret` and `result`, the statements executed so far,
and the calls that were given a null or a freed statement handle. -/
structure Session (δ : Type) where
  driver : δ
  hstmt : Handle
  ret : Ret
  result : Bool
  executed : List (Option SystemStatement)
  misuse : List Fault
  errorMsg : List Text

namespace Session

variable {δ : Type} (d : Driver δ)

def ask (site : Site) (statement : Option SystemStatement) (s : Session δ) : Session δ :=
  let answer := d.answer s.driver site statement
  { s with driver := answer.2, ret := answer.1 }

def invalid (fault : Fault) (s : Session δ) : Session δ :=
  { s with ret := .invalidHandle, misuse := s.misuse ++ [fault] }

def onStatement (site : Site) (statement : Option SystemStatement) (s : Session δ) : Session δ :=
  match s.hstmt with
  | .null => s.invalid .nullStatement
  | .live => s.ask d site statement
  | .freed => s.invalid .freedStatement

def alloc (site : Site) (s : Session δ) : Session δ :=
  let t := s.ask d site none
  { t with hstmt := if t.ret.isOk then .live else if t.ret = .invalidHandle then s.hstmt else .null }

def execAt (site : Site) (statement : Option SystemStatement) (s : Session δ) : Session δ :=
  s.onStatement d site statement |> fun t => { t with executed := s.executed ++ [statement] }

def free (site : Site) (s : Session δ) : Session δ :=
  match s.hstmt with
  | .null => s.invalid .nullStatement
  | .live =>
    let t := s.ask d site none
    { t with hstmt := if t.ret.isOk then .freed else .live }
  | .freed => s.invalid (.freedTwice .stmt)

def clear (s : Session δ) : Session δ := { s with hstmt := .null }

/-- `GetErrorMessage( errorMsg, 1 )` reads the diagnostics of `m_hstmt`. -/
def statementError (s : Session δ) : Session δ :=
  match s.hstmt with
  | .null => { s with misuse := s.misuse ++ [.nullStatement] }
  | .live => { s with errorMsg := s.errorMsg ++ d.diagnostics s.driver }
  | .freed => { s with misuse := s.misuse ++ [.freedStatement] }

/-- `GetErrorMessage( errorMsg, 2 )` reads those of `m_hdbc`. -/
def connectionError (s : Session δ) : Session δ :=
  { s with errorMsg := s.errorMsg ++ d.diagnostics s.driver, result := true }

def rollBack (site : Site) (s : Session δ) : Session δ :=
  { (s.statementError d).ask d (.rollback site) none with result := true }

def check (site : Site) (looked : Bool) (s : Session δ) : Session δ :=
  if s.ret.isOk || !looked then s else s.rollBack d site

/-- What the pairs of a test and a statement look at: pair 3 goes on where its statement cannot be allocated,
pair 7 where its test fails, and pair 13 where its fetch does; pair 11 fetches nothing; and pairs 5 to 11 free
a statement that was not allocated. -/
structure Pair where
  number : ℕ
  allocLooked : Bool
  freesUnallocated : Bool
  testLooked : Bool
  fetches : Bool
  fetchLooked : Bool

def pair1 : Pair := ⟨1, true, false, true, true, true⟩

def pair3 : Pair := ⟨3, false, false, true, true, true⟩

def pair5 : Pair := ⟨5, true, true, true, true, true⟩

def pair7 : Pair := ⟨7, true, true, false, true, true⟩

def pair9 : Pair := ⟨9, true, true, true, true, true⟩

def pair11 : Pair := ⟨11, true, true, true, false, true⟩

def pair13 : Pair := ⟨13, true, false, true, true, false⟩

section Pairs

variable (qs : ℕ → Option SystemStatement)

def createMissing (n : ℕ) (s : Session δ) : Session δ :=
  let s := s.free d (.freeTest n)
  if s.ret.isOk then
    let s := s.clear.alloc d (.allocAgain n)
    if s.ret.isOk then (s.execAt d (.exec (n + 1)) (qs (n + 1))).check d (.exec (n + 1)) true
    else s.rollBack d (.allocAgain n)
  else s.rollBack d (.freeTest n)

/-- Without the fetch the return code is that of the test, which is not `SQL_NO_DATA`. -/
def testAndCreate (p : Pair) (s : Session δ) : Session δ :=
  let s := s.execAt d (.exec p.number) (qs p.number)
  if s.ret.isOk then
    let s := if p.fetches then s.onStatement d (.fetch p.number) none else s
    if s.ret = .noData then s.createMissing d qs p.number else s.check d (.fetch p.number) p.fetchLooked
  else s.check d (.exec p.number) p.testLooked

def freePair (p : Pair) (s : Session δ) : Session δ :=
  ((s.free d (.free p.number)).check d (.free p.number) true).clear

def pair (p : Pair) (s : Session δ) : Session δ :=
  if s.result then s
  else
    let s := s.alloc d (.alloc p.number)
    if s.ret.isOk then (s.testAndCreate d qs p).freePair d p
    else
      let s := s.check d (.alloc p.number) p.allocLooked
      if p.freesUnallocated then s.freePair d p else s

/-- The first pair has the statement handle that was allocated before. -/
def runPairs (oracle : Bool) (s : Session δ) : Session δ :=
  let s := (s.testAndCreate d qs pair1).freePair d pair1
  let s := ((((s.pair d qs pair3).pair d qs pair5).pair d qs pair7).pair d qs pair9).pair d qs pair11
  if oracle then s else s.pair d qs pair13

def runTexts : List ℕ → Session δ → Session δ
  | [], s => s
  | n :: ns, s =>
    let s := s.execAt d (.exec n) (qs n)
    if s.ret.isOk || s.ret = .noData then runTexts ns s else s

end Pairs

/-- One of the two halves of `CreateIndexesOnPostgreConnection`, and whether it failed. -/
def createIndexOnPostgreConnection (i : SystemIndex) (s : Session δ) : Bool × Session δ :=
  let s := s.execAt d (.findIndex i) (some (SystemStatement.postgresFind i))
  if s.ret.isOk then
    let s := s.onStatement d (.fetchIndex i) none
    if s.ret = .noData then
      let s := s.onStatement d (.closeTest i) none
      if s.ret.isOk then
        let s := s.execAt d (.createIndex i) (some (SystemStatement.postgresCreate i))
        if s.ret.isOk then (false, s) else (true, s.statementError d)
      else (true, s.statementError d)
    else if s.ret.isOk then (false, s) else (true, s.statementError d)
  else (true, s.statementError d)

/-- It has a variable `ret` of its own. -/
def createIndexesOnPostgreConnection (s : Session δ) : Bool × Session δ :=
  let (failed, t) := s.createIndexOnPostgreConnection d .abcattbl_tnam_ownr
  let (failed, t) :=
    if failed then (true, t)
    else
      let t := t.onStatement d .closeFirst none
      if t.ret.isOk then t.createIndexOnPostgreConnection d .abcatcol_tnam_ownr_cnam else (true, t.statementError d)
  (failed, { t with ret := s.ret })

def finishObjects (server : Server) (versionMajor versionMinor : ℕ) (qs : ℕ → Option SystemStatement) (s : Session δ) :
    Session δ :=
  if server = .postgreSQL ∧ versionMajor ≥ 9 ∧ versionMinor ≥ 5 ∨
      server ≠ .postgreSQL ∧ server ≠ .sqlAnywhere ∧ server ≠ .oracle then
    let s := s.runTexts d qs [6, 7]
    if s.ret.isOk || s.ret = .noData then s.ask d .commit none else s
  else if server ≠ .sqlAnywhere ∧ server ≠ .oracle then
    let (failed, s) := s.createIndexesOnPostgreConnection d
    if failed then { s with errorMsg := s.errorMsg ++ [[]], result := true } else s.ask d .commit none
  else s.ask d .commit none

def release (s : Session δ) : Session δ :=
  if s.hstmt = .null then s
  else
    let s := s.free d (.free 0)
    (if s.ret.isOk then s else s.connectionError d).clear

def conclude (s : Session δ) : Session δ :=
  if s.result then s
  else
    let s := s.ask d .autocommit none
    if s.ret.isOk then
      let s := s.ask d .tableList none
      { s with result := !s.ret.isOk }
    else s.connectionError d

def leave (s : Session δ) : Session δ := ((s.check d .commit true).release d).conclude d

/-- Where the first statement handle cannot be allocated, `result` is still 0. -/
def createSystemObjectsAndGetDatabaseInfo (impl : Impl) (s : Session δ) : Session δ :=
  let server := Server.ofSubtype impl.subtype
  let qs := queries server impl.versionMajor impl.versionMinor
  let s := { s with result := false }.alloc d (.alloc 1)
  if s.ret.isOk then
    let s :=
      if server ≠ .access ∧ server ≠ .sqlAnywhere ∧ server ≠ .oracle ∨ server = .sqlAnywhere ∧ impl.versionMajor > 12 then
        s.runTexts d qs [1, 2, 3, 4, 5]
      else s.runPairs d qs (server = .oracle)
    let s :=
      if s.ret.isOk || s.ret = .noData then s.finishObjects d server impl.versionMajor impl.versionMinor qs else s
    s.leave d
  else s

end Session

end DbHandler.Odbc
