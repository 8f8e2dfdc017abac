import DbHandler.SystemObjects.OdbcServer

namespace DbHandler.OdbcSystemObjects

open Odbc Odbc.Session

section Live

variable {ok : Site → Bool} {s : Session Database} {site : Site} {statement : Option SystemStatement}

theorem ask_failed (hok : ok site = false) : s.ask (server ok) site statement = { s with ret := .error } := by
  simp [ask, server, hok]

theorem ask_done (hok : ok site) (hidle : ∀ db : Database, db.serve none site = (.success, db)) :
    s.ask (server ok) site none = { s with ret := .success } := by
  simp [ask, server, hok, hidle]

theorem onStatement_live (hlive : s.hstmt = .live) :
    s.onStatement (server ok) site statement = s.ask (server ok) site statement := by
  simp [onStatement, hlive]

theorem execAt_failed (hlive : s.hstmt = .live) (hok : ok site = false) :
    s.execAt (server ok) site statement = { s with ret := .error, executed := s.executed ++ [statement] } := by
  rw [execAt, onStatement_live hlive, ask_failed hok]

theorem execAt_done (hlive : s.hstmt = .live) (hok : ok site)
    (hsite : ∀ db : Database, db.serve statement site = db.execute (statement.map SystemStatement.effect)) :
    s.execAt (server ok) site statement =
      { s with
        driver := (s.driver.execute (statement.map SystemStatement.effect)).2
        ret := (s.driver.execute (statement.map SystemStatement.effect)).1
        executed := s.executed ++ [statement] } := by
  rw [execAt, onStatement_live hlive]
  simp [ask, server, hok, hsite]

theorem fetch_done {there : Bool} (hlive : s.hstmt = .live) (hrows : s.driver.rows = some there) (hok : ok site)
    (hsite : ∀ db : Database, db.serve none site = (db.fetched, db)) :
    s.onStatement (server ok) site none = { s with ret := if there then .success else .noData } := by
  rw [onStatement_live hlive]
  cases there <;> simp [ask, server, hok, hsite, Database.fetched, hrows]

theorem fetch_failed (hlive : s.hstmt = .live) (hok : ok site = false) :
    s.onStatement (server ok) site none = { s with ret := .error } := by
  rw [onStatement_live hlive, ask_failed hok]

theorem free_done (hlive : s.hstmt = .live) (hok : ok site)
    (hidle : ∀ db : Database, db.serve none site = (.success, db)) :
    s.free (server ok) site = { s with ret := .success, hstmt := .freed } := by
  simp [free, hlive, ask_done hok hidle, Ret.isOk]

theorem free_failed (hlive : s.hstmt = .live) (hok : ok site = false) :
    s.free (server ok) site = { s with ret := .error } := by
  simp [free, hlive, ask_failed hok, Ret.isOk]

theorem alloc_done (hok : ok site) (hidle : ∀ db : Database, db.serve none site = (.success, db)) :
    s.alloc (server ok) site = { s with ret := .success, hstmt := .live } := by
  simp [alloc, ask_done hok hidle, Ret.isOk]

theorem alloc_failed (hok : ok site = false) : s.alloc (server ok) site = { s with ret := .error, hstmt := .null } := by
  simp [alloc, ask_failed hok, Ret.isOk]

@[simp] theorem rollBack_result : (s.rollBack (server ok) site).result = true := rfl

theorem free_result (s : Session Database) : (s.free (server ok) site).result = s.result := by
  rw [free]
  cases s.hstmt <;> rfl

theorem onStatement_result (s : Session Database) : (s.onStatement (server ok) site statement).result = s.result := by
  rw [onStatement]
  cases s.hstmt <;> rfl

theorem check_of_result {looked : Bool} (hresult : s.result = true) : (s.check (server ok) site looked).result = true := by
  rw [check]
  split
  · exact hresult
  · rfl

theorem check_isOk {looked : Bool} (hret : s.ret.isOk) : s.check (server ok) site looked = s := by
  simp [check, hret]

theorem check_unlooked : s.check (server ok) site false = s := by simp [check]

theorem check_failed (hret : s.ret.isOk = false) : s.check (server ok) site true = s.rollBack (server ok) site := by
  simp [check, hret]

end Live

structure About (qs : ℕ → Option SystemStatement) (n : ℕ) (o : SystemObject) : Prop where
  find : (qs n).map SystemStatement.effect = some (.find o)
  create : (qs (n + 1)).map SystemStatement.effect = some (.create o)

def Creates (ok : Site → Bool) (n : ℕ) : Prop := ok (.freeTest n) ∧ ok (.allocAgain n) ∧ ok (.exec (n + 1))

structure Tested (ok : Site → Bool) (p : Pair) (there : Bool) : Prop where
  free : ok (.free p.number)
  test : p.testLooked → ok (.exec p.number)
  fetch : ok (.exec p.number) → p.fetches → p.fetchLooked → ok (.fetch p.number)
  create : ok (.exec p.number) → p.fetches → ok (.fetch p.number) → there = false → Creates ok p.number

def Secures (ok : Site → Bool) (p : Pair) : Bool := ok (.exec p.number) && p.fetches && ok (.fetch p.number)

structure Settles (C : Prop) (s : Session Database) (Q : Session Database → Prop) : Prop where
  done : C → s.result = false ∧ Q s
  failed : ¬ C → s.result = true

structure Holds (handle : Handle) (content : SystemObject → Bool) (s : Session Database) : Prop where
  hstmt : s.hstmt = handle
  existing : s.driver.existing = content

def added (content : SystemObject → Bool) (o : SystemObject) (secured : Bool) : SystemObject → Bool :=
  fun x => (x = o && secured) || content x

@[simp] theorem added_false (content : SystemObject → Bool) (o : SystemObject) : added content o false = content := by
  funext x
  simp [added]

theorem added_of_there {content : SystemObject → Bool} {o : SystemObject} (ho : content o) (secured : Bool) :
    added content o secured = content := by
  funext x
  by_cases hx : x = o
  · simp [added, hx, ho]
  · simp [added, hx]

section PairRuns

variable {ok : Site → Bool} {qs : ℕ → Option SystemStatement} {s : Session Database} {o : SystemObject} {n : ℕ}

theorem createMissing_settles (hlive : s.hstmt = .live) (hresult : s.result = false) (habout : About qs n o)
    (habsent : s.driver.existing o = false) :
    Settles (Creates ok n) (s.createMissing (server ok) qs n) fun t =>
      Holds .live (added s.driver.existing o true) t := by
  rw [createMissing]
  cases hfree : ok (.freeTest n) with
  | false =>
    rw [free_failed hlive hfree]
    exact ⟨fun h => absurd h.1 (by simp [hfree]), fun _ => rfl⟩
  | true =>
    rw [free_done hlive hfree fun _ => rfl]
    dsimp only [Ret.isOk, clear]
    cases halloc : ok (.allocAgain n) with
    | false =>
      rw [alloc_failed halloc]
      exact ⟨fun h => absurd h.2.1 (by simp [halloc]), fun _ => rfl⟩
    | true =>
      rw [alloc_done halloc fun _ => rfl]
      dsimp only [Ret.isOk]
      cases hexec : ok (.exec (n + 1)) with
      | false =>
        rw [execAt_failed rfl hexec, check_failed rfl]
        exact ⟨fun h => absurd h.2.2 (by simp [hexec]), fun _ => rfl⟩
      | true =>
        rw [execAt_done rfl hexec fun _ => rfl, habout.create]
        refine ⟨fun _ => ?_, fun h => absurd ⟨hfree, halloc, hexec⟩ h⟩
        simp only [Database.execute, habsent, Bool.false_eq_true, if_false, decide_true, Bool.true_or, if_true]
        rw [check_isOk rfl]
        refine ⟨hresult, rfl, ?_⟩
        funext x
        simp [Database.add, added]

structure Probed (ok : Site → Bool) (p : Pair) (there : Bool) : Prop where
  test : p.testLooked → ok (.exec p.number)
  fetch : ok (.exec p.number) → p.fetches → p.fetchLooked → ok (.fetch p.number)
  create : ok (.exec p.number) → p.fetches → ok (.fetch p.number) → there = false → Creates ok p.number

theorem tested_iff {p : Pair} {there : Bool} : Tested ok p there ↔ Probed ok p there ∧ ok (.free p.number) :=
  ⟨fun h => ⟨⟨h.test, h.fetch, h.create⟩, h.free⟩, fun h => ⟨h.2, h.1.test, h.1.fetch, h.1.create⟩⟩

theorem afterTest_settles {p : Pair} (hlive : s.hstmt = .live) (hresult : s.result = false) (hret : s.ret = .success)
    (hrows : s.driver.rows = some (s.driver.existing o)) (habout : About qs p.number o) (htest : ok (.exec p.number)) :
    Settles (Probed ok p (s.driver.existing o))
      (let t := if p.fetches then s.onStatement (server ok) (.fetch p.number) none else s
      if t.ret = .noData then t.createMissing (server ok) qs p.number
      else t.check (server ok) (.fetch p.number) p.fetchLooked)
      (Holds .live (added s.driver.existing o (Secures ok p))) := by
  cases hfetches : p.fetches with
  | false =>
    simp only [Bool.false_eq_true, if_false, hret, reduceCtorEq]
    rw [check_isOk (by simp [hret, Ret.isOk])]
    exact ⟨fun _ => ⟨hresult, hlive, by simp [Secures, hfetches]⟩,
      fun h => absurd (⟨fun _ => htest, by simp [hfetches], by simp [hfetches]⟩ : Probed ok p _) h⟩
  | true =>
    simp only [if_true]
    cases hfetch : ok (.fetch p.number) with
    | false =>
      rw [fetch_failed hlive hfetch]
      simp only [reduceCtorEq, if_false]
      cases hlooked : p.fetchLooked with
      | true =>
        rw [check_failed rfl]
        exact ⟨fun h => absurd (h.fetch htest hfetches hlooked) (by simp [hfetch]), fun _ => rfl⟩
      | false =>
        rw [check_unlooked]
        exact ⟨fun _ => ⟨hresult, hlive, by simp [Secures, hfetch]⟩,
          fun h => absurd (⟨fun _ => htest, by simp [hlooked], by simp [hfetch]⟩ : Probed ok p _) h⟩
    | true =>
      rw [fetch_done hlive hrows hfetch fun _ => rfl]
      have hsecures : Secures ok p = true := by simp [Secures, htest, hfetches, hfetch]
      cases hthere : s.driver.existing o with
      | true =>
        simp only [if_true, reduceCtorEq, if_false]
        rw [check_isOk rfl]
        exact ⟨fun _ => ⟨hresult, hlive, (added_of_there hthere _).symm⟩,
          fun h => absurd ⟨fun _ => htest, fun _ _ _ => hfetch, by simp⟩ h⟩
      | false =>
        have hprobed : Probed ok p false ↔ Creates ok p.number :=
          ⟨fun h => h.create htest hfetches hfetch rfl,
            fun h => ⟨fun _ => htest, fun _ _ _ => hfetch, fun _ _ _ _ => h⟩⟩
        simp only [Bool.false_eq_true, if_false, if_true]
        rw [hsecures]
        exact ⟨fun h => (createMissing_settles hlive hresult habout hthere).done (hprobed.mp h),
          fun h => (createMissing_settles hlive hresult habout hthere).failed fun hc => h (hprobed.mpr hc)⟩

theorem testAndCreate_settles {p : Pair} (hlive : s.hstmt = .live) (hresult : s.result = false)
    (habout : About qs p.number o) :
    Settles (Probed ok p (s.driver.existing o)) (s.testAndCreate (server ok) qs p)
      (Holds .live (added s.driver.existing o (Secures ok p))) := by
  rw [testAndCreate]
  cases htest : ok (.exec p.number) with
  | false =>
    rw [execAt_failed hlive htest]
    simp only [Ret.isOk, reduceCtorEq, decide_false, Bool.or_self, Bool.false_eq_true, if_false]
    cases hlooked : p.testLooked with
    | true =>
      rw [check_failed rfl]
      exact ⟨fun h => absurd (h.test hlooked) (by simp [htest]), fun _ => rfl⟩
    | false =>
      rw [check_unlooked]
      exact ⟨fun _ => ⟨hresult, hlive, by simp [Secures, htest]⟩,
        fun h => absurd (⟨by simp [hlooked], by simp [htest], by simp [htest]⟩ : Probed ok p _) h⟩
  | true =>
    rw [execAt_done hlive htest fun _ => rfl, habout.find, if_pos (by rfl)]
    exact afterTest_settles (s := { s with
      driver := { s.driver.look o with rows := some (s.driver.existing o) }
      ret := .success
      executed := s.executed ++ [qs p.number] }) hlive hresult rfl rfl habout htest

theorem freePair_done {p : Pair} (hlive : s.hstmt = .live) (hfree : ok (.free p.number)) :
    s.freePair (server ok) p = { s with ret := .success, hstmt := .null } := by
  rw [freePair, free_done hlive hfree fun _ => rfl, check_isOk rfl, clear]

theorem freePair_failed {p : Pair} (hlive : s.hstmt = .live) (hfree : ok (.free p.number) = false) :
    (s.freePair (server ok) p).result = true := by
  rw [freePair, free_failed hlive hfree, check_failed rfl]
  rfl

theorem freePair_of_result {p : Pair} (hresult : s.result = true) : (s.freePair (server ok) p).result = true :=
  check_of_result ((free_result _).trans hresult)

theorem testAndFree_settles {p : Pair} (hlive : s.hstmt = .live) (hresult : s.result = false)
    (habout : About qs p.number o) :
    Settles (Tested ok p (s.driver.existing o)) ((s.testAndCreate (server ok) qs p).freePair (server ok) p)
      fun t => Holds .null (added s.driver.existing o (Secures ok p)) t ∧ t.ret = .success := by
  have hprobe : Settles (Probed ok p (s.driver.existing o)) (s.testAndCreate (server ok) qs p) _ :=
    testAndCreate_settles hlive hresult habout
  rw [tested_iff]
  by_cases hprobed : Probed ok p (s.driver.existing o)
  · obtain ⟨hfalse, hholds⟩ := hprobe.done hprobed
    cases hfree : ok (.free p.number) with
    | false => exact ⟨fun h => absurd h.2 (by simp), fun _ => freePair_failed hholds.hstmt hfree⟩
    | true =>
      rw [freePair_done hholds.hstmt hfree]
      exact ⟨fun _ => ⟨hfalse, ⟨rfl, hholds.existing⟩, rfl⟩, fun h => absurd ⟨hprobed, rfl⟩ h⟩
  · exact ⟨fun h => absurd h.1 hprobed, fun _ => freePair_of_result (hprobe.failed hprobed)⟩

structure Passed (ok : Site → Bool) (p : Pair) (there : Bool) : Prop where
  allocated : ok (.alloc p.number) → Tested ok p there
  skipped : ok (.alloc p.number) = false → p.allocLooked = false

theorem pair_of_result {p : Pair} (hresult : s.result = true) : s.pair (server ok) qs p = s := if_pos hresult

theorem pair_settles {p : Pair} (hresult : s.result = false) (habout : About qs p.number o)
    (hfrees : p.freesUnallocated → p.allocLooked) :
    Settles (Passed ok p (s.driver.existing o)) (s.pair (server ok) qs p) fun t =>
      Holds .null (added s.driver.existing o (ok (.alloc p.number) && Secures ok p)) t ∧
        (p.allocLooked → t.ret = .success) := by
  rw [pair, if_neg (by simp [hresult])]
  cases halloc : ok (.alloc p.number) with
  | true =>
    rw [alloc_done halloc fun _ => rfl, if_pos (by rfl)]
    have htested : Passed ok p (s.driver.existing o) ↔ Tested ok p (s.driver.existing o) :=
      ⟨fun h => h.allocated halloc, fun h => ⟨fun _ => h, by simp [halloc]⟩⟩
    have hsettles : Settles (Tested ok p (s.driver.existing o)) _ _ :=
      testAndFree_settles (s := { s with ret := .success, hstmt := .live }) rfl hresult habout
    refine ⟨fun h => ?_, fun h => hsettles.failed fun ht => h (htested.mpr ht)⟩
    obtain ⟨hfalse, hholds, hret⟩ := hsettles.done (htested.mp h)
    exact ⟨hfalse, hholds, fun _ => hret⟩
  | false =>
    rw [alloc_failed halloc, if_neg (by simp [Ret.isOk])]
    dsimp only
    cases hlooked : p.allocLooked with
    | true =>
      rw [check_failed rfl]
      refine ⟨fun h => absurd (h.skipped halloc) (by simp [hlooked]), fun _ => ?_⟩
      split
      · exact freePair_of_result rfl
      · rfl
    | false =>
      have hkept : ¬ p.freesUnallocated = true := fun h => by simp [hfrees h] at hlooked
      rw [check_unlooked, if_neg hkept]
      exact ⟨fun _ => ⟨hresult, ⟨rfl, (added_false _ _).symm⟩, by simp⟩,
        fun h => absurd ⟨by simp [halloc], fun _ => hlooked⟩ h⟩

def pairsOf (ok : Site → Bool) (qs : ℕ → Option SystemStatement) (ps : List (Pair × SystemObject)) (s : Session Database) :
    Session Database := ps.foldl (fun s q => s.pair (server ok) qs q.1) s

theorem pairsOf_of_result {ps : List (Pair × SystemObject)} (hresult : s.result = true) : pairsOf ok qs ps s = s := by
  induction ps with
  | nil => rfl
  | cons q ps ih => rwa [pairsOf, List.foldl_cons, pair_of_result hresult]

def secured (ok : Site → Bool) (ps : List (Pair × SystemObject)) (x : SystemObject) : Bool :=
  ps.any fun q => x = q.2 && (ok (.alloc q.1.number) && Secures ok q.1)

theorem pairsOf_settles {ps : List (Pair × SystemObject)} (hobjects : (ps.map Prod.snd).Nodup)
    (habout : ∀ q ∈ ps, About qs q.1.number q.2) (hlooked : ∀ q ∈ ps, q.1.allocLooked = true)
    (hresult : s.result = false) (hnull : s.hstmt = .null) (hret : ps = [] → s.ret = .success) :
    Settles (∀ q ∈ ps, Passed ok q.1 (s.driver.existing q.2)) (pairsOf ok qs ps s) fun t =>
      Holds .null (fun x => secured ok ps x || s.driver.existing x) t ∧ t.ret = .success := by
  induction ps generalizing s with
  | nil => exact ⟨fun _ => ⟨hresult, ⟨hnull, rfl⟩, hret rfl⟩, fun h => absurd (by simp) h⟩
  | cons q ps ih =>
    rw [List.map_cons, List.nodup_cons] at hobjects
    have hfirst : Settles (Passed ok q.1 (s.driver.existing q.2)) (s.pair (server ok) qs q.1) _ :=
      pair_settles hresult (habout q (by simp)) fun _ => hlooked q (by simp)
    by_cases hpassed : Passed ok q.1 (s.driver.existing q.2)
    · obtain ⟨hfalse, hholds, hsuccess⟩ := hfirst.done hpassed
      have hothers : ∀ r ∈ ps, (s.pair (server ok) qs q.1).driver.existing r.2 = s.driver.existing r.2 := fun r hr => by
        have hne : r.2 ≠ q.2 := fun heq => hobjects.1 (heq ▸ List.mem_map_of_mem hr)
        simp [hholds.existing, added, hne]
      have hrest := ih hobjects.2 (fun r hr => habout r (by simp [hr])) (fun r hr => hlooked r (by simp [hr])) hfalse
        hholds.hstmt fun _ => hsuccess (hlooked q (by simp))
      have hiff : (∀ r ∈ ps, Passed ok r.1 ((s.pair (server ok) qs q.1).driver.existing r.2)) ↔
          ∀ r ∈ q :: ps, Passed ok r.1 (s.driver.existing r.2) := by
        rw [List.forall_mem_cons]
        exact ⟨fun h => ⟨hpassed, fun r hr => hothers r hr ▸ h r hr⟩, fun h r hr => (hothers r hr).symm ▸ h.2 r hr⟩
      refine ⟨fun h => ?_, fun h => hrest.failed fun hc => h (hiff.mp hc)⟩
      obtain ⟨hfalse, hholdsRest, hsuccess⟩ := hrest.done (hiff.mpr h)
      refine ⟨hfalse, ⟨hholdsRest.hstmt, hholdsRest.existing.trans ?_⟩, hsuccess⟩
      funext x
      simp [hholds.existing, added, secured, Bool.or_assoc, Bool.or_left_comm]
    · refine ⟨fun h => absurd (h q (by simp)) hpassed, fun _ => ?_⟩
      have hset := hfirst.failed hpassed
      rw [pairsOf, List.foldl_cons]
      change (pairsOf ok qs ps (s.pair (server ok) qs q.1)).result = true
      rw [pairsOf_of_result hset]
      exact hset

end PairRuns

section Ending

variable {ok : Site → Bool} {s : Session Database}

theorem release_of_result (hresult : s.result = true) : (s.release (server ok)).result = true := by
  rw [release]
  split
  · exact hresult
  · dsimp only [clear]
    split
    · exact (free_result s).trans hresult
    · rfl

theorem conclude_of_result (hresult : s.result = true) : (s.conclude (server ok)).result = true := by
  rwa [conclude, if_pos hresult]

theorem leave_of_result (hresult : s.result = true) : (s.leave (server ok)).result = true :=
  conclude_of_result (release_of_result (check_of_result hresult))

theorem leave_of_error (hret : s.ret.isOk = false) : (s.leave (server ok)).result = true := by
  rw [leave, check_failed hret]
  exact conclude_of_result (release_of_result rfl)

structure Leaves (ok : Site → Bool) (handle : Handle) : Prop where
  free : handle = .live → ok (.free 0)
  autocommit : ok .autocommit
  tableList : ok .tableList

theorem release_settles (hresult : s.result = false) (hhandle : s.hstmt ≠ .freed) :
    Settles (s.hstmt = .live → ok (.free 0)) (s.release (server ok)) fun t => t.driver = s.driver := by
  rw [release]
  cases hlive : s.hstmt with
  | null => exact ⟨fun _ => ⟨hresult, rfl⟩, fun h => absurd (by simp) h⟩
  | freed => exact absurd hlive hhandle
  | live =>
    rw [if_neg (by simp)]
    cases hfree : ok (.free 0) with
    | true =>
      rw [free_done hlive hfree fun _ => rfl]
      exact ⟨fun _ => ⟨hresult, rfl⟩, fun h => absurd (fun _ => rfl) h⟩
    | false =>
      rw [free_failed hlive hfree]
      exact ⟨fun h => absurd (h rfl) (by simp), fun _ => rfl⟩

theorem conclude_settles (hresult : s.result = false) :
    Settles (ok .autocommit ∧ ok .tableList) (s.conclude (server ok)) fun t => t.driver = s.driver := by
  rw [conclude, if_neg (by simp [hresult])]
  cases hauto : ok .autocommit with
  | false =>
    rw [ask_failed hauto]
    exact ⟨fun h => absurd h.1 (by simp), fun _ => rfl⟩
  | true =>
    rw [ask_done hauto fun _ => rfl]
    cases hlist : ok .tableList with
    | false =>
      dsimp only [Ret.isOk]
      rw [ask_failed hlist]
      exact ⟨fun h => absurd h.2 (by simp), fun _ => rfl⟩
    | true =>
      dsimp only [Ret.isOk]
      rw [ask_done hlist fun _ => rfl]
      exact ⟨fun _ => ⟨rfl, rfl⟩, fun h => absurd ⟨rfl, rfl⟩ h⟩

theorem leave_settles (hret : s.ret.isOk) (hresult : s.result = false) (hhandle : s.hstmt ≠ .freed) :
    Settles (Leaves ok s.hstmt) (s.leave (server ok)) fun t => t.driver = s.driver := by
  rw [leave, check_isOk hret]
  have hrelease : Settles (s.hstmt = .live → ok (.free 0)) (s.release (server ok)) _ := release_settles hresult hhandle
  by_cases hfree : s.hstmt = .live → ok (.free 0)
  · obtain ⟨hfalse, hdriver⟩ := hrelease.done hfree
    have hconclude : Settles (ok .autocommit ∧ ok .tableList) ((s.release (server ok)).conclude (server ok)) _ :=
      conclude_settles hfalse
    refine ⟨fun h => ?_, fun h => hconclude.failed fun hc => h ⟨hfree, hc.1, hc.2⟩⟩
    obtain ⟨hfalse, hkept⟩ := hconclude.done ⟨h.autocommit, h.tableList⟩
    exact ⟨hfalse, hkept.trans hdriver⟩
  · exact ⟨fun h => absurd h.free hfree, fun _ => conclude_of_result (hrelease.failed hfree)⟩

theorem commit_settles (hresult : s.result = false) (hhandle : s.hstmt ≠ .freed) :
    Settles (ok .commit ∧ Leaves ok s.hstmt) ((s.ask (server ok) .commit none).leave (server ok))
      fun t => t.driver.committed = s.driver.existing := by
  cases hcommit : ok .commit with
  | false =>
    rw [ask_failed hcommit]
    exact ⟨fun h => absurd h.1 (by simp), fun _ => leave_of_error rfl⟩
  | true =>
    have hask : s.ask (server ok) .commit none =
        { s with driver := { s.driver with committed := s.driver.existing }, ret := .success } := by
      simp [ask, server, hcommit, Database.serve]
    rw [hask]
    have hleave : Settles (Leaves ok s.hstmt) _ _ := leave_settles (s := { s with
      driver := { s.driver with committed := s.driver.existing }
      ret := .success }) rfl hresult hhandle
    refine ⟨fun h => ?_, fun h => hleave.failed fun hl => h ⟨rfl, hl⟩⟩
    obtain ⟨hfalse, hdriver⟩ := hleave.done h.2
    exact ⟨hfalse, congrArg Database.committed hdriver⟩

end Ending

section Texts

variable {ok : Site → Bool} {qs : ℕ → Option SystemStatement} {s : Session Database}

def ensured (qs : ℕ → Option SystemStatement) (ns : List ℕ) (x : SystemObject) : Bool :=
  ns.any fun n => (qs n).map SystemStatement.effect = some (.ensure x)

theorem execute_of_not_create {db : Database} {effect : Option Effect} (heffect : ∀ o, effect ≠ some (.create o)) :
    (db.execute effect).1 = .success ∧
      (db.execute effect).2.existing = fun x => effect = some (.ensure x) || db.existing x := by
  match effect with
  | none => simp [Database.execute]
  | some (.ensure o) =>
    refine ⟨rfl, ?_⟩
    funext x
    rw [Database.execute]
    cases ho : db.existing o with
    | true =>
      by_cases hx : o = x
      · subst hx
        simp [Database.look, ho]
      · simp [Database.look, hx]
    | false => simp [Database.add, Database.look, eq_comm]
  | some (.create o) => exact absurd rfl (heffect o)
  | some (.find o) => simp [Database.execute, Database.look]
  | some (.offer o) => simp [Database.execute, Database.look]

structure TextsRun (ok : Site → Bool) (qs : ℕ → Option SystemStatement) (ns : List ℕ) (s t : Session Database) : Prop where
  hstmt : t.hstmt = .live
  result : t.result = s.result
  done : (∀ n ∈ ns, ok (.exec n)) →
    t.ret = .success ∧ t.driver.existing = fun x => ensured qs ns x || s.driver.existing x
  failed : ¬ (∀ n ∈ ns, ok (.exec n)) → t.ret = .error

theorem runTexts_run {ns : List ℕ} (hlive : s.hstmt = .live) (hret : s.ret = .success)
    (heffect : ∀ n ∈ ns, ∀ o, (qs n).map SystemStatement.effect ≠ some (.create o)) :
    TextsRun ok qs ns s (s.runTexts (server ok) qs ns) := by
  induction ns generalizing s with
  | nil => exact ⟨hlive, rfl, fun _ => ⟨hret, rfl⟩, fun h => absurd (by simp) h⟩
  | cons n ns ih =>
    rw [runTexts]
    cases hexec : ok (.exec n) with
    | false =>
      rw [execAt_failed hlive hexec]
      exact ⟨hlive, rfl, fun h => absurd (h n (by simp)) (by simp [hexec]), fun _ => rfl⟩
    | true =>
      obtain ⟨hsuccess, hexisting⟩ : (s.driver.execute ((qs n).map SystemStatement.effect)).1 = .success ∧ _ :=
        execute_of_not_create (heffect n (by simp))
      rw [execAt_done hlive hexec fun _ => rfl, hsuccess]
      dsimp only [Ret.isOk]
      have hrest := ih (s := { s with
        driver := (s.driver.execute ((qs n).map SystemStatement.effect)).2
        ret := .success
        executed := s.executed ++ [qs n] }) hlive rfl fun m hm => heffect m (by simp [hm])
      refine ⟨hrest.hstmt, hrest.result, fun h => ?_, fun h => hrest.failed fun hall => h ?_⟩
      · obtain ⟨hret, hcontent⟩ := hrest.done fun m hm => h m (by simp [hm])
        refine ⟨hret, hcontent.trans ?_⟩
        funext x
        simp [hexisting, ensured, Bool.or_left_comm, Bool.or_assoc]
      · exact List.forall_mem_cons.mpr ⟨hexec, hall⟩

end Texts

section Postgres

variable {ok : Site → Bool} {s : Session Database}

structure IndexMade (i : SystemIndex) (s t : Session Database) : Prop where
  made : t.driver.existing (.index i)
  kept : ∀ o, s.driver.existing o → t.driver.existing o

theorem afterFind_made {i : SystemIndex} {create : Option SystemStatement} (hlive : s.hstmt = .live)
    (hrows : s.driver.rows = some (s.driver.existing (.index i)))
    (hcreate : create.map SystemStatement.effect = some (.create (.index i))) {failed : Bool} {t : Session Database}
    (hrun : (let u := s.onStatement (server ok) (.fetchIndex i) none
      if u.ret = .noData then
        let u := u.onStatement (server ok) (.closeTest i) none
        if u.ret.isOk then
          let u := u.execAt (server ok) (.createIndex i) create
          if u.ret.isOk then (false, u) else (true, u.statementError (server ok))
        else (true, u.statementError (server ok))
      else if u.ret.isOk then (false, u) else (true, u.statementError (server ok))) = (failed, t))
    (hdone : failed = false) : IndexMade i s t ∧ t.hstmt = .live := by
  subst hdone
  cases hfetch : ok (.fetchIndex i) with
  | false =>
    rw [fetch_failed hlive hfetch] at hrun
    cases hrun
  | true =>
    rw [fetch_done hlive hrows hfetch fun _ => rfl] at hrun
    cases hthere : s.driver.existing (.index i) with
    | true =>
      rw [hthere] at hrun
      cases hrun
      exact ⟨⟨hthere, fun _ ho => ho⟩, hlive⟩
    | false =>
      rw [hthere] at hrun
      simp only [Bool.false_eq_true, if_false, if_true] at hrun
      rw [onStatement_live (s := { s with ret := .noData }) hlive] at hrun
      cases hclose : ok (.closeTest i) with
      | false =>
        rw [ask_failed hclose] at hrun
        cases hrun
      | true =>
        rw [ask_done hclose fun _ => rfl, if_pos (by rfl)] at hrun
        dsimp only at hrun
        cases hexec : ok (.createIndex i) with
        | false =>
          rw [execAt_failed (s := { s with ret := .success }) hlive hexec] at hrun
          cases hrun
        | true =>
          rw [execAt_done (s := { s with ret := .success }) hlive hexec fun _ => rfl, hcreate] at hrun
          simp only [Database.execute, hthere, Bool.false_eq_true, if_false, Ret.isOk, decide_true, Bool.true_or,
            if_true, Prod.mk.injEq, true_and] at hrun
          subst hrun
          exact ⟨⟨by simp [Database.add], fun o ho => by simp [Database.add, ho]⟩, hlive⟩

theorem createIndexOnPostgreConnection_made (i : SystemIndex) {t : Session Database} (hlive : s.hstmt = .live)
    (hrun : s.createIndexOnPostgreConnection (server ok) i = (false, t)) : IndexMade i s t ∧ t.hstmt = .live := by
  rw [createIndexOnPostgreConnection] at hrun
  have hfind := effect_postgresFind i
  have hcreate := effect_postgresCreate i
  generalize some (SystemStatement.postgresFind i) = find at *
  generalize some (SystemStatement.postgresCreate i) = create at *
  cases htest : ok (.findIndex i) with
  | false =>
    rw [execAt_failed hlive htest] at hrun
    cases hrun
  | true =>
    rw [execAt_done hlive htest fun _ => rfl, hfind] at hrun
    obtain ⟨hmade, hlive⟩ := afterFind_made (s := { s with
      driver := { s.driver.look (.index i) with rows := some (s.driver.existing (.index i)) }
      ret := .success
      executed := s.executed ++ [find] }) hlive rfl hcreate hrun rfl
    exact ⟨⟨hmade.made, hmade.kept⟩, hlive⟩

theorem createIndexesOnPostgreConnection_made {t : Session Database} (hlive : s.hstmt = .live)
    (hrun : s.createIndexesOnPostgreConnection (server ok) = (false, t)) :
    (∀ i : SystemIndex, t.driver.existing (.index i)) ∧ (∀ o, s.driver.existing o → t.driver.existing o) ∧
      t.hstmt = .live := by
  rw [createIndexesOnPostgreConnection] at hrun
  cases hfirst : s.createIndexOnPostgreConnection (server ok) .abcattbl_tnam_ownr with
  | mk failed u =>
    rw [hfirst] at hrun
    cases failed with
    | true => cases hrun
    | false =>
      obtain ⟨hmade, hlive⟩ := createIndexOnPostgreConnection_made _ hlive hfirst
      simp only [Bool.false_eq_true, if_false] at hrun
      rw [onStatement_live hlive] at hrun
      cases hclose : ok .closeFirst with
      | false =>
        rw [ask_failed hclose] at hrun
        cases hrun
      | true =>
        rw [ask_done hclose fun _ => rfl, if_pos (by rfl)] at hrun
        cases hsecond : { u with ret := Ret.success }.createIndexOnPostgreConnection (server ok)
            .abcatcol_tnam_ownr_cnam with
        | mk failed v =>
          rw [hsecond] at hrun
          cases hrun
          obtain ⟨hmadeSecond, hlive⟩ := createIndexOnPostgreConnection_made (s := { u with ret := .success }) _ hlive
            hsecond
          refine ⟨fun i => ?_, fun o ho => hmadeSecond.kept o (hmade.kept o ho), hlive⟩
          cases i with
          | abcattbl_tnam_ownr => exact hmadeSecond.kept _ hmade.made
          | abcatcol_tnam_ownr_cnam => exact hmadeSecond.made

end Postgres

end DbHandler.OdbcSystemObjects
