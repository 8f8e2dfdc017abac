import DbHandler.SystemObjects.OdbcRuns

namespace DbHandler.OdbcSystemObjects

open Odbc Odbc.Session

/-- No statement is empty, an index that is there is not created, and a return of 0 means that an index that was
not found has been created and that all objects exist. -/
structure Consistent (existed : SystemObject → Bool) (s : Session Database) : Prop where
  built : none ∉ s.executed
  present : ∀ i : SystemIndex, existed (.index i) → .index i ∉ s.driver.attempted
  absent : s.result = false → ∀ i : SystemIndex, (.index i, false) ∈ s.driver.queried → .index i ∈ s.driver.attempted
  complete : s.result = false → ∀ o, s.driver.committed o

section Parts

variable {existed : SystemObject → Bool} {built : Option SystemStatement → Prop} {ok : Site → Bool}
  {qs : ℕ → Option SystemStatement} {s t : Session Database}

theorem extends_leave : Extends existed built s (s.leave (server ok)) := by
  have hrelease : ∀ t : Session Database, Extends existed built t (t.release (server ok)) := by
    intro t
    rw [release]
    split
    · exact .refl t
    · have hfree : Extends existed built t (t.free (server ok) (.free 0)) := Extends.free ok _
      dsimp only
      split
      · exact hfree.same rfl rfl
      · exact hfree.same rfl rfl
  have hconclude : ∀ t : Session Database, Extends existed built t (t.conclude (server ok)) := by
    intro t
    rw [conclude]
    split
    · exact .refl t
    · have hask : Extends existed built t (t.ask (server ok) .autocommit none) := Extends.ask_none ok _
      dsimp only
      split
      · exact hask.trans ((Extends.ask_none ok .tableList).same rfl rfl)
      · exact hask.same rfl rfl
  exact ((Extends.check ok .commit true).trans (hrelease _)).trans (hconclude _)

def endTransaction (ok : Site → Bool) (s : Session Database) : Session Database :=
  (if s.ret.isOk || s.ret = .noData then s.ask (server ok) .commit none else s).leave (server ok)

theorem extends_endTransaction : Extends existed built s (endTransaction ok s) := by
  rw [endTransaction]
  split
  · exact (Extends.ask_none ok .commit).trans extends_leave
  · exact extends_leave

theorem endTransaction_of_result (hresult : s.result = true) : (endTransaction ok s).result = true := by
  rw [endTransaction]
  split <;> exact leave_of_result hresult

theorem endTransaction_of_error (hret : s.ret = .error) : (endTransaction ok s).result = true := by
  rw [endTransaction, if_neg (by simp [hret, Ret.isOk])]
  exact leave_of_error (by simp [hret, Ret.isOk])

theorem endTransaction_settles (hret : s.ret = .success) (hresult : s.result = false) (hhandle : s.hstmt ≠ .freed) :
    Settles (ok .commit ∧ Leaves ok s.hstmt) (endTransaction ok s)
      fun t => t.driver.committed = s.driver.existing := by
  rw [endTransaction, if_pos (by simp [hret, Ret.isOk])]
  exact commit_settles hresult hhandle

theorem runTexts_append {ns ms : List ℕ} (hret : (s.ret.isOk || s.ret = .noData) = true) :
    s.runTexts (server ok) qs (ns ++ ms) =
      (let t := s.runTexts (server ok) qs ns
      if t.ret.isOk || t.ret = .noData then t.runTexts (server ok) qs ms else t) := by
  induction ns generalizing s with
  | nil => exact (if_pos hret).symm
  | cons n ns ih =>
    rw [List.cons_append, runTexts, runTexts]
    by_cases hexec : ((s.execAt (server ok) (.exec n) (qs n)).ret.isOk ||
        (s.execAt (server ok) (.exec n) (qs n)).ret = .noData) = true
    · rw [if_pos hexec, if_pos hexec]
      exact ih hexec
    · rw [if_neg hexec, if_neg hexec]
      exact (if_neg hexec).symm

structure TextsPass (ok : Site → Bool) (ns : List ℕ) : Prop where
  texts : ∀ n ∈ ns, ok (.exec n)
  commit : ok .commit
  leaves : Leaves ok .live

theorem texts_settles {ns : List ℕ} (hlive : s.hstmt = .live) (hret : s.ret = .success) (hresult : s.result = false)
    (heffect : ∀ n ∈ ns, ∀ o, (qs n).map SystemStatement.effect ≠ some (.create o)) :
    Settles (TextsPass ok ns) (endTransaction ok (s.runTexts (server ok) qs ns))
      fun t => t.driver.committed = fun x => ensured qs ns x || s.driver.existing x := by
  have hrun : TextsRun ok qs ns s _ := runTexts_run hlive hret heffect
  by_cases htexts : ∀ n ∈ ns, ok (.exec n)
  · obtain ⟨hsuccess, hcontent⟩ := hrun.done htexts
    have hend : Settles (ok .commit ∧ Leaves ok _) (endTransaction ok (s.runTexts (server ok) qs ns)) _ :=
      endTransaction_settles hsuccess (hrun.result.trans hresult) (by simp [hrun.hstmt])
    rw [hrun.hstmt] at hend
    refine ⟨fun h => ?_, fun h => hend.failed fun hc => h ⟨htexts, hc.1, hc.2⟩⟩
    obtain ⟨hfalse, hcommitted⟩ := hend.done ⟨h.commit, h.leaves⟩
    exact ⟨hfalse, hcommitted.trans hcontent⟩
  · exact ⟨fun h => absurd h.texts htexts, fun _ => endTransaction_of_error (hrun.failed htexts)⟩

def postgresMain (ok : Site → Bool) (qs : ℕ → Option SystemStatement) (s : Session Database) : Session Database :=
  let t := s.runTexts (server ok) qs [1, 2, 3, 4, 5]
  (if t.ret.isOk || t.ret = .noData then
    let (failed, u) := t.createIndexesOnPostgreConnection (server ok)
    if failed then { u with errorMsg := u.errorMsg ++ [[]], result := true } else u.ask (server ok) .commit none
  else t).leave (server ok)

theorem postgresMain_complete (hlive : s.hstmt = .live) (hret : s.ret = .success) (hresult : s.result = false)
    (heffect : ∀ n ∈ [1, 2, 3, 4, 5], ∀ o, (qs n).map SystemStatement.effect ≠ some (.create o))
    (htables : ∀ t, ensured qs [1, 2, 3, 4, 5] (.table t) = true) (hzero : (postgresMain ok qs s).result = false) (o : SystemObject) :
    (postgresMain ok qs s).driver.committed o := by
  have hrun : TextsRun ok qs [1, 2, 3, 4, 5] s _ := runTexts_run hlive hret heffect
  rw [postgresMain] at hzero ⊢
  by_cases htexts : ∀ n ∈ [1, 2, 3, 4, 5], ok (.exec n)
  · obtain ⟨hsuccess, hcontent⟩ := hrun.done htexts
    have hkept := hrun.result.trans hresult
    have hhandle := hrun.hstmt
    generalize s.runTexts (server ok) qs [1, 2, 3, 4, 5] = t at *
    rw [if_pos (by simp [hsuccess, Ret.isOk])] at hzero ⊢
    cases hindexes : t.createIndexesOnPostgreConnection (server ok) with
    | mk failed u =>
      rw [hindexes] at hzero
      cases failed with
      | true =>
        rw [leave_of_result rfl] at hzero
        cases hzero
      | false =>
        obtain ⟨hmade, hthere, hlive⟩ := createIndexesOnPostgreConnection_made hhandle hindexes
        simp only [Bool.false_eq_true, if_false] at hzero ⊢
        cases hset : u.result with
        | true =>
          rw [leave_of_result (show (u.ask (server ok) .commit none).result = true from hset)] at hzero
          cases hzero
        | false =>
          have hend : Settles (ok .commit ∧ Leaves ok u.hstmt) ((u.ask (server ok) .commit none).leave (server ok)) _ :=
            commit_settles hset (by simp [hlive])
          by_cases hpass : ok .commit ∧ Leaves ok u.hstmt
          · rw [(hend.done hpass).2]
            cases o with
            | table t' => exact hthere _ (by simp [hcontent, htables])
            | index i => exact hmade i
          · rw [hend.failed hpass] at hzero
            cases hzero
  · have herror : (s.runTexts (server ok) qs [1, 2, 3, 4, 5]).ret = .error := hrun.failed htexts
    rw [if_neg (by simp [herror, Ret.isOk]), leave_of_error (by simp [herror, Ret.isOk])] at hzero
    cases hzero

def lastPairs (oracle : Bool) : List (Pair × SystemObject) :=
  [(pair5, .table .abcatfmt), (pair7, .table .abcattbl), (pair9, .table .abcatvld), (pair11, .index .abcattbl_tnam_ownr)] ++
    if oracle then [] else [(pair13, .index .abcatcol_tnam_ownr_cnam)]

structure PairsPass (ok : Site → Bool) (existed : SystemObject → Bool) (oracle : Bool) : Prop where
  first : Tested ok pair1 (existed (.table .abcatcol))
  second : Passed ok pair3 (existed (.table .abcatedt))
  others : ∀ q ∈ lastPairs oracle, Passed ok q.1 (existed q.2)
  commit : ok .commit
  leaves : Leaves ok .null

def afterPairs (ok : Site → Bool) (existed : SystemObject → Bool) (oracle : Bool) : SystemObject → Bool :=
  fun x => secured ok (lastPairs oracle) x ||
    added (added existed (.table .abcatcol) (Secures ok pair1)) (.table .abcatedt)
      (ok (.alloc 3) && Secures ok pair3) x

theorem runPairs_eq {oracle : Bool} : s.runPairs (server ok) qs oracle =
    pairsOf ok qs (lastPairs oracle)
      (((s.testAndCreate (server ok) qs pair1).freePair (server ok) pair1).pair (server ok) qs pair3) := by
  cases oracle <;> rfl

theorem lastPairs_apart (oracle : Bool) :
    ∀ q ∈ lastPairs oracle, q.2 ≠ .table .abcatcol ∧ q.2 ≠ .table .abcatedt ∧ q.1.allocLooked = true := by
  cases oracle <;> decide

theorem lastPairs_nodup (oracle : Bool) : ((lastPairs oracle).map Prod.snd).Nodup := by
  cases oracle <;> decide

theorem runPairs_settles {oracle : Bool} (hlive : s.hstmt = .live) (hresult : s.result = false)
    (hfirst : About qs 1 (.table .abcatcol)) (hsecond : About qs 3 (.table .abcatedt))
    (hothers : ∀ q ∈ lastPairs oracle, About qs q.1.number q.2) :
    Settles (PairsPass ok s.driver.existing oracle) (endTransaction ok (s.runPairs (server ok) qs oracle))
      fun t => t.driver.committed = afterPairs ok s.driver.existing oracle := by
  rw [runPairs_eq]
  have hpair1 : Settles (Tested ok pair1 (s.driver.existing (.table .abcatcol)))
      ((s.testAndCreate (server ok) qs pair1).freePair (server ok) pair1) _ := testAndFree_settles hlive hresult hfirst
  generalize (s.testAndCreate (server ok) qs pair1).freePair (server ok) pair1 = t at *
  by_cases hpass1 : Tested ok pair1 (s.driver.existing (.table .abcatcol))
  swap
  · refine ⟨fun h => absurd h.first hpass1, fun _ => ?_⟩
    have hset := hpair1.failed hpass1
    rw [pair_of_result hset, pairsOf_of_result hset]
    exact endTransaction_of_result hset
  obtain ⟨hfalse, hholds, -⟩ := hpair1.done hpass1
  have hedt : t.driver.existing (.table .abcatedt) = s.driver.existing (.table .abcatedt) := by
    simp [hholds.existing, added]
  have hpair3 : Settles (Passed ok pair3 (t.driver.existing (.table .abcatedt))) (t.pair (server ok) qs pair3) _ :=
    pair_settles hfalse hsecond (by decide)
  rw [hedt] at hpair3
  generalize t.pair (server ok) qs pair3 = u at *
  by_cases hpass3 : Passed ok pair3 (s.driver.existing (.table .abcatedt))
  swap
  · refine ⟨fun h => absurd h.second hpass3, fun _ => ?_⟩
    have hset := hpair3.failed hpass3
    rw [pairsOf_of_result hset]
    exact endTransaction_of_result hset
  obtain ⟨hfalse, hholds3, -⟩ := hpair3.done hpass3
  have hkept : ∀ q ∈ lastPairs oracle, u.driver.existing q.2 = s.driver.existing q.2 := fun q hq => by
    obtain ⟨hcol, hedt, -⟩ := lastPairs_apart oracle q hq
    simp [hholds3.existing, hholds.existing, added, hcol, hedt]
  have hlast : Settles (∀ q ∈ lastPairs oracle, Passed ok q.1 (u.driver.existing q.2)) (pairsOf ok qs (lastPairs oracle) u) _ :=
    pairsOf_settles (lastPairs_nodup oracle) hothers (fun q hq => (lastPairs_apart oracle q hq).2.2) hfalse hholds3.hstmt
      (by cases oracle <;> simp [lastPairs])
  by_cases hpass : ∀ q ∈ lastPairs oracle, Passed ok q.1 (u.driver.existing q.2)
  swap
  · refine ⟨fun h => absurd (fun q hq => (hkept q hq).symm ▸ h.others q hq) hpass, fun _ => ?_⟩
    exact endTransaction_of_result (hlast.failed hpass)
  obtain ⟨hfalse, hholdsLast, hsuccess⟩ := hlast.done hpass
  have hend : Settles (ok .commit ∧ Leaves ok _) (endTransaction ok (pairsOf ok qs (lastPairs oracle) u)) _ :=
    endTransaction_settles hsuccess hfalse (by simp [hholdsLast.hstmt])
  rw [hholdsLast.hstmt] at hend
  refine ⟨fun h => ?_, fun h => hend.failed fun hc => h ⟨hpass1, hpass3, fun q hq => hkept q hq ▸ hpass q hq, hc.1, hc.2⟩⟩
  obtain ⟨hfalse, hcommitted⟩ := hend.done ⟨h.commit, h.leaves⟩
  refine ⟨hfalse, hcommitted.trans (hholdsLast.existing.trans ?_)⟩
  rw [hholds3.existing, hholds.existing]
  rfl

/-- What there must be where a call of a pair is not looked at: the second index of Oracle is never looked for,
and the first one is looked for without a fetch. -/
structure NothingSkipped (ok : Site → Bool) (existed : SystemObject → Bool) (oracle : Bool) : Prop where
  abcatedt : existed (.table .abcatedt) ∨ ok (.alloc 3)
  abcattbl : existed (.table .abcattbl) ∨ ok (.exec 7)
  first : existed (.index .abcattbl_tnam_ownr)
  second : existed (.index .abcatcol_tnam_ownr_cnam) ∨ oracle = false ∧ ok (.fetch 13)

theorem Passed.tested {p : Pair} {there : Bool} (h : Passed ok p there) (hlooked : p.allocLooked = true) :
    ok (.alloc p.number) ∧ Tested ok p there := by
  cases halloc : ok (.alloc p.number) with
  | true => exact ⟨rfl, h.allocated halloc⟩
  | false => simp [h.skipped halloc] at hlooked

theorem Tested.secures {p : Pair} {there : Bool} (h : Tested ok p there) (htest : ok (.exec p.number))
    (hfetches : p.fetches = true) (hlooked : p.fetchLooked = true) : Secures ok p = true := by
  simp [Secures, htest, hfetches, h.fetch htest hfetches hlooked]

theorem afterPairs_table {oracle : Bool} (h : PairsPass ok existed oracle) (t : SystemTable) :
    afterPairs ok existed oracle (.table t) ↔
      match t with
      | .abcatedt => existed (.table .abcatedt) ∨ ok (.alloc 3)
      | .abcattbl => existed (.table .abcattbl) ∨ ok (.exec 7)
      | _ => True := by
  have h5 := (h.others (pair5, .table .abcatfmt) (by cases oracle <;> simp [lastPairs])).tested rfl
  have h7 := (h.others (pair7, .table .abcattbl) (by cases oracle <;> simp [lastPairs])).tested rfl
  have h9 := (h.others (pair9, .table .abcatvld) (by cases oracle <;> simp [lastPairs])).tested rfl
  cases t with
  | abcatcol =>
    have hsecures := h.first.secures (h.first.test rfl) rfl rfl
    simp [afterPairs, added, hsecures]
  | abcatedt =>
    have hlast : secured ok (lastPairs oracle) (.table .abcatedt) = false := by
      cases oracle <;> simp [secured, lastPairs]
    cases halloc : ok (.alloc 3) with
    | true =>
      have htested : Tested ok pair3 (existed (.table .abcatedt)) := h.second.allocated halloc
      have hsecures := htested.secures (htested.test rfl) rfl rfl
      simp [afterPairs, added, halloc, hsecures]
    | false => simp [afterPairs, added, halloc, hlast]
  | abcatfmt =>
    have hsecures := h5.2.secures (h5.2.test rfl) rfl rfl
    cases oracle <;> simp [afterPairs, secured, lastPairs, h5.1, hsecures]
  | abcattbl =>
    have hlast : secured ok (lastPairs oracle) (.table .abcattbl) = ok (.exec 7) := by
      cases htest : ok (.exec 7) with
      | true =>
        have hsecures := h7.2.secures htest rfl rfl
        cases oracle <;> simp [secured, lastPairs, h7.1, hsecures]
      | false =>
        have hsecures : Secures ok pair7 = false := by simp [Secures, pair7, htest]
        cases oracle <;> simp [secured, lastPairs, hsecures]
    simp [afterPairs, added, hlast, or_comm]
  | abcatvld =>
    have hsecures := h9.2.secures (h9.2.test rfl) rfl rfl
    cases oracle <;> simp [afterPairs, secured, lastPairs, h9.1, hsecures]

theorem afterPairs_index {oracle : Bool} (h : PairsPass ok existed oracle) (i : SystemIndex) :
    afterPairs ok existed oracle (.index i) ↔
      match i with
      | .abcattbl_tnam_ownr => existed (.index .abcattbl_tnam_ownr)
      | .abcatcol_tnam_ownr_cnam => existed (.index .abcatcol_tnam_ownr_cnam) ∨ oracle = false ∧ ok (.fetch 13) := by
  cases i with
  | abcattbl_tnam_ownr =>
    have hsecures : Secures ok pair11 = false := by simp [Secures, pair11]
    cases oracle <;> simp [afterPairs, added, secured, lastPairs, hsecures]
  | abcatcol_tnam_ownr_cnam =>
    cases oracle with
    | true => simp [afterPairs, added, secured, lastPairs]
    | false =>
      have h13 := (h.others (pair13, .index .abcatcol_tnam_ownr_cnam) (by simp [lastPairs])).tested rfl
      have htest : ok (.exec 13) := h13.2.test rfl
      have hsecures : Secures ok pair13 = ok (.fetch 13) := by simp [Secures, pair13, htest]
      simp [afterPairs, added, secured, lastPairs, h13.1, hsecures, or_comm]

theorem afterPairs_iff {oracle : Bool} (h : PairsPass ok existed oracle) :
    (∀ o, afterPairs ok existed oracle o) ↔ NothingSkipped ok existed oracle := by
  constructor
  · intro hall
    exact ⟨(afterPairs_table h _).mp (hall (.table .abcatedt)), (afterPairs_table h _).mp (hall (.table .abcattbl)),
      (afterPairs_index h _).mp (hall (.index .abcattbl_tnam_ownr)),
      (afterPairs_index h _).mp (hall (.index .abcatcol_tnam_ownr_cnam))⟩
  · intro hskipped o
    cases o with
    | table t =>
      refine (afterPairs_table h t).mpr ?_
      cases t with
      | abcatedt => exact hskipped.abcatedt
      | abcattbl => exact hskipped.abcattbl
      | _ => trivial
    | index i =>
      refine (afterPairs_index h i).mpr ?_
      cases i with
      | abcattbl_tnam_ownr => exact hskipped.first
      | abcatcol_tnam_ownr_cnam => exact hskipped.second

theorem About.ne_none {n : ℕ} {o : SystemObject} (h : About qs n o) : qs n ≠ none ∧ qs (n + 1) ≠ none := by
  constructor
  · intro hnone
    have hfind := h.find
    rw [hnone] at hfind
    cases hfind
  · intro hnone
    have hcreate := h.create
    rw [hnone] at hcreate
    cases hcreate

theorem About.guards {p : Pair} {o : SystemObject} (h : About qs p.number o) : Guards qs p := by
  intro x hx _
  rw [h.create] at hx
  cases hx
  exact h.find

theorem About.first {n : ℕ} {o : SystemObject} (h : About qs n o) (x : SystemObject) :
    (qs n).map SystemStatement.effect ≠ some (.create x) := by
  rw [h.find]
  simp

theorem extends_testAndFree {p : Pair} {o : SystemObject} (h : About qs p.number o) :
    Extends existed (· ≠ none) s ((s.testAndCreate (server ok) qs p).freePair (server ok) p) :=
  (extends_testAndCreate h.ne_none.1 h.ne_none.2 h.guards h.first).trans extends_freePair

theorem extends_pairOf {p : Pair} {o : SystemObject} (h : About qs p.number o) :
    Extends existed (· ≠ none) s (s.pair (server ok) qs p) := extends_pair h.ne_none.1 h.ne_none.2 h.guards h.first

theorem extends_pairsOf {ps : List (Pair × SystemObject)} (h : ∀ q ∈ ps, About qs q.1.number q.2) :
    Extends existed (· ≠ none) s (pairsOf ok qs ps s) := by
  induction ps generalizing s with
  | nil => exact .refl s
  | cons q ps ih => exact (extends_pairOf (h q (by simp))).trans (ih fun r hr => h r (by simp [hr]))

theorem extends_runPairs {oracle : Bool} (hfirst : About qs 1 (.table .abcatcol)) (hsecond : About qs 3 (.table .abcatedt))
    (hothers : ∀ q ∈ lastPairs oracle, About qs q.1.number q.2) :
    Extends existed (· ≠ none) s (s.runPairs (server ok) qs oracle) := by
  rw [runPairs_eq]
  have hpair1 : Extends existed (· ≠ none) s ((s.testAndCreate (server ok) qs pair1).freePair (server ok) pair1) :=
    extends_testAndFree hfirst
  have hpair3 : Extends existed (· ≠ none) _
      (((s.testAndCreate (server ok) qs pair1).freePair (server ok) pair1).pair (server ok) qs pair3) :=
    extends_pairOf hsecond
  exact (hpair1.trans hpair3).trans (extends_pairsOf hothers)

theorem none_not_mem (hextends : Extends existed (· ≠ none) s t) (hexecuted : none ∉ s.executed) : none ∉ t.executed := by
  obtain ⟨more, hmore, hbuilt⟩ := hextends.executed
  rw [hmore, List.mem_append]
  exact fun h => h.elim hexecuted fun hnone => hbuilt none hnone rfl

theorem consistent_iff (hextends : Extends existed (fun _ => True) s t) (hopened : s.driver = Database.opened existed) :
    Consistent existed t ↔ none ∉ t.executed ∧ (t.result = false → ∀ o, t.driver.committed o) := by
  have htracked : Tracked existed t.driver := hextends.tracked (hopened ▸ Tracked.opened existed)
  refine ⟨fun h => ⟨h.built, h.complete⟩, fun h => ⟨h.1, fun i hi hmem => ?_, fun hzero i hi => ?_, h.2⟩⟩
  · have hnot := htracked.attempted _ hmem
    simp [hi] at hnot
  · have hthere := htracked.added _ (htracked.existing _ (h.2 hzero (.index i)))
    exact hthere.resolve_left (by simp [htracked.queried _ hi])

theorem Extends.weaken (h : Extends existed built s t) : Extends existed (fun _ => True) s t where
  tracked := h.tracked
  executed := by
    obtain ⟨more, hmore, -⟩ := h.executed
    exact ⟨more, hmore, fun _ _ => trivial⟩

end Parts

section Queries

variable {find create table : SystemTable → SystemStatement} {index : SystemIndex → SystemStatement}

theorem textQueries_table (htable : ∀ t, (table t).effect = .ensure (.table t)) {n : ℕ} (hn : n ∈ [1, 2, 3, 4, 5]) :
    ∃ t, (textQueries table index n).map SystemStatement.effect = some (.ensure (.table t)) := by
  simp only [List.mem_cons, List.not_mem_nil, or_false] at hn
  rcases hn with rfl | rfl | rfl | rfl | rfl <;> exact ⟨_, congrArg some (htable _)⟩

theorem textQueries_index {n : ℕ} (hn : n ∈ [6, 7]) :
    ∃ i, (textQueries table index n).map SystemStatement.effect = some (index i).effect := by
  simp only [List.mem_cons, List.not_mem_nil, or_false] at hn
  rcases hn with rfl | rfl <;> exact ⟨_, rfl⟩

theorem ensured_table (htable : ∀ t, (table t).effect = .ensure (.table t)) {ns : List ℕ}
    (hns : ∀ n ∈ [1, 2, 3, 4, 5], n ∈ ns) (t : SystemTable) : ensured (textQueries table index) ns (.table t) = true := by
  have hmem : ∀ n ∈ [1, 2, 3, 4, 5], (textQueries table index n).map SystemStatement.effect = some (.ensure (.table t)) →
      ensured (textQueries table index) ns (.table t) = true := fun n hn heffect =>
    List.any_eq_true.mpr ⟨n, hns n hn, by simpa using heffect⟩
  cases t with
  | abcatcol => exact hmem 1 (by simp) (congrArg some (htable _))
  | abcatedt => exact hmem 2 (by simp) (congrArg some (htable _))
  | abcatfmt => exact hmem 3 (by simp) (congrArg some (htable _))
  | abcattbl => exact hmem 4 (by simp) (congrArg some (htable _))
  | abcatvld => exact hmem 5 (by simp) (congrArg some (htable _))

theorem ensured_index (hindex : ∀ i, (index i).effect = .ensure (.index i)) (i : SystemIndex) :
    ensured (textQueries table index) [1, 2, 3, 4, 5, 6, 7] (.index i) = true := by
  have hmem : ∀ n ∈ [1, 2, 3, 4, 5, 6, 7],
      (textQueries table index n).map SystemStatement.effect = some (.ensure (.index i)) →
        ensured (textQueries table index) [1, 2, 3, 4, 5, 6, 7] (.index i) = true := fun n hn heffect =>
    List.any_eq_true.mpr ⟨n, hn, by simpa using heffect⟩
  cases i with
  | abcattbl_tnam_ownr => exact hmem 6 (by simp) (congrArg some (hindex _))
  | abcatcol_tnam_ownr_cnam => exact hmem 7 (by simp) (congrArg some (hindex _))

theorem not_ensured_index (htable : ∀ t, (table t).effect = .ensure (.table t))
    (hindex : ∀ i o, (index i).effect ≠ .ensure o) {ns : List ℕ} (hns : ∀ n ∈ ns, n ∈ [1, 2, 3, 4, 5] ∨ n ∈ [6, 7])
    (i : SystemIndex) : ensured (textQueries table index) ns (.index i) = false := by
  refine List.any_eq_false.mpr fun n hn => ?_
  rcases hns n hn with hn | hn
  · obtain ⟨t, ht⟩ : ∃ t, (textQueries table index n).map SystemStatement.effect = some (.ensure (.table t)) :=
      textQueries_table htable hn
    simp [ht]
  · obtain ⟨j, hj⟩ : ∃ j, (textQueries table index n).map SystemStatement.effect = some (index j).effect :=
      textQueries_index hn
    simp [hj, hindex]

theorem textQueries_sound (htable : ∀ t, (table t).effect = .ensure (.table t))
    (hindex : ∀ i o, (index i).effect ≠ .create o) {n : ℕ} (hn : n ∈ [1, 2, 3, 4, 5] ∨ n ∈ [6, 7]) :
    textQueries table index n ≠ none ∧
      ∀ o, (textQueries table index n).map SystemStatement.effect ≠ some (.create o) := by
  have hsome : ∀ e, (textQueries table index n).map SystemStatement.effect = some e → textQueries table index n ≠ none := by
    intro e he hnone
    rw [hnone] at he
    cases he
  rcases hn with hn | hn
  · obtain ⟨t, ht⟩ : ∃ t, (textQueries table index n).map SystemStatement.effect = some (.ensure (.table t)) :=
      textQueries_table htable hn
    exact ⟨hsome _ ht, by simp [ht]⟩
  · obtain ⟨j, hj⟩ : ∃ j, (textQueries table index n).map SystemStatement.effect = some (index j).effect :=
      textQueries_index hn
    exact ⟨hsome _ hj, by simp [hj, hindex]⟩

end Queries

section Access

variable {ok : Site → Bool} {qs : ℕ → Option SystemStatement} {s : Session Database} {o : SystemObject}

/-- The statement handle is gone: the one for the test is freed, and no other is allocated. -/
def Lost (ok : Site → Bool) (p : Pair) (there : Bool) : Bool :=
  ok (.exec p.number) && p.fetches && ok (.fetch p.number) && !there && ok (.freeTest p.number) &&
    !ok (.allocAgain p.number)

def Stopped (ok : Site → Bool) (p : Pair) (there : Bool) : Bool :=
  (Lost ok p there || !ok (.free p.number)) && !ok (.rollback (.free p.number))

theorem rollBack_hstmt {site : Site} : (s.rollBack (server ok) site).hstmt = s.hstmt := by
  rw [rollBack, statementError]
  cases s.hstmt <;> rfl

theorem check_hstmt {site : Site} {looked : Bool} : (s.check (server ok) site looked).hstmt = s.hstmt := by
  rw [check]
  split
  · rfl
  · exact rollBack_hstmt

theorem rollBack_executed (site : Site) : (s.rollBack (server ok) site).executed = s.executed := by
  rw [rollBack, statementError]
  cases s.hstmt <;> rfl

theorem freePair_executed {p : Pair} : (s.freePair (server ok) p).executed = s.executed := by
  have hfree : (s.free (server ok) (.free p.number)).executed = s.executed := by
    rw [free]
    cases s.hstmt <;> rfl
  rw [freePair, clear, check]
  split
  · exact hfree
  · exact (rollBack_executed (.free p.number)).trans hfree

theorem onStatement_hstmt {site : Site} {statement : Option SystemStatement} :
    (s.onStatement (server ok) site statement).hstmt = s.hstmt := by
  rw [onStatement]
  cases hhandle : s.hstmt with
  | null => exact hhandle
  | live => exact hhandle
  | freed => exact hhandle

theorem execAt_hstmt {site : Site} {statement : Option SystemStatement} :
    (s.execAt (server ok) site statement).hstmt = s.hstmt := onStatement_hstmt

theorem check_ret_of_rollback {site : Site} (hret : s.ret.isOk = false) :
    (s.check (server ok) site true).ret = if ok (.rollback site) then .success else .error := by
  rw [check_failed hret]
  simp only [rollBack, ask, server]
  split <;> rfl

theorem free_null (hnull : s.hstmt = .null) {site : Site} : (s.free (server ok) site).ret = .invalidHandle := by
  simp [free, hnull, invalid]

theorem createMissing_hstmt {n : ℕ} (hlive : s.hstmt = .live) :
    (s.createMissing (server ok) qs n).hstmt = if ok (.freeTest n) && !ok (.allocAgain n) then .null else .live := by
  rw [createMissing]
  cases hfree : ok (.freeTest n) with
  | false =>
    rw [free_failed hlive hfree]
    exact rollBack_hstmt.trans hlive
  | true =>
    rw [free_done hlive hfree fun _ => rfl]
    dsimp only [Ret.isOk, clear]
    cases halloc : ok (.allocAgain n) with
    | false =>
      rw [alloc_failed halloc]
      exact rollBack_hstmt
    | true =>
      rw [alloc_done halloc fun _ => rfl]
      exact check_hstmt.trans execAt_hstmt

theorem afterTest_hstmt {p : Pair} (hlive : s.hstmt = .live) (hret : s.ret = .success)
    (hrows : s.driver.rows = some (s.driver.existing o)) (htest : ok (.exec p.number)) :
    (let t := if p.fetches then s.onStatement (server ok) (.fetch p.number) none else s
      if t.ret = .noData then t.createMissing (server ok) qs p.number
      else t.check (server ok) (.fetch p.number) p.fetchLooked).hstmt =
      if Lost ok p (s.driver.existing o) then .null else .live := by
  cases hfetches : p.fetches with
  | false =>
    rw [if_neg (by simp [Lost, hfetches] : ¬ Lost ok p (s.driver.existing o) = true)]
    simp only [Bool.false_eq_true, if_false, hret, reduceCtorEq]
    exact check_hstmt.trans hlive
  | true =>
    simp only [if_true]
    cases hfetch : ok (.fetch p.number) with
    | false =>
      rw [fetch_failed hlive hfetch, if_neg (by simp [Lost, hfetch] : ¬ Lost ok p (s.driver.existing o) = true)]
      exact check_hstmt.trans hlive
    | true =>
      rw [fetch_done hlive hrows hfetch fun _ => rfl]
      cases hthere : s.driver.existing o with
      | true =>
        rw [if_neg (by simp [Lost] : ¬ Lost ok p true = true)]
        simp only [if_true, reduceCtorEq, if_false]
        exact check_hstmt.trans hlive
      | false =>
        have hlost : Lost ok p false = (ok (.freeTest p.number) && !ok (.allocAgain p.number)) := by
          simp [Lost, htest, hfetches, hfetch]
        rw [hlost]
        exact createMissing_hstmt (s := { s with ret := .noData }) hlive

theorem testAndCreate_hstmt {p : Pair} (hlive : s.hstmt = .live) (habout : About qs p.number o) :
    (s.testAndCreate (server ok) qs p).hstmt = if Lost ok p (s.driver.existing o) then .null else .live := by
  rw [testAndCreate]
  cases htest : ok (.exec p.number) with
  | false =>
    rw [execAt_failed hlive htest, if_neg (by simp [Lost, htest] : ¬ Lost ok p (s.driver.existing o) = true)]
    exact check_hstmt.trans hlive
  | true =>
    rw [execAt_done hlive htest fun _ => rfl, habout.find, if_pos (by rfl)]
    exact afterTest_hstmt (s := { s with
      driver := { s.driver.look o with rows := some (s.driver.existing o) }
      ret := .success
      executed := s.executed ++ [qs p.number] }) hlive rfl rfl htest

theorem freePair_ret {p : Pair} (hhandle : s.hstmt ≠ .freed) :
    ((s.freePair (server ok) p).ret.isOk || (s.freePair (server ok) p).ret = .noData) =
      (s.hstmt = .live && ok (.free p.number) || ok (.rollback (.free p.number))) := by
  change ((((s.free (server ok) (.free p.number)).check (server ok) (.free p.number) true).ret.isOk ||
    ((s.free (server ok) (.free p.number)).check (server ok) (.free p.number) true).ret = .noData : Bool) = _)
  have hrolled : (s.free (server ok) (.free p.number)).ret.isOk = false →
      ((((s.free (server ok) (.free p.number)).check (server ok) (.free p.number) true).ret.isOk ||
        ((s.free (server ok) (.free p.number)).check (server ok) (.free p.number) true).ret = .noData : Bool) =
          ok (.rollback (.free p.number))) := by
    intro hret
    rw [check_ret_of_rollback hret]
    cases ok (.rollback (.free p.number)) <;> rfl
  cases hlive : s.hstmt with
  | null =>
    rw [hrolled (by simp [free_null hlive, Ret.isOk])]
    simp
  | freed => exact absurd hlive hhandle
  | live =>
    cases hfree : ok (.free p.number) with
    | true =>
      rw [free_done hlive hfree fun _ => rfl, check_isOk rfl]
      simp [Ret.isOk]
    | false =>
      rw [hrolled (by simp [free_failed hlive hfree, Ret.isOk])]
      simp

theorem not_tested_of_stopped {p : Pair} {there : Bool} (h : Stopped ok p there) : ¬ Tested ok p there := by
  intro ht
  simp only [Stopped, Bool.and_eq_true, Bool.or_eq_true] at h
  rcases h.1 with hlost | hfree
  · simp only [Lost, Bool.and_eq_true, Bool.not_eq_true'] at hlost
    have hcreates := ht.create hlost.1.1.1.1.1 hlost.1.1.1.1.2 hlost.1.1.1.2 hlost.1.1.2
    simp [hcreates.2.1] at hlost
  · simp [ht.free] at hfree

theorem testAndFree_ret {p : Pair} (hlive : s.hstmt = .live) (habout : About qs p.number o) :
    ((((s.testAndCreate (server ok) qs p).freePair (server ok) p).ret.isOk ||
      ((s.testAndCreate (server ok) qs p).freePair (server ok) p).ret = .noData : Bool) = true) ↔
      ¬ Stopped ok p (s.driver.existing o) = true := by
  have hhandle : (s.testAndCreate (server ok) qs p).hstmt = _ := testAndCreate_hstmt hlive habout
  rw [freePair_ret (by rw [hhandle]; split <;> simp), hhandle, Stopped]
  cases Lost ok p (s.driver.existing o) <;> cases ok (.free p.number) <;> cases ok (.rollback (.free p.number)) <;> simp

theorem runPairs_of_first {oracle : Bool}
    (hset : ((s.testAndCreate (server ok) qs pair1).freePair (server ok) pair1).result = true) :
    s.runPairs (server ok) qs oracle = (s.testAndCreate (server ok) qs pair1).freePair (server ok) pair1 := by
  rw [runPairs_eq, pair_of_result hset, pairsOf_of_result hset]

theorem testAndCreate_noRows {p : Pair} (hlive : s.hstmt = .live) (htestLooked : p.testLooked = true)
    (hfetches : p.fetches = true) (hfetchLooked : p.fetchLooked = true)
    (hret : (s.driver.execute ((qs p.number).map SystemStatement.effect)).1 = .success)
    (hrows : (s.driver.execute ((qs p.number).map SystemStatement.effect)).2.rows = none) :
    (s.testAndCreate (server ok) qs p).result = true ∧ qs p.number ∈ (s.testAndCreate (server ok) qs p).executed := by
  have hfinish : ∀ (t : Session Database) (site : Site), t.ret.isOk = false → qs p.number ∈ t.executed →
      (t.check (server ok) site true).result = true ∧ qs p.number ∈ (t.check (server ok) site true).executed := by
    intro t site hret hmem
    have hextends : Extends (fun _ => false) (fun _ => True) t (t.check (server ok) site true) := Extends.check ok site true
    exact ⟨congrArg Session.result (check_failed hret), hextends.mem_executed hmem⟩
  simp only [testAndCreate, htestLooked, hfetches, hfetchLooked]
  cases htest : ok (.exec p.number) with
  | false =>
    rw [execAt_failed hlive htest]
    exact hfinish { s with ret := .error, executed := s.executed ++ [qs p.number] } (.exec p.number) rfl (by simp)
  | true =>
    rw [execAt_done hlive htest fun _ => rfl]
    simp only [hret, Ret.isOk, decide_true, Bool.true_or, if_true]
    have hfetch : ∀ t : Session Database, t.hstmt = .live → t.driver.rows = none →
        t.onStatement (server ok) (.fetch p.number) none = { t with ret := .error } := by
      intro t hlive hrows
      rw [onStatement_live hlive]
      simp [ask, server, Database.serve, Database.fetched, hrows]
    rw [hfetch { s with
      driver := (s.driver.execute ((qs p.number).map SystemStatement.effect)).2
      ret := .success
      executed := s.executed ++ [qs p.number] } hlive hrows]
    exact hfinish { s with
      driver := (s.driver.execute ((qs p.number).map SystemStatement.effect)).2
      ret := .error
      executed := s.executed ++ [qs p.number] } (.fetch p.number) rfl (by simp)

theorem pair5_empty (hresult : s.result = false) (hempty : qs 5 = none) :
    (s.pair (server ok) qs pair5).result = true ∧
      (ok (.alloc 5) = true → none ∈ (s.pair (server ok) qs pair5).executed) ∧
      (ok (.alloc 5) = false → (s.pair (server ok) qs pair5).executed = s.executed ∧
        ((s.pair (server ok) qs pair5).ret.isOk || (s.pair (server ok) qs pair5).ret = .noData) =
          ok (.rollback (.free 5))) := by
  cases halloc : ok (.alloc 5) with
  | true =>
    have hpair : s.pair (server ok) qs pair5 =
        ({ s with ret := .success, hstmt := .live }.testAndCreate (server ok) qs pair5).freePair (server ok) pair5 := by
      have hallocated : s.alloc (server ok) (.alloc pair5.number) = _ := alloc_done halloc fun _ => rfl
      rw [pair, if_neg (by simp [hresult]), hallocated]
      rfl
    obtain ⟨hset, hmem⟩ : ({ s with ret := .success, hstmt := .live }.testAndCreate (server ok) qs pair5).result = true ∧
        qs 5 ∈ ({ s with ret := .success, hstmt := .live }.testAndCreate (server ok) qs pair5).executed :=
      testAndCreate_noRows rfl rfl rfl rfl (congrArg (fun e => (s.driver.execute (e.map SystemStatement.effect)).1) hempty)
        (congrArg (fun e => (s.driver.execute (e.map SystemStatement.effect)).2.rows) hempty)
    have hextends : Extends (fun _ => false) (fun _ => True) _
        (({ s with ret := .success, hstmt := .live }.testAndCreate (server ok) qs pair5).freePair (server ok) pair5) :=
      extends_freePair
    rw [hpair]
    exact ⟨freePair_of_result hset, fun _ => hextends.mem_executed (hempty ▸ hmem), by simp⟩
  | false =>
    have hpair : s.pair (server ok) qs pair5 =
        ({ s with ret := .error, hstmt := .null }.rollBack (server ok) (.alloc 5)).freePair (server ok) pair5 := by
      have hallocated : s.alloc (server ok) (.alloc pair5.number) = _ := alloc_failed halloc
      rw [pair, if_neg (by simp [hresult]), hallocated]
      rfl
    have hnull : ({ s with ret := .error, hstmt := .null }.rollBack (server ok) (.alloc 5)).hstmt = .null := rollBack_hstmt
    have hexecuted : ({ s with ret := .error, hstmt := .null }.rollBack (server ok) (.alloc 5)).executed = s.executed :=
      rollBack_executed _
    rw [hpair]
    refine ⟨freePair_of_result rfl, by simp, fun _ => ⟨freePair_executed.trans hexecuted, ?_⟩⟩
    rw [freePair_ret (by simp [hnull]), hnull]
    rfl

/-- The run stops before it comes to an empty statement: a statement cannot be freed or allocated, and the rollback
after that fails. -/
def Silent (ok : Site → Bool) (existed : SystemObject → Bool) : Prop :=
  Stopped ok pair1 (existed (.table .abcatcol)) ∨
    Tested ok pair1 (existed (.table .abcatcol)) ∧
      (ok (.alloc 3) ∧ Stopped ok pair3 (existed (.table .abcatedt)) ∨
        Passed ok pair3 (existed (.table .abcatedt)) ∧ ok (.alloc 5) = false ∧ ok (.rollback (.free 5)) = false)

theorem pair_allocated {p : Pair} (hresult : s.result = false) (halloc : ok (.alloc p.number)) :
    s.pair (server ok) qs p =
      ({ s with ret := .success, hstmt := .live }.testAndCreate (server ok) qs p).freePair (server ok) p := by
  rw [pair, if_neg (by simp [hresult]), alloc_done halloc fun _ => rfl]
  rfl

theorem fromPair5 (hresult : s.result = false) (hexecuted : none ∉ s.executed) (hempty : qs 5 = none) {C : Prop}
    (hC : C ↔ ok (.alloc 5) = false ∧ ok (.rollback (.free 5)) = false) :
    (pairsOf ok qs (lastPairs false) s).result = true ∧
      (none ∉ (pairsOf ok qs (lastPairs false) s).executed ∧
        ((pairsOf ok qs (lastPairs false) s).ret.isOk || (pairsOf ok qs (lastPairs false) s).ret = .noData) = false ↔ C) := by
  obtain ⟨hset, hmem, hsilent⟩ : _ ∧ (ok (.alloc 5) = true → _) ∧ _ := pair5_empty hresult hempty
  have hrun : pairsOf ok qs (lastPairs false) s = s.pair (server ok) qs pair5 := pairsOf_of_result hset
  rw [hrun]
  refine ⟨hset, ?_⟩
  cases halloc : ok (.alloc 5) with
  | true => exact iff_of_false (fun h => h.1 (hmem halloc)) (by simp [hC, halloc])
  | false =>
    obtain ⟨hkept, hret⟩ := hsilent halloc
    rw [hkept, hret, hC, halloc]
    exact ⟨fun h => ⟨rfl, h.2⟩, fun h => ⟨hexecuted, h.2⟩⟩

theorem accessPairs (hlive : s.hstmt = .live) (hresult : s.result = false) (hexecuted : none ∉ s.executed)
    (hfirst : About qs 1 (.table .abcatcol)) (hsecond : About qs 3 (.table .abcatedt)) (hempty : qs 5 = none) :
    (s.runPairs (server ok) qs false).result = true ∧
      (none ∉ (s.runPairs (server ok) qs false).executed ∧
        ((s.runPairs (server ok) qs false).ret.isOk || (s.runPairs (server ok) qs false).ret = .noData) = false ↔
          Silent ok s.driver.existing) := by
  have hpair1 : Settles (Tested ok pair1 (s.driver.existing (.table .abcatcol)))
      ((s.testAndCreate (server ok) qs pair1).freePair (server ok) pair1) _ := testAndFree_settles hlive hresult hfirst
  have hret1 : _ ↔ ¬ Stopped ok pair1 (s.driver.existing (.table .abcatcol)) = true := testAndFree_ret hlive hfirst
  have hextends1 : Extends (fun _ => false) (· ≠ none) s
      ((s.testAndCreate (server ok) qs pair1).freePair (server ok) pair1) := extends_testAndFree hfirst
  have hnone1 := none_not_mem hextends1 hexecuted
  by_cases hpass1 : Tested ok pair1 (s.driver.existing (.table .abcatcol))
  swap
  · have hset := hpair1.failed hpass1
    rw [runPairs_of_first hset]
    refine ⟨hset, fun h => .inl ?_, fun h => ⟨hnone1, ?_⟩⟩
    · by_contra hnot
      have hok := hret1.mpr hnot
      rw [h.2] at hok
      cases hok
    · exact (Bool.not_eq_true _).mp fun hok => hret1.mp hok (h.resolve_right fun hr => hpass1 hr.1)
  have hnot1 : ¬ Stopped ok pair1 (s.driver.existing (.table .abcatcol)) = true := fun h =>
    not_tested_of_stopped h hpass1
  obtain ⟨hfalse, hholds, -⟩ := hpair1.done hpass1
  rw [runPairs_eq]
  generalize (s.testAndCreate (server ok) qs pair1).freePair (server ok) pair1 = t at *
  have hedt : t.driver.existing (.table .abcatedt) = s.driver.existing (.table .abcatedt) := by
    simp [hholds.existing, added]
  have hpair3 : Settles (Passed ok pair3 (t.driver.existing (.table .abcatedt))) (t.pair (server ok) qs pair3) _ :=
    pair_settles hfalse hsecond (by decide)
  have hextends3 : Extends (fun _ => false) (· ≠ none) t (t.pair (server ok) qs pair3) := extends_pairOf hsecond
  have hnone3 := none_not_mem hextends3 hnone1
  rw [hedt] at hpair3
  by_cases hpass3 : Passed ok pair3 (s.driver.existing (.table .abcatedt))
  · refine fromPair5 (hpair3.done hpass3).1 hnone3 hempty ?_
    have hnot3 : ¬ (ok (.alloc 3) = true ∧ Stopped ok pair3 (s.driver.existing (.table .abcatedt)) = true) := fun h =>
      not_tested_of_stopped h.2 (hpass3.allocated h.1)
    constructor
    · intro h
      exact ((h.resolve_left hnot1).2.resolve_left hnot3).2
    · exact fun h => .inr ⟨hpass1, .inr ⟨hpass3, h⟩⟩
  · have hset := hpair3.failed hpass3
    rw [pairsOf_of_result hset]
    have halloc : ok (.alloc pair3.number) = true := by
      by_contra hnot
      exact hpass3 ⟨fun h => absurd h hnot, fun _ => rfl⟩
    have hret3 : _ ↔ ¬ Stopped ok pair3 (t.driver.existing (.table .abcatedt)) = true :=
      testAndFree_ret (s := { t with ret := .success, hstmt := .live }) rfl hsecond
    rw [← pair_allocated hfalse halloc, hedt] at hret3
    refine ⟨hset, fun h => .inr ⟨hpass1, .inl ⟨halloc, ?_⟩⟩, fun h => ⟨hnone3, ?_⟩⟩
    · by_contra hnot
      have hok := hret3.mpr hnot
      rw [h.2] at hok
      cases hok
    · refine (Bool.not_eq_true _).mp fun hok => hret3.mp hok ?_
      exact ((h.resolve_left hnot1).2.resolve_right fun hr => hpass3 hr.1).2

end Access

end DbHandler.OdbcSystemObjects
