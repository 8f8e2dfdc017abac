import DbHandler.SystemObjects.OdbcConsistency

namespace DbHandler.OdbcSystemObjects

open Odbc Odbc.Session

section Servers

variable (impl : Impl) (ok : Site → Bool) (existed : SystemObject → Bool) (hstmt : Handle) (errorMsg : List Text)

def opened : Session Database := ⟨Database.opened existed, hstmt, .success, false, [], [], errorMsg⟩

def run : Session Database := (opened existed hstmt errorMsg).createSystemObjectsAndGetDatabaseInfo (server ok) impl

def builtQueries : ℕ → Option SystemStatement :=
  queries (Server.ofSubtype impl.subtype) impl.versionMajor impl.versionMinor

/-- The code meets the property: not where the handle cannot be allocated and objects are missing; on MySQL, Oracle
and SQL Anywhere only if a call that is looked at fails or what the statements leave out is there; on ACCESS only if
the run stops before the empty statements. -/
def HoldsWhen : Prop :=
  if ok (.alloc 1) then
    match Server.ofSubtype impl.subtype with
    | .sqlServer | .postgreSQL | .sybase | .ase => True
    | .mySQL => TextsPass ok [1, 2, 3, 4, 5, 6, 7] → ∀ i : SystemIndex, existed (.index i)
    | .sqlAnywhere =>
      if impl.versionMajor > 12 then TextsPass ok [1, 2, 3, 4, 5] → ∀ i : SystemIndex, existed (.index i)
      else if impl.versionMajor = 12 then True
      else PairsPass ok existed false → NothingSkipped ok existed false
    | .oracle => PairsPass ok existed true → NothingSkipped ok existed true
    | .access => Silent ok existed
    | .other => False
  else ∀ o, existed o

def begun : Session Database := { opened existed hstmt errorMsg with hstmt := .live }

variable {impl ok existed hstmt errorMsg}

theorem run_unallocated (halloc : ok (.alloc 1) = false) :
    run impl ok existed hstmt errorMsg = { opened existed hstmt errorMsg with ret := .error, hstmt := .null } := by
  have hallocated : ({ opened existed hstmt errorMsg with result := false } : Session Database).alloc (server ok) (.alloc 1) = _ :=
    alloc_failed halloc
  rw [run, createSystemObjectsAndGetDatabaseInfo, hallocated]
  rfl

theorem run_allocated (halloc : ok (.alloc 1)) :
    run impl ok existed hstmt errorMsg =
      (let server' := Server.ofSubtype impl.subtype
      let s :=
        if server' ≠ .access ∧ server' ≠ .sqlAnywhere ∧ server' ≠ .oracle ∨ server' = .sqlAnywhere ∧ impl.versionMajor > 12 then
          (begun existed hstmt errorMsg).runTexts (server ok) (builtQueries impl) [1, 2, 3, 4, 5]
        else (begun existed hstmt errorMsg).runPairs (server ok) (builtQueries impl) (server' = .oracle)
      (if s.ret.isOk || s.ret = .noData then
        s.finishObjects (server ok) server' impl.versionMajor impl.versionMinor (builtQueries impl)
      else s).leave (server ok)) := by
  have hallocated : ({ opened existed hstmt errorMsg with result := false } : Session Database).alloc (server ok) (.alloc 1) = _ :=
    alloc_done halloc fun _ => rfl
  rw [run, createSystemObjectsAndGetDatabaseInfo, hallocated]
  rfl

theorem opened_settled {C : Prop} {t : Session Database} {content : SystemObject → Bool}
    (hextends : Extends existed (· ≠ none) (begun existed hstmt errorMsg) t)
    (hsettles : Settles C t fun u => u.driver.committed = content) :
    Consistent existed t ↔ (C → ∀ o, content o) := by
  rw [consistent_iff hextends.weaken rfl]
  have hnone : none ∉ t.executed := none_not_mem hextends (by simp [begun, opened])
  constructor
  · intro h hC o
    obtain ⟨hfalse, hcontent⟩ := hsettles.done hC
    rw [← hcontent]
    exact h.2 hfalse o
  · intro h
    refine ⟨hnone, fun hfalse o => ?_⟩
    by_cases hC : C
    · rw [(hsettles.done hC).2]
      exact h hC o
    · rw [hsettles.failed hC] at hfalse
      cases hfalse

section TextServers

variable {table : SystemTable → SystemStatement} {index : SystemIndex → SystemStatement} {ns : List ℕ}

theorem consistent_texts (hrun : run impl ok existed hstmt errorMsg =
      endTransaction ok ((begun existed hstmt errorMsg).runTexts (server ok) (builtQueries impl) ns))
    (hqueries : builtQueries impl = textQueries table index) (htable : ∀ t, (table t).effect = .ensure (.table t))
    (hcreate : ∀ i o, (index i).effect ≠ .create o) (hns : ∀ n ∈ ns, n ∈ [1, 2, 3, 4, 5] ∨ n ∈ [6, 7]) :
    Consistent existed (run impl ok existed hstmt errorMsg) ↔
      (TextsPass ok ns → ∀ o, ensured (textQueries table index) ns o || existed o) := by
  rw [hrun, hqueries]
  have hextends : Extends existed (· ≠ none) (begun existed hstmt errorMsg)
      (endTransaction ok ((begun existed hstmt errorMsg).runTexts (server ok) (textQueries table index) ns)) :=
    (extends_runTexts (fun n hn => (textQueries_sound htable hcreate (hns n hn)).1)
      fun n hn => (textQueries_sound htable hcreate (hns n hn)).2).trans extends_endTransaction
  exact opened_settled hextends
    (texts_settles rfl rfl rfl fun n hn => (textQueries_sound htable hcreate (hns n hn)).2)

theorem all_iff_indexes {content : SystemObject → Bool} (htables : ∀ t, content (.table t))
    (hindexes : ∀ i, content (.index i) = existed (.index i)) :
    (∀ o, content o) ↔ ∀ i : SystemIndex, existed (.index i) := by
  constructor
  · intro h i
    rw [← hindexes]
    exact h _
  · intro h o
    cases o with
    | table t => exact htables t
    | index i =>
      rw [hindexes]
      exact h i

end TextServers

theorem run_allTexts (halloc : ok (.alloc 1)) (haccess : Server.ofSubtype impl.subtype ≠ .access)
    (hkind : Server.ofSubtype impl.subtype = .postgreSQL ∧ impl.versionMajor ≥ 9 ∧ impl.versionMinor ≥ 5 ∨
      Server.ofSubtype impl.subtype ≠ .postgreSQL ∧ Server.ofSubtype impl.subtype ≠ .sqlAnywhere ∧
        Server.ofSubtype impl.subtype ≠ .oracle) :
    run impl ok existed hstmt errorMsg =
      endTransaction ok ((begun existed hstmt errorMsg).runTexts (server ok) (builtQueries impl) [1, 2, 3, 4, 5, 6, 7]) := by
  have hfamily : Server.ofSubtype impl.subtype ≠ .access ∧ Server.ofSubtype impl.subtype ≠ .sqlAnywhere ∧
      Server.ofSubtype impl.subtype ≠ .oracle := by
    rcases hkind with h | h
    · simp [h.1]
    · exact ⟨haccess, h.2⟩
  have hjoin : (begun existed hstmt errorMsg).runTexts (server ok) (builtQueries impl) ([1, 2, 3, 4, 5] ++ [6, 7]) = _ :=
    runTexts_append rfl
  simp only [List.cons_append, List.nil_append] at hjoin
  rw [run_allocated halloc, endTransaction, hjoin]
  dsimp only
  rw [if_pos (Or.inl hfamily)]
  generalize (begun existed hstmt errorMsg).runTexts (server ok) (builtQueries impl) [1, 2, 3, 4, 5] = t
  by_cases ht : (t.ret.isOk || t.ret = .noData) = true
  · rw [if_pos ht, if_pos ht, finishObjects, if_pos hkind]
  · rw [if_neg ht, if_neg ht, if_neg ht]

theorem consistent_ensured {table : SystemTable → SystemStatement} {index : SystemIndex → SystemStatement}
    (hrun : run impl ok existed hstmt errorMsg =
      endTransaction ok ((begun existed hstmt errorMsg).runTexts (server ok) (builtQueries impl) [1, 2, 3, 4, 5, 6, 7]))
    (hqueries : builtQueries impl = textQueries table index) (htable : ∀ t, (table t).effect = .ensure (.table t))
    (hindex : ∀ i, (index i).effect = .ensure (.index i)) : Consistent existed (run impl ok existed hstmt errorMsg) := by
  refine (consistent_texts hrun hqueries htable (by simp [hindex]) (by decide)).mpr fun _ o => ?_
  cases o with
  | table t => simp [ensured_table htable]
  | index i => simp [ensured_index hindex]

theorem consistent_tablesOnly {table : SystemTable → SystemStatement} {index : SystemIndex → SystemStatement} {ns : List ℕ}
    (hrun : run impl ok existed hstmt errorMsg =
      endTransaction ok ((begun existed hstmt errorMsg).runTexts (server ok) (builtQueries impl) ns))
    (hqueries : builtQueries impl = textQueries table index) (htable : ∀ t, (table t).effect = .ensure (.table t))
    (hcreate : ∀ i o, (index i).effect ≠ .create o) (hns : ∀ n ∈ ns, n ∈ [1, 2, 3, 4, 5] ∨ n ∈ [6, 7])
    (hall : ∀ n ∈ [1, 2, 3, 4, 5], n ∈ ns)
    (hnone : ∀ i, ensured (textQueries table index) ns (.index i) = false) :
    Consistent existed (run impl ok existed hstmt errorMsg) ↔ (TextsPass ok ns → ∀ i : SystemIndex, existed (.index i)) := by
  rw [consistent_texts hrun hqueries htable hcreate hns]
  refine imp_congr_right fun _ => ?_
  exact all_iff_indexes (fun t => by simp [ensured_table htable hall]) fun i => by simp [hnone]

theorem finish_commit {server' : Server} {major minor : ℕ} {qs : ℕ → Option SystemStatement} {t : Session Database}
    (hserver : server' = .sqlAnywhere ∨ server' = .oracle) :
    ((if t.ret.isOk || t.ret = .noData then t.finishObjects (server ok) server' major minor qs else t).leave (server ok)) =
      endTransaction ok t := by
  have hfinish : t.finishObjects (server ok) server' major minor qs = t.ask (server ok) .commit none := by
    rcases hserver with rfl | rfl <;> simp [finishObjects]
  rw [endTransaction, hfinish]

theorem run_sqlAnywhereTexts (halloc : ok (.alloc 1)) (hserver : Server.ofSubtype impl.subtype = .sqlAnywhere)
    (hversion : impl.versionMajor > 12) :
    run impl ok existed hstmt errorMsg =
      endTransaction ok ((begun existed hstmt errorMsg).runTexts (server ok) (builtQueries impl) [1, 2, 3, 4, 5]) := by
  rw [run_allocated halloc]
  simp only [hserver, hversion, and_self, or_true, if_true]
  exact finish_commit (.inl rfl)

theorem run_pairs (halloc : ok (.alloc 1)) (hfamily : Server.ofSubtype impl.subtype = .oracle ∨
      Server.ofSubtype impl.subtype = .sqlAnywhere ∧ ¬ impl.versionMajor > 12) :
    run impl ok existed hstmt errorMsg = endTransaction ok
      ((begun existed hstmt errorMsg).runPairs (server ok) (builtQueries impl) (Server.ofSubtype impl.subtype = .oracle)) := by
  have hnot : ¬ (Server.ofSubtype impl.subtype ≠ .access ∧ Server.ofSubtype impl.subtype ≠ .sqlAnywhere ∧
      Server.ofSubtype impl.subtype ≠ .oracle ∨
        Server.ofSubtype impl.subtype = .sqlAnywhere ∧ impl.versionMajor > 12) := by
    rcases hfamily with h | h
    · simp [h]
    · simp [h.1]
      omega
  rw [run_allocated halloc]
  dsimp only
  rw [if_neg hnot, finish_commit (hfamily.symm.imp And.left id)]

theorem consistent_pairs {oracle : Bool}
    (hrun : run impl ok existed hstmt errorMsg =
      endTransaction ok ((begun existed hstmt errorMsg).runPairs (server ok) (builtQueries impl) oracle))
    (hfirst : About (builtQueries impl) 1 (.table .abcatcol)) (hsecond : About (builtQueries impl) 3 (.table .abcatedt))
    (hothers : ∀ q ∈ lastPairs oracle, About (builtQueries impl) q.1.number q.2) :
    Consistent existed (run impl ok existed hstmt errorMsg) ↔
      (PairsPass ok existed oracle → NothingSkipped ok existed oracle) := by
  have hextends : Extends existed (· ≠ none) (begun existed hstmt errorMsg)
      (endTransaction ok ((begun existed hstmt errorMsg).runPairs (server ok) (builtQueries impl) oracle)) :=
    (extends_runPairs hfirst hsecond hothers).trans extends_endTransaction
  rw [hrun, opened_settled hextends (runPairs_settles rfl rfl hfirst hsecond hothers)]
  exact forall_congr' fun h => afterPairs_iff h

theorem run_postgres (halloc : ok (.alloc 1)) (hserver : Server.ofSubtype impl.subtype = .postgreSQL)
    (hversion : ¬ (impl.versionMajor ≥ 9 ∧ impl.versionMinor ≥ 5)) :
    run impl ok existed hstmt errorMsg = postgresMain ok (builtQueries impl) (begun existed hstmt errorMsg) := by
  have hfinish : ∀ t : Session Database,
      t.finishObjects (server ok) .postgreSQL impl.versionMajor impl.versionMinor (builtQueries impl) =
        if (t.createIndexesOnPostgreConnection (server ok)).1 then
          { (t.createIndexesOnPostgreConnection (server ok)).2 with
            errorMsg := (t.createIndexesOnPostgreConnection (server ok)).2.errorMsg ++ [[]], result := true }
        else (t.createIndexesOnPostgreConnection (server ok)).2.ask (server ok) .commit none := by
    intro t
    simp [finishObjects, hversion]
  rw [run_allocated halloc, postgresMain, hserver]
  dsimp only
  have hfamily : (Server.postgreSQL ≠ .access ∧ Server.postgreSQL ≠ .sqlAnywhere ∧ Server.postgreSQL ≠ .oracle) ∨
      Server.postgreSQL = .sqlAnywhere ∧ impl.versionMajor > 12 := .inl (by decide)
  rw [if_pos hfamily, hfinish]

theorem extends_postgresMain {table : SystemTable → SystemStatement} {index : SystemIndex → SystemStatement}
    {s : Session Database} (htable : ∀ t, (table t).effect = .ensure (.table t))
    (hcreate : ∀ i o, (index i).effect ≠ .create o) :
    Extends existed (· ≠ none) s (postgresMain ok (textQueries table index) s) := by
  have htexts : Extends existed (· ≠ none) s (s.runTexts (server ok) (textQueries table index) [1, 2, 3, 4, 5]) :=
    extends_runTexts (fun n hn => (textQueries_sound htable hcreate (.inl hn)).1)
      fun n hn => (textQueries_sound htable hcreate (.inl hn)).2
  rw [postgresMain]
  refine Extends.trans ?_ extends_leave
  generalize s.runTexts (server ok) (textQueries table index) [1, 2, 3, 4, 5] = t at *
  dsimp only
  split
  · have hindexes : Extends existed (· ≠ none) s (t.createIndexesOnPostgreConnection (server ok)).2 :=
      htexts.trans (extends_createIndexesOnPostgreConnection fun _ => Option.some_ne_none _)
    split
    · exact hindexes.same rfl rfl
    · exact hindexes.trans (Extends.ask_none ok .commit)
  · exact htexts

theorem consistent_unallocated (halloc : ok (.alloc 1) = false) :
    Consistent existed (run impl ok existed hstmt errorMsg) ↔ ∀ o, existed o := by
  have hextends : Extends existed (fun _ => True) (opened existed hstmt errorMsg)
      { opened existed hstmt errorMsg with ret := .error, hstmt := .null } := .of_eq rfl rfl
  rw [run_unallocated halloc, consistent_iff hextends rfl]
  exact ⟨fun h => h.2 rfl, fun h => ⟨by simp [opened], fun _ => h⟩⟩

theorem consistent_byTexts {table : SystemTable → SystemStatement} {index : SystemIndex → SystemStatement}
    (halloc : ok (.alloc 1)) (hfamily : Server.ofSubtype impl.subtype ≠ .access ∧
      Server.ofSubtype impl.subtype ≠ .postgreSQL ∧ Server.ofSubtype impl.subtype ≠ .sqlAnywhere ∧
        Server.ofSubtype impl.subtype ≠ .oracle)
    (hqueries : builtQueries impl = textQueries table index) (htable : ∀ t, (table t).effect = .ensure (.table t))
    (hindex : ∀ i, (index i).effect = .ensure (.index i)) : Consistent existed (run impl ok existed hstmt errorMsg) :=
  consistent_ensured (run_allTexts halloc hfamily.1 (.inr hfamily.2)) hqueries htable hindex

theorem consistent_mySQL (halloc : ok (.alloc 1)) (hserver : Server.ofSubtype impl.subtype = .mySQL) :
    Consistent existed (run impl ok existed hstmt errorMsg) ↔
      (TextsPass ok [1, 2, 3, 4, 5, 6, 7] → ∀ i : SystemIndex, existed (.index i)) := by
  have hrun : run impl ok existed hstmt errorMsg = _ :=
    run_allTexts halloc (by simp [hserver]) (.inr (by simp [hserver]))
  have hqueries : builtQueries impl = textQueries SystemStatement.ensureTable SystemStatement.mySQLIndex := by
    rw [builtQueries, hserver]
    rfl
  have heffect : ∀ i, (SystemStatement.mySQLIndex i).effect = .offer (.index i) := fun _ => rfl
  exact consistent_tablesOnly hrun hqueries (fun _ => rfl) (by simp [heffect]) (by decide) (by decide)
    (not_ensured_index (fun _ => rfl) (by simp [heffect]) (by decide))

theorem consistent_postgreSQL (halloc : ok (.alloc 1)) (hserver : Server.ofSubtype impl.subtype = .postgreSQL) :
    Consistent existed (run impl ok existed hstmt errorMsg) := by
  by_cases hversion : impl.versionMajor ≥ 9 ∧ impl.versionMinor ≥ 5
  · have hrun : run impl ok existed hstmt errorMsg = _ := run_allTexts halloc (by simp [hserver]) (.inl ⟨hserver, hversion⟩)
    have hqueries : builtQueries impl = textQueries SystemStatement.ensureTable SystemStatement.postgresIndex := by
      rw [builtQueries, hserver]
      change textQueries _ (if _ then _ else _) = _
      rw [if_pos hversion]
    exact consistent_ensured hrun hqueries (fun _ => rfl) fun _ => rfl
  · have hqueries : builtQueries impl = textQueries SystemStatement.ensureTable SystemStatement.postgresBlock := by
      rw [builtQueries, hserver]
      change textQueries _ (if _ then _ else _) = _
      rw [if_neg hversion]
    have heffect : ∀ i, (SystemStatement.postgresBlock i).effect = .ensure (.index i) := fun _ => rfl
    rw [run_postgres halloc hserver hversion, hqueries]
    have hextends : Extends existed (· ≠ none) (begun existed hstmt errorMsg)
        (postgresMain ok (textQueries SystemStatement.ensureTable SystemStatement.postgresBlock)
          (begun existed hstmt errorMsg)) := extends_postgresMain (fun _ => rfl) (by simp [heffect])
    rw [consistent_iff hextends.weaken rfl]
    refine ⟨none_not_mem hextends (by simp [begun, opened]), fun hzero o => ?_⟩
    exact postgresMain_complete rfl rfl rfl
      (fun n hn => (textQueries_sound (fun _ => rfl) (by simp [heffect]) (.inl hn)).2)
      (ensured_table (fun _ => rfl) fun _ hn => hn) hzero o

theorem consistent_oracle (halloc : ok (.alloc 1)) (hserver : Server.ofSubtype impl.subtype = .oracle) :
    Consistent existed (run impl ok existed hstmt errorMsg) ↔ (PairsPass ok existed true → NothingSkipped ok existed true) := by
  have hrun : run impl ok existed hstmt errorMsg = _ := run_pairs halloc (.inl hserver)
  have hqueries : builtQueries impl = queries .oracle impl.versionMajor impl.versionMinor := by rw [builtQueries, hserver]
  simp only [hserver, decide_true] at hrun
  refine consistent_pairs hrun (hqueries ▸ ⟨rfl, rfl⟩) (hqueries ▸ ⟨rfl, rfl⟩) ?_
  rw [hqueries]
  simp only [lastPairs, if_true, List.append_nil, List.forall_mem_cons, List.not_mem_nil, false_implies, implies_true,
    and_true]
  exact ⟨⟨rfl, rfl⟩, ⟨rfl, rfl⟩, ⟨rfl, rfl⟩, ⟨rfl, rfl⟩⟩

theorem execute_ensure (db : Database) (o : SystemObject) :
    (db.execute (some (.ensure o))).1 = .success ∧ (db.execute (some (.ensure o))).2.rows = none := by
  refine ⟨rfl, ?_⟩
  rw [Database.execute]
  cases db.existing o <;> rfl

theorem consistent_noRows {qs : ℕ → Option SystemStatement} {oracle : Bool}
    (hrun : run impl ok existed hstmt errorMsg =
      endTransaction ok ((begun existed hstmt errorMsg).runPairs (server ok) qs oracle))
    (hrows : ((Database.opened existed).execute ((qs 1).map SystemStatement.effect)).1 = .success ∧
      ((Database.opened existed).execute ((qs 1).map SystemStatement.effect)).2.rows = none)
    (htest : qs 1 ≠ none ∧ ∀ o, (qs 1).map SystemStatement.effect ≠ some (.create o))
    (hnext : qs 2 ≠ none ∧ ∀ o, (qs 2).map SystemStatement.effect ≠ some (.create o)) :
    Consistent existed (run impl ok existed hstmt errorMsg) := by
  have hset : (((begun existed hstmt errorMsg).testAndCreate (server ok) qs pair1).freePair (server ok) pair1).result = true :=
    freePair_of_result (testAndCreate_noRows rfl rfl rfl rfl hrows.1 hrows.2).1
  have htested : Extends existed (· ≠ none) (begun existed hstmt errorMsg)
      ((begun existed hstmt errorMsg).testAndCreate (server ok) qs pair1) :=
    extends_testAndCreate (p := pair1) htest.1 hnext.1 (fun o ho => absurd ho (hnext.2 o)) htest.2
  have hextends : Extends existed (· ≠ none) (begun existed hstmt errorMsg)
      (endTransaction ok (((begun existed hstmt errorMsg).testAndCreate (server ok) qs pair1).freePair (server ok) pair1)) :=
    (htested.trans extends_freePair).trans extends_endTransaction
  rw [hrun, runPairs_of_first hset, consistent_iff hextends.weaken rfl, endTransaction_of_result hset]
  exact ⟨none_not_mem hextends (by simp [begun, opened]), fun h => absurd h (by simp)⟩

theorem consistent_sqlAnywhere (halloc : ok (.alloc 1)) (hserver : Server.ofSubtype impl.subtype = .sqlAnywhere) :
    Consistent existed (run impl ok existed hstmt errorMsg) ↔
      if impl.versionMajor > 12 then TextsPass ok [1, 2, 3, 4, 5] → ∀ i : SystemIndex, existed (.index i)
      else if impl.versionMajor = 12 then True
      else PairsPass ok existed false → NothingSkipped ok existed false := by
  have hqueries : builtQueries impl = queries .sqlAnywhere impl.versionMajor impl.versionMinor := by
    rw [builtQueries, hserver]
  by_cases htexts : impl.versionMajor > 12
  · rw [if_pos htexts]
    have htext : builtQueries impl =
        textQueries SystemStatement.anywhereEnsureTable SystemStatement.anywhereEnsureIndex := by
      rw [hqueries, queries]
      exact if_pos (by omega)
    have heffect : ∀ i, (SystemStatement.anywhereEnsureIndex i).effect = .ensure (.index i) := fun _ => rfl
    refine consistent_tablesOnly (run_sqlAnywhereTexts halloc hserver htexts) htext (fun _ => rfl) (by simp [heffect])
      (by decide) (by decide) fun i => ?_
    -- The statements for the indexes are built, and not among those that are executed.
    refine List.any_eq_false.mpr fun n hn => ?_
    obtain ⟨t, ht⟩ : ∃ t, (textQueries SystemStatement.anywhereEnsureTable SystemStatement.anywhereEnsureIndex n).map
        SystemStatement.effect = some (.ensure (.table t)) := textQueries_table (fun _ => rfl) hn
    simp [ht]
  · rw [if_neg htexts]
    have hrun : run impl ok existed hstmt errorMsg = _ := run_pairs halloc (.inr ⟨hserver, htexts⟩)
    simp only [hserver, reduceCtorEq, decide_false] at hrun
    by_cases htwelve : impl.versionMajor = 12
    · rw [if_pos htwelve, iff_true]
      have htext : builtQueries impl =
          textQueries SystemStatement.anywhereEnsureTable SystemStatement.anywhereEnsureIndex := by
        rw [hqueries, queries]
        exact if_pos (by omega)
      have heffect : ∀ i, (SystemStatement.anywhereEnsureIndex i).effect = .ensure (.index i) := fun _ => rfl
      rw [htext] at hrun
      have htable : ∀ u, (SystemStatement.anywhereEnsureTable u).effect = .ensure (.table u) := fun _ => rfl
      have hindex : ∀ i o, (SystemStatement.anywhereEnsureIndex i).effect ≠ .create o := by simp [heffect]
      have hsound : ∀ n ∈ [1, 2, 3, 4, 5], _ := fun n hn => textQueries_sound htable hindex (n := n) (.inl hn)
      exact consistent_noRows hrun (execute_ensure _ (.table .abcatcol)) (hsound 1 (by simp)) (hsound 2 (by simp))
    · rw [if_neg htwelve]
      have hpairs : builtQueries impl = queries .sqlAnywhere 0 0 := by
        rw [hqueries, queries]
        exact if_neg (by omega)
      refine consistent_pairs hrun (hpairs ▸ ⟨rfl, rfl⟩) (hpairs ▸ ⟨rfl, rfl⟩) ?_
      rw [hpairs]
      simp only [lastPairs, Bool.false_eq_true, if_false, List.cons_append, List.nil_append, List.forall_mem_cons,
        List.not_mem_nil, false_implies, implies_true, and_true]
      exact ⟨⟨rfl, rfl⟩, ⟨rfl, rfl⟩, ⟨rfl, rfl⟩, ⟨rfl, rfl⟩, ⟨rfl, rfl⟩⟩

theorem none_mem_runTexts {qs : ℕ → Option SystemStatement} {n : ℕ} {ns : List ℕ} {s : Session Database}
    (hempty : ∀ m ∈ n :: ns, qs m = none) : none ∈ (s.runTexts (server ok) qs (n :: ns)).executed := by
  rw [runTexts, hempty n (by simp)]
  have hmem : none ∈ (s.execAt (server ok) (.exec n) none).executed := by simp [execAt]
  split
  · have hrest : Extends (fun _ => false) (fun _ => True) (s.execAt (server ok) (.exec n) none)
        ((s.execAt (server ok) (.exec n) none).runTexts (server ok) qs ns) :=
      extends_runTexts (fun _ _ => trivial) fun m hm => by simp [hempty m (by simp [hm])]
    exact hrest.mem_executed hmem
  · exact hmem

theorem extends_emptyPairs {qs : ℕ → Option SystemStatement} {ps : List (Pair × SystemObject)} {s : Session Database}
    (hempty : ∀ q ∈ ps, qs q.1.number = none ∧ qs (q.1.number + 1) = none) :
    Extends existed (fun _ => True) s (pairsOf ok qs ps s) := by
  induction ps generalizing s with
  | nil => exact .refl s
  | cons q ps ih =>
    obtain ⟨htest, hnext⟩ := hempty q (by simp)
    have hfirst : Extends existed (fun _ => True) s (s.pair (server ok) qs q.1) :=
      extends_pair trivial trivial (by simp [Guards, hnext]) (by simp [htest])
    exact hfirst.trans (ih fun r hr => hempty r (by simp [hr]))

section AccessEnd

variable {major minor : ℕ} {qs : ℕ → Option SystemStatement} {t : Session Database}

theorem finishObjects_access : t.finishObjects (server ok) .access major minor qs =
    (let u := t.runTexts (server ok) qs [6, 7]
    if u.ret.isOk || u.ret = .noData then u.ask (server ok) .commit none else u) := by
  simp [finishObjects]

theorem extends_finishAccess (hempty : ∀ n ∈ [6, 7], qs n = none) :
    Extends existed (fun _ => True) t (t.finishObjects (server ok) .access major minor qs) := by
  have htexts : Extends existed (fun _ => True) t (t.runTexts (server ok) qs [6, 7]) :=
    extends_runTexts (fun _ _ => trivial) fun n hn => by simp [hempty n hn]
  rw [finishObjects_access]
  dsimp only
  split
  · exact htexts.trans (Extends.ask_none ok .commit)
  · exact htexts

theorem finishAccess_none_mem (hempty : ∀ n ∈ [6, 7], qs n = none) :
    none ∈ (t.finishObjects (server ok) .access major minor qs).executed := by
  have hmem : none ∈ (t.runTexts (server ok) qs [6, 7]).executed := none_mem_runTexts hempty
  rw [finishObjects_access]
  dsimp only
  split <;> exact hmem

end AccessEnd

theorem leave_executed (t : Session Database) : (t.leave (server ok)).executed = t.executed := by
  have hrelease : ∀ t : Session Database, (t.release (server ok)).executed = t.executed := by
    intro t
    have hfree : (t.free (server ok) (.free 0)).executed = t.executed := by
      rw [free]
      cases t.hstmt <;> rfl
    rw [release]
    split
    · rfl
    · dsimp only [clear]
      split <;> exact hfree
  have hconclude : ∀ t : Session Database, (t.conclude (server ok)).executed = t.executed := by
    intro t
    rw [conclude]
    split
    · rfl
    · dsimp only
      split <;> rfl
  rw [leave, hconclude, hrelease, check]
  split
  · rfl
  · exact rollBack_executed .commit

theorem run_access (halloc : ok (.alloc 1)) (hserver : Server.ofSubtype impl.subtype = .access) :
    run impl ok existed hstmt errorMsg =
      (let t := (begun existed hstmt errorMsg).runPairs (server ok) (builtQueries impl) false
      if t.ret.isOk || t.ret = .noData then
        t.finishObjects (server ok) .access impl.versionMajor impl.versionMinor (builtQueries impl)
      else t).leave (server ok) := by
  have hnot : ¬ ((Server.access ≠ .access ∧ Server.access ≠ .sqlAnywhere ∧ Server.access ≠ .oracle) ∨
      Server.access = .sqlAnywhere ∧ impl.versionMajor > 12) := by simp
  rw [run_allocated halloc, hserver]
  dsimp only
  rw [if_neg hnot]
  rfl

theorem consistent_access (halloc : ok (.alloc 1)) (hserver : Server.ofSubtype impl.subtype = .access) :
    Consistent existed (run impl ok existed hstmt errorMsg) ↔ Silent ok existed := by
  have hqueries : builtQueries impl = fun n => if n ≤ 4 then pairQueries SystemStatement.accessFind
      SystemStatement.createTable n else none := by
    rw [builtQueries, hserver]
    rfl
  have hfirst : About (builtQueries impl) 1 (.table .abcatcol) := hqueries ▸ ⟨rfl, rfl⟩
  have hsecond : About (builtQueries impl) 3 (.table .abcatedt) := hqueries ▸ ⟨rfl, rfl⟩
  have hempty : ∀ n, 4 < n → builtQueries impl n = none := fun n hn => by
    rw [hqueries]
    exact if_neg (by omega)
  have hnumbers : ∀ q ∈ lastPairs false, 4 < q.1.number := by decide
  have hextends : Extends existed (fun _ => True) (begun existed hstmt errorMsg)
      ((begun existed hstmt errorMsg).runPairs (server ok) (builtQueries impl) false) := by
    rw [runPairs_eq]
    have hpair1 : Extends existed (· ≠ none) (begun existed hstmt errorMsg)
        (((begun existed hstmt errorMsg).testAndCreate (server ok) (builtQueries impl) pair1).freePair (server ok) pair1) :=
      extends_testAndFree hfirst
    exact (hpair1.trans (extends_pairOf hsecond)).weaken.trans
      (extends_emptyPairs fun q hq => ⟨hempty _ (hnumbers q hq), hempty _ (by have := hnumbers q hq; omega)⟩)
  obtain ⟨hset, hsilent⟩ : _ ∧ (_ ↔ Silent ok existed) :=
    accessPairs (s := begun existed hstmt errorMsg) rfl rfl (by simp [begun, opened]) hfirst hsecond (hempty 5 (by omega))
  rw [run_access halloc hserver, ← hsilent]
  generalize (begun existed hstmt errorMsg).runPairs (server ok) (builtQueries impl) false = t at *
  dsimp only
  have htexts : ∀ n ∈ [6, 7], builtQueries impl n = none := fun n hn => hempty n (by simp at hn; omega)
  cases hret : (t.ret.isOk || t.ret = .noData) with
  | true =>
    rw [if_pos rfl, consistent_iff ((hextends.trans (extends_finishAccess htexts)).trans extends_leave) rfl, leave_executed]
    exact iff_of_false (fun h => h.1 (finishAccess_none_mem htexts)) (by simp)
  | false =>
    rw [if_neg Bool.false_ne_true, consistent_iff (hextends.trans extends_leave) rfl, leave_executed, leave_of_result hset]
    simp

theorem not_consistent_other (halloc : ok (.alloc 1)) (hserver : Server.ofSubtype impl.subtype = .other) :
    ¬ Consistent existed (run impl ok existed hstmt errorMsg) := by
  have hqueries : builtQueries impl = fun _ => none := by
    rw [builtQueries, hserver]
    rfl
  have hrun : run impl ok existed hstmt errorMsg = _ := run_allTexts halloc (by simp [hserver]) (.inr (by simp [hserver]))
  intro h
  refine h.built ?_
  rw [hrun]
  have hextends : Extends existed (fun _ => True) _ (endTransaction ok
    ((begun existed hstmt errorMsg).runTexts (server ok) (builtQueries impl) [1, 2, 3, 4, 5, 6, 7])) := extends_endTransaction
  exact hextends.mem_executed (none_mem_runTexts fun _ _ => by rw [hqueries])

variable (impl ok existed hstmt errorMsg)

theorem consistent_iff_holdsWhen :
    Consistent existed (run impl ok existed hstmt errorMsg) ↔ HoldsWhen impl ok existed := by
  rw [HoldsWhen]
  cases halloc : ok (.alloc 1) with
  | false => exact consistent_unallocated halloc
  | true =>
    cases hserver : Server.ofSubtype impl.subtype with
    | sqlServer =>
      exact iff_of_true (consistent_byTexts halloc (by simp [hserver]) (by rw [builtQueries, hserver]; rfl)
        (fun _ => rfl) fun _ => rfl) trivial
    | access => exact consistent_access halloc hserver
    | mySQL => exact consistent_mySQL halloc hserver
    | postgreSQL => exact iff_of_true (consistent_postgreSQL halloc hserver) trivial
    | sybase =>
      exact iff_of_true (consistent_byTexts halloc (by simp [hserver]) (by rw [builtQueries, hserver]; rfl)
        (fun _ => rfl) fun _ => rfl) trivial
    | ase =>
      exact iff_of_true (consistent_byTexts halloc (by simp [hserver]) (by rw [builtQueries, hserver]; rfl)
        (fun _ => rfl) fun _ => rfl) trivial
    | sqlAnywhere => exact consistent_sqlAnywhere halloc hserver
    | oracle => exact consistent_oracle halloc hserver
    | other => exact iff_of_false (not_consistent_other halloc hserver) id

end Servers

theorem anywhere17_lacks_indexes :
    ¬ Consistent (fun _ => false) (run ⟨Odbc.sqlAnywhere, 17, 0⟩ (fun _ => true) (fun _ => false) .null []) := by
  intro h
  have hserver : Server.ofSubtype Odbc.sqlAnywhere = .sqlAnywhere := by decide
  have hindexes : TextsPass (fun _ => true) [1, 2, 3, 4, 5] → ∀ _ : SystemIndex, false = true :=
    (consistent_sqlAnywhere rfl hserver).mp h
  exact absurd (hindexes ⟨fun _ _ => rfl, rfl, fun _ => rfl, rfl, rfl⟩ .abcattbl_tnam_ownr) (by simp)

end DbHandler.OdbcSystemObjects
