import DbHandler.Postgres.SystemObjects

namespace DbHandler.SystemObjects

open Foundation.Journal

variable {a : Assignment} {errorMsg : List Text} {objects : List SystemObject} {s : Connection} {c : Call}

structure Working (a : Assignment) (errorMsg : List Text) (objects : List SystemObject) (s : Connection) : Prop where
  journal : s.journal = .start :: objects.map .work
  fine : ∀ c ∈ s.called, a.ok c = true
  aborted : s.aborted = false
  errors : s.errorMsg = errorMsg

structure Aborted (a : Assignment) (errorMsg : List Text) (s : Connection) : Prop where
  journal : ∃ objects : List SystemObject, s.journal = .start :: objects.map .work
  failed : s.failed a
  aborted : s.aborted = true
  errors : s.errorMsg = errorMsg

theorem Working.active (h : Working a errorMsg objects s) : (replay .idle s.journal).active = true := by
  rw [h.journal, replay_transaction]

theorem Aborted.fail (h : Aborted a errorMsg s) (err : Text) : Aborted a (errorMsg ++ [err]) (s.fail err) :=
  ⟨h.journal, h.failed, h.aborted, by rw [Connection.fail, h.errors]⟩

section Postgres

open Postgres.SystemObjects

variable {v : Version}

section Exec

variable (a v c s)

@[simp] theorem exec_done : (exec a v c s).1 = a.ok c := s.call_done a (text v c) c

@[simp] theorem exec_called : (exec a v c s).2.called = s.called ++ [c] := by
  cases hok : a.ok c <;> simp [exec, hok]

@[simp] theorem exec_journal :
    (exec a v c s).2.journal = if a.ok c then s.journal ++ c.entries s.aborted else s.journal := by
  cases hok : a.ok c <;> simp [exec, hok]

@[simp] theorem exec_aborted :
    (exec a v c s).2.aborted = (s.aborted || !a.ok c && (replay .idle s.journal).active) := by
  cases hok : a.ok c <;> simp [exec, hok]

@[simp] theorem exec_errorMsg : (exec a v c s).2.errorMsg = s.errorMsg := by
  cases hok : a.ok c <;> simp [exec, hok]

end Exec

theorem Working.exec_ok (created : List SystemObject) (h : Working a errorMsg objects s) (hok : a.ok c = true)
    (hentries : c.entries false = created.map .work) : Working a errorMsg (objects ++ created) (exec a v c s).2 := by
  refine ⟨?_, ?_, ?_, ?_⟩
  · simp [hok, h.journal, h.aborted, hentries]
  · intro d hd
    rw [exec_called, List.mem_append, List.mem_singleton] at hd
    rcases hd with hd | rfl
    · exact h.fine d hd
    · exact hok
  · simp [hok, h.aborted]
  · simp [h.errors]

theorem Working.exec_fails (h : Working a errorMsg objects s) (hfails : a.ok c = false) (hstatement : c.isStatement = true) :
    Aborted a errorMsg (exec a v c s).2 := by
  refine ⟨⟨objects, ?_⟩, ⟨c, ?_, hstatement, hfails⟩, ?_, ?_⟩
  · simp [hfails, h.journal]
  · simp
  · simp [hfails, h.active]
  · simp [h.errors]

theorem createTables_spec (ts : List SystemTable) (h : Working a errorMsg objects s) :
    (ts.all (fun t => a.ok (.create (.table t))) = true → (createTables a v ts s).1 = true ∧
        Working a errorMsg (objects ++ ts.map .table) (createTables a v ts s).2) ∧
      (ts.all (fun t => a.ok (.create (.table t))) = false → (createTables a v ts s).1 = false ∧
        Aborted a errorMsg (createTables a v ts s).2) := by
  induction ts generalizing objects s with
  | nil => simpa [createTables] using h
  | cons t ts ih =>
    rw [createTables, List.all_cons]
    simp only [exec_done]
    cases hok : a.ok (.create (.table t)) with
    | true => simpa using ih (h.exec_ok (v := v) [.table t] hok rfl)
    | false => simpa using h.exec_fails (v := v) hok rfl

def Covers (a : Assignment) (objects : List SystemObject) (o : SystemObject) : Prop := a.existed o = true ∨ o ∈ objects

theorem Covers.mono {more : List SystemObject} {o : SystemObject} (h : Covers a objects o) :
    Covers a (objects ++ more) o := h.imp_right fun hmem => List.mem_append_left _ hmem

theorem createIndexes_spec (is : List SystemIndex) (h : Working a errorMsg objects s) :
    ((createIndexesOnPostgreConnection a v is s).1 = 0 ∧ ∃ created,
        Working a errorMsg (objects ++ created) (createIndexesOnPostgreConnection a v is s).2 ∧
        ∀ i ∈ is, Covers a (objects ++ created) (.index i)) ∨
      ((createIndexesOnPostgreConnection a v is s).1 = 1 ∧
        ∃ err, Aborted a (errorMsg ++ [err]) (createIndexesOnPostgreConnection a v is s).2) := by
  induction is generalizing objects s with
  | nil => exact .inl ⟨rfl, [], by simpa [createIndexesOnPostgreConnection] using h, by simp⟩
  | cons i is ih =>
    rw [createIndexesOnPostgreConnection]
    simp only [exec_done]
    cases hfind : a.ok (.find i) with
    | false => exact .inr ⟨rfl, _, (h.exec_fails (v := v) hfind rfl).fail _⟩
    | true =>
      have hfound := h.exec_ok (v := v) [] hfind rfl
      rw [List.append_nil] at hfound
      simp only [if_true]
      cases hexisted : a.existed (.index i) with
      | true =>
        rcases ih hfound with ⟨hcode, created, hworking, hcovers⟩ | haborted
        · refine .inl ⟨hcode, created, hworking, ?_⟩
          simpa [Covers, hexisted] using hcovers
        · exact .inr haborted
      | false =>
        simp only [Bool.false_eq_true, if_false]
        cases hcreate : a.ok (.create (.index i)) with
        | false => exact .inr ⟨rfl, _, (hfound.exec_fails (v := v) hcreate rfl).fail _⟩
        | true =>
          rcases ih (hfound.exec_ok (v := v) [.index i] hcreate rfl) with ⟨hcode, created, hworking, hcovers⟩ | haborted
          · refine .inl ⟨hcode, .index i :: created, ?_, ?_⟩
            · simpa using hworking
            · intro j hj
              rcases List.mem_cons.mp hj with rfl | hj
              · exact .inr (by simp)
              · simpa using hcovers j hj
          · exact .inr haborted

end Postgres

def Assignment.unnoticed (a : Assignment) (v : Postgres.SystemObjects.Version) : Bool :=
  !SystemTable.all.all (fun t => a.ok (.create (.table t))) ||
    (v.indexIfNotExists && !a.ok (.create (.index .abcattbl_tnam_ownr)))

def Assignment.unreported (a : Assignment) (v : Postgres.SystemObjects.Version) : Bool :=
  v.indexIfNotExists && !a.ok (.create (.index .abcatcol_tnam_ownr_cnam))

section Postgres

open Postgres.SystemObjects

variable {v : Version}

theorem createObjects_unnoticed (hbad : a.unnoticed v = true) (h : Working a errorMsg [] s) :
    (createObjects a v s).1 = 0 ∧ Aborted a errorMsg (createObjects a v s).2 := by
  obtain ⟨hall, hsome⟩ := createTables_spec (v := v) SystemTable.all h
  rw [createObjects]
  cases htables : SystemTable.all.all (fun t => a.ok (.create (.table t))) with
  | false =>
    obtain ⟨hdone, haborted⟩ := hsome htables
    simp only [hdone]
    exact ⟨rfl, haborted⟩
  | true =>
    obtain ⟨hdone, hworking⟩ := hall htables
    simp only [Assignment.unnoticed, htables, Bool.not_true, Bool.false_or, Bool.and_eq_true, Bool.not_eq_true'] at hbad
    have haborted := hworking.exec_fails (v := v) hbad.2 rfl
    simp only [hdone, hbad, if_true, exec_done]
    exact ⟨rfl, haborted⟩

theorem createObjects_unreported (hgood : a.unnoticed v = false) (hbad : a.unreported v = true)
    (h : Working a errorMsg [] s) : (createObjects a v s).1 = 1 ∧ Aborted a errorMsg (createObjects a v s).2 := by
  simp only [Assignment.unnoticed, Bool.or_eq_false_iff, Bool.not_eq_false'] at hgood
  simp only [Assignment.unreported, Bool.and_eq_true, Bool.not_eq_true'] at hbad
  obtain ⟨hdone, htables⟩ := (createTables_spec (v := v) SystemTable.all h).1 hgood.1
  have hfirst : a.ok (.create (.index .abcattbl_tnam_ownr)) = true := by simpa [hbad.1] using hgood.2
  have hworking := htables.exec_ok (v := v) [.index .abcattbl_tnam_ownr] hfirst rfl
  have haborted := hworking.exec_fails (v := v) hbad.2 rfl
  rw [createObjects]
  simp only [hdone, hbad, hfirst, if_true, exec_done]
  exact ⟨rfl, haborted⟩

theorem covers_all (more : List SystemObject) (hindexes : ∀ i, Covers a (SystemTable.all.map .table ++ more) (.index i))
    (o : SystemObject) : Covers a (SystemTable.all.map .table ++ more) o := by
  cases o with
  | table t => exact .inr (List.mem_append_left _ (List.mem_map_of_mem (SystemTable.mem_all t)))
  | index i => exact hindexes i

theorem createObjects_else (hgood : a.unnoticed v = false) (hlast : a.unreported v = false)
    (h : Working a errorMsg [] s) :
    ((createObjects a v s).1 = 0 ∧ ∃ objects, Working a errorMsg objects (createObjects a v s).2 ∧ ∀ o, Covers a objects o) ∨
      ((createObjects a v s).1 = 1 ∧ ∃ err, Aborted a (errorMsg ++ [err]) (createObjects a v s).2) := by
  simp only [Assignment.unnoticed, Bool.or_eq_false_iff, Bool.not_eq_false'] at hgood
  obtain ⟨hdone, htables⟩ := (createTables_spec (v := v) SystemTable.all h).1 hgood.1
  rw [List.nil_append] at htables
  rw [createObjects]
  simp only [hdone, if_true]
  cases hversion : v.indexIfNotExists with
  | true =>
    have hfirst : a.ok (.create (.index .abcattbl_tnam_ownr)) = true := by simpa [hversion] using hgood.2
    have hsecond : a.ok (.create (.index .abcatcol_tnam_ownr_cnam)) = true := by
      simpa [Assignment.unreported, hversion] using hlast
    have hworking := htables.exec_ok (v := v) [.index .abcattbl_tnam_ownr] hfirst rfl
    have hcomplete := hworking.exec_ok (v := v) [.index .abcatcol_tnam_ownr_cnam] hsecond rfl
    simp only [exec_done, hfirst, hsecond, if_true]
    rw [List.append_assoc] at hcomplete
    refine .inl ⟨trivial, _, hcomplete, covers_all _ ?_⟩
    intro i
    cases i <;> exact .inr (by simp)
  | false =>
    simp only [Bool.false_eq_true, if_false]
    rcases createIndexes_spec (v := v) [.abcattbl_tnam_ownr, .abcatcol_tnam_ownr_cnam] htables with
      ⟨hcode, created, hworking, hcovers⟩ | haborted
    · refine .inl ⟨hcode, _, hworking, covers_all _ ?_⟩
      intro i
      cases i <;> exact hcovers _ (by simp)
    · exact .inr haborted

section Disconnect

@[simp] theorem disconnect_called : (disconnect s).called = s.called := rfl

@[simp] theorem disconnect_errorMsg : (disconnect s).errorMsg = s.errorMsg := rfl

theorem disconnect_rolledBack : (disconnect s).rolledBack ↔ (replay .idle s.journal).durable = [] := by
  simp [Connection.rolledBack, disconnect, Store.apply, Store.idle]

end Disconnect

theorem exec_rollback_durable :
    (replay .idle (exec a v .rollback s).2.journal).durable = (replay .idle s.journal).durable := by
  cases hok : a.ok .rollback <;> simp [hok, Call.entries, Store.apply]

theorem Working.not_failed {t : Connection} (more : List Call) (h : Working a errorMsg objects s)
    (hcalled : t.called = s.called ++ more) (hmore : ∀ c ∈ more, c.isStatement = true → a.ok c = true) : ¬ t.failed a := by
  rintro ⟨c, hc, hstatement, hfails⟩
  rw [hcalled, List.mem_append] at hc
  rcases hc with hc | hc
  · simp [h.fine c hc] at hfails
  · simp [hmore c hc hstatement] at hfails

theorem finish_complete (h : Working a errorMsg objects s) (hcovers : ∀ o, Covers a objects o) :
    ReportsTruth a errorMsg (some (finish a v 0 s)) := by
  rw [finish, if_pos rfl]
  simp only [exec_done]
  cases hcommit : a.ok .commit with
  | true =>
    simp only [if_true]
    cases hlist : a.ok .tableList with
    | true =>
      refine ⟨0, _, rfl, fun _ => ⟨?_, ?_, ?_, hlist⟩, fun hfailed => absurd hfailed ?_⟩
      · intro o
        refine (hcovers o).imp_right fun hmem => ?_
        simpa [hcommit, hlist, Call.entries, h.aborted, h.journal, replay_work, Store.apply, Store.idle] using hmem
      · simp [hcommit, hlist, Call.entries, h.aborted]
      · simp
      · exact h.not_failed [.commit, .tableList] (by simp) (by simp [hcommit, hlist])
    | false =>
      refine ⟨1, _, rfl, by simp, fun hfailed => absurd hfailed ?_⟩
      exact h.not_failed [.commit, .tableList] (by simp) (by simp [hcommit, Call.isStatement])
  | false =>
    simp only [Bool.false_eq_true, if_false]
    refine ⟨1, _, rfl, by simp, fun _ => ⟨by simp, by simp [h.errors], ?_⟩⟩
    rw [disconnect_rolledBack, exec_rollback_durable]
    simp [hcommit, h.journal, replay_work, Store.apply, Store.idle]

theorem Aborted.durable (h : Aborted a errorMsg s) : (replay .idle s.journal).durable = [] := by
  obtain ⟨objects, hjournal⟩ := h.journal
  rw [hjournal, replay_transaction]

theorem Aborted.failed_of_called {t : Connection} (more : List Call) (h : Aborted a errorMsg s)
    (hcalled : t.called = s.called ++ more) : t.failed a := by
  obtain ⟨c, hc, hstatement, hfails⟩ := h.failed
  exact ⟨c, by rw [hcalled]; exact List.mem_append_left _ hc, hstatement, hfails⟩

theorem finish_unnoticed (h : Aborted a errorMsg s) :
    ReportsTruth a errorMsg (some (finish a v 0 s)) ↔ a.ok .commit = false ∨ a.ok .tableList = false := by
  rw [finish, if_pos rfl]
  simp only [exec_done]
  cases hcommit : a.ok .commit with
  | true =>
    simp only [if_true]
    cases hlist : a.ok .tableList with
    | true =>
      refine iff_of_false ?_ (by simp)
      rintro ⟨code, t, hresult, -, htruth⟩
      obtain ⟨rfl, rfl⟩ : 0 = code ∧ (exec a v .tableList (exec a v .commit s).2).2 = t := by simpa using hresult
      exact (htruth (h.failed_of_called [.commit, .tableList] (by simp))).1 rfl
    | false =>
      refine iff_of_true ⟨1, _, rfl, by simp, fun _ => ⟨by simp, by simp [h.errors], ?_⟩⟩ (by simp)
      rw [disconnect_rolledBack]
      simp [hcommit, hlist, Call.entries, h.aborted, Store.apply, h.durable]
  | false =>
    simp only [Bool.false_eq_true, if_false]
    refine iff_of_true ⟨1, _, rfl, by simp, fun _ => ⟨by simp, by simp [h.errors], ?_⟩⟩ (by simp)
    rw [disconnect_rolledBack, exec_rollback_durable]
    simp [hcommit, h.durable]

theorem finish_unreported (h : Aborted a errorMsg s) :
    ReportsTruth a errorMsg (some (finish a v 1 s)) ↔ a.ok .rollback = false := by
  rw [finish, if_neg Nat.one_ne_zero]
  simp only [exec_done]
  cases hrollback : a.ok .rollback with
  | true =>
    refine iff_of_false ?_ (by simp)
    rintro ⟨code, t, hresult, -, htruth⟩
    obtain ⟨rfl, rfl⟩ : 1 = code ∧ disconnect (exec a v .rollback s).2 = t := by simpa using hresult
    obtain ⟨-, ⟨-, hmsg⟩, -⟩ := htruth (h.failed_of_called [.rollback] (by simp))
    exact hmsg (by simp [h.errors])
  | false =>
    refine iff_of_true ⟨1, _, rfl, by simp, fun _ => ⟨by simp, by simp [h.errors], ?_⟩⟩ rfl
    simp [disconnect_rolledBack, hrollback, h.durable]

theorem finish_reported {err : Text} (h : Aborted a (errorMsg ++ [err]) s) :
    ReportsTruth a errorMsg (some (finish a v 1 s)) := by
  rw [finish, if_neg Nat.one_ne_zero]
  simp only [exec_done]
  cases hrollback : a.ok .rollback with
  | true =>
    simp only [if_true]
    refine ⟨1, _, rfl, by simp, fun _ => ⟨by simp, by simp [h.errors], ?_⟩⟩
    rw [disconnect_rolledBack, exec_rollback_durable, h.durable]
  | false =>
    refine ⟨1, _, rfl, by simp, fun _ => ⟨by simp, by simp [h.errors], ?_⟩⟩
    simp [disconnect_rolledBack, hrollback, h.durable]

theorem postgres_not_started (h : a.ok .start = false) :
    ReportsTruth a errorMsg (some (createSystemObjectsAndGetDatabaseInfo a v errorMsg)) := by
  have hdurable : (replay .idle (exec a v .start (Connection.opened errorMsg)).2.journal).durable = [] := by
    simp [h, Connection.opened, Store.idle]
  rw [createSystemObjectsAndGetDatabaseInfo]
  simp only [exec_done, h, Bool.false_eq_true, if_false]
  rw [finish, if_neg Nat.one_ne_zero]
  cases hrollback : a.ok .rollback with
  | true =>
    simp only [exec_done, hrollback, if_true]
    refine ⟨1, _, rfl, by simp, fun _ => ⟨by simp, by simp [Connection.opened], ?_⟩⟩
    rw [disconnect_rolledBack, exec_rollback_durable]
    exact hdurable
  | false =>
    simp only [exec_done, hrollback, Bool.false_eq_true, if_false]
    refine ⟨1, _, rfl, by simp, fun _ => ⟨by simp, by simp [Connection.opened], ?_⟩⟩
    rw [disconnect_rolledBack, Connection.fail_journal, exec_rollback_durable]
    exact hdurable

/-- For PostgreSQL the calls that report the truth: no statement fails where the function goes on to COMMIT,
unless it fails once more on the way, and none fails without a message. -/
def PostgresTruthful (a : Assignment) (v : Version) : Prop :=
  a.ok .start = false ∨
    (a.unnoticed v = true → a.ok .commit = false ∨ a.ok .tableList = false) ∧
    (a.unnoticed v = false → a.unreported v = true → a.ok .rollback = false)

theorem working_started (errorMsg : List Text) (v : Version) (h : a.ok .start = true) :
    Working a errorMsg [] (exec a v .start (Connection.opened errorMsg)).2 := by
  refine ⟨?_, ?_, ?_, ?_⟩
  · simp [h, Connection.opened, Call.entries]
  · simp [Connection.opened, h]
  · simp [Connection.opened, h]
  · simp [Connection.opened]

theorem postgres_reportsTruth_iff (a : Assignment) (v : Version) (errorMsg : List Text) :
    ReportsTruth a errorMsg (some (createSystemObjectsAndGetDatabaseInfo a v errorMsg)) ↔ PostgresTruthful a v := by
  rw [PostgresTruthful]
  cases hstart : a.ok .start with
  | false => simp [postgres_not_started hstart]
  | true =>
    have hworking := working_started errorMsg v hstart
    rw [createSystemObjectsAndGetDatabaseInfo]
    simp only [exec_done, hstart, if_true, Bool.true_eq_false, false_or]
    cases hunnoticed : a.unnoticed v with
    | true =>
      obtain ⟨hcode, haborted⟩ := createObjects_unnoticed hunnoticed hworking
      rw [hcode, finish_unnoticed haborted]
      simp
    | false =>
      cases hunreported : a.unreported v with
      | true =>
        obtain ⟨hcode, haborted⟩ := createObjects_unreported hunnoticed hunreported hworking
        rw [hcode, finish_unreported haborted]
        simp
      | false =>
        refine iff_of_true ?_ (by simp)
        rcases createObjects_else hunnoticed hunreported hworking with ⟨hcode, objects, hcomplete, hcovers⟩ | ⟨hcode, err, haborted⟩
        · rw [hcode]
          exact finish_complete hcomplete hcovers
        · rw [hcode]
          exact finish_reported haborted

end Postgres

end DbHandler.SystemObjects
