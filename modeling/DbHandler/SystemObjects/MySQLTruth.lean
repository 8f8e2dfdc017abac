import DbHandler.MySQL.SystemObjects

namespace DbHandler.SystemObjects

open Foundation.Journal

namespace Assignment

variable (a : Assignment)

def found (i : SystemIndex) : Bool :=
  a.ok (.bind i) && a.ok (.find i) && (!a.ok (.fetch i) || a.existed (.index i))

def queryFails (i : SystemIndex) : Bool := !(a.ok (.bind i) && a.ok (.find i) && a.ok (.fetch i))

def silent (i : SystemIndex) : Bool :=
  a.ok (.bind i) && a.ok (.find i) && a.ok (.freeResult i) && a.ok (.reset i)

def validCreated : Bool := a.ok (.create (.table .abcatvld))

def firstDone : Bool :=
  a.validCreated && (a.found .abcattbl_tnam_ownr || a.ok (.create (.index .abcattbl_tnam_ownr)))

def firstFails : Bool :=
  !a.validCreated || (a.queryFails .abcattbl_tnam_ownr ||
    (!a.found .abcattbl_tnam_ownr && !a.ok (.create (.index .abcattbl_tnam_ownr))))

def firstSilent : Bool := !a.validCreated || a.silent .abcattbl_tnam_ownr

def secondCreated : Bool := a.ok (.create (.index .abcatcol_tnam_ownr_cnam))

def committed : Bool := !a.found .abcatcol_tnam_ownr_cnam && (a.secondCreated && a.ok .commit)

def secondFails : Bool :=
  a.queryFails .abcatcol_tnam_ownr_cnam || (!a.found .abcatcol_tnam_ownr_cnam && !(a.secondCreated && a.ok .commit))

def secondSilent : Bool :=
  a.silent .abcatcol_tnam_ownr_cnam && (a.found .abcatcol_tnam_ownr_cnam || a.secondCreated)

end Assignment

section MySQL

open MySQL.SystemObjects

variable {a : Assignment} {errorMsg : List Text} {objects : List SystemObject} {s : Connection} {c : Call}

section Report

variable (a c s)

@[simp] theorem sent_done : (call a c s).1 = a.ok c := s.call_done a (text c) c

@[simp] theorem report_done : (report a c s).1 = a.ok c := s.call_done a (text c) c

@[simp] theorem report_called : (report a c s).2.called = s.called ++ [c] := by
  cases hok : a.ok c <;> simp [report, call, hok]

@[simp] theorem report_journal :
    (report a c s).2.journal = if a.ok c then s.journal ++ c.entries s.aborted else s.journal := by
  cases hok : a.ok c <;> simp [report, call, hok]

@[simp] theorem report_aborted : (report a c s).2.aborted = s.aborted := by
  cases hok : a.ok c <;> simp [report, call, hok]

theorem report_errorMsg : (report a c s).2.errorMsg =
    if a.ok c then s.errorMsg else s.errorMsg ++ [(call a c s).2.error] := by
  cases hok : a.ok c <;> simp [report, call, hok]

end Report

structure Extends (a : Assignment) (s t : Connection) (failing quiet : Bool) : Prop where
  aborted : t.aborted = s.aborted
  called : ∃ more, t.called = s.called ++ more ∧
    (failing = true ↔ ∃ c ∈ more, c.isStatement = true ∧ a.ok c = false)
  messages : s.errorMsg <+: t.errorMsg
  quiet : t.errorMsg = s.errorMsg ↔ quiet = true

theorem Extends.refl (a : Assignment) (s : Connection) : Extends a s s false true :=
  ⟨rfl, ⟨[], by simp, by simp⟩, List.prefix_refl _, by simp⟩

theorem Extends.trans {t u : Connection} {failing failing' quiet quiet' : Bool} (h : Extends a s t failing quiet)
    (h' : Extends a t u failing' quiet') : Extends a s u (failing || failing') (quiet && quiet') := by
  obtain ⟨more, hcalled, hfailing⟩ := h.called
  obtain ⟨more', hcalled', hfailing'⟩ := h'.called
  refine ⟨h'.aborted.trans h.aborted, ⟨more ++ more', ?_, ?_⟩, h.messages.trans h'.messages, ?_⟩
  · rw [hcalled', hcalled, List.append_assoc]
  · simp only [Bool.or_eq_true, hfailing, hfailing', List.mem_append, or_and_right, exists_or]
  · rw [Bool.and_eq_true, ← h.quiet, ← h'.quiet]
    constructor
    · intro heq
      have hsame : t.errorMsg = s.errorMsg := by
        refine List.IsPrefix.eq_of_length_le ?_ ?_
        · rw [← heq]
          exact h'.messages
        · exact h.messages.length_le
      exact ⟨hsame, heq.trans hsame.symm⟩
    · rintro ⟨hsame, hsame'⟩
      exact hsame'.trans hsame

theorem extends_call (a : Assignment) (c : Call) (s : Connection) :
    Extends a s (call a c s).2 (c.isStatement && !a.ok c) true :=
  ⟨by simp [call], ⟨[c], by simp [call], by simp⟩, by simp [call], by simp [call]⟩

theorem extends_report (a : Assignment) (c : Call) (s : Connection) :
    Extends a s (report a c s).2 (c.isStatement && !a.ok c) (a.ok c) := by
  refine ⟨report_aborted a s c, ⟨[c], report_called a s c, by simp⟩, ?_, ?_⟩
  · rw [report_errorMsg]
    cases a.ok c <;> simp
  · rw [report_errorMsg]
    cases a.ok c <;> simp

theorem extends_fail (a : Assignment) (err : Text) (s : Connection) : Extends a s (s.fail err) false false :=
  ⟨rfl, ⟨[], by simp, by simp⟩, by simp, by simp⟩

theorem Extends.congr {t : Connection} {failing failing' quiet quiet' : Bool} (h : Extends a s t failing quiet)
    (hfailing : failing = failing') (hquiet : quiet = quiet') : Extends a s t failing' quiet' := by
  rw [← hfailing, ← hquiet]
  exact h

@[simp] theorem report_query_journal (h : c.entries s.aborted = []) : (report a c s).2.journal = s.journal := by
  simp [h]

structure QuerySpec (a : Assignment) (i : SystemIndex) (s : Connection) (r : Bool × Connection) : Prop where
  exist : r.1 = a.found i
  journal : r.2.journal = s.journal
  extended : Extends a s r.2 (a.queryFails i) (a.silent i)

theorem isSystemIndexExists_spec (a : Assignment) (i : SystemIndex) (s : Connection) :
    QuerySpec a i s (isSystemIndexExists a i s) := by
  have hclose (t : Connection) := (extends_report a (.freeResult i) t).trans (extends_report a (.reset i) _)
  have hbound := extends_report a (.bind i) s
  rw [isSystemIndexExists]
  simp only [report_done]
  cases hbind : a.ok (.bind i) with
  | false =>
    refine ⟨?_, ?_, (hbound.trans (hclose _)).congr ?_ ?_⟩
    · simp [Assignment.found, hbind]
    · simp [Call.entries]
    · simp [Assignment.queryFails, hbind, Call.isStatement]
    · simp [Assignment.silent, hbind]
  | true =>
    have hexecuted := extends_report a (.find i) (report a (.bind i) s).2
    simp only [if_true, report_done]
    cases hfind : a.ok (.find i) with
    | false =>
      refine ⟨?_, ?_, ((hbound.trans hexecuted).trans (hclose _)).congr ?_ ?_⟩
      · simp [Assignment.found, hfind]
      · simp [Call.entries]
      · simp [Assignment.queryFails, hfind, Call.isStatement]
      · simp [Assignment.silent, hfind]
    | true =>
      have hfetched := extends_call a (.fetch i) (report a (.find i) (report a (.bind i) s).2).2
      refine ⟨?_, ?_, (((hbound.trans hexecuted).trans hfetched).trans (hclose _)).congr ?_ ?_⟩
      · simp [Assignment.found, hbind, hfind, call]
      · simp [Call.entries, call]
      · simp [Assignment.queryFails, hbind, hfind, Call.isStatement]
      · simp [Assignment.silent, hbind, hfind]

theorem call_entries (h : s.aborted = false) (hok : a.ok c = true) :
    (call a c s).2.journal = s.journal ++ c.entries false := by
  simp [call, hok, h]

structure Open (objects : List SystemObject) (s : Connection) : Prop where
  journal : s.journal = .start :: objects.map .work
  aborted : s.aborted = false

theorem Open.create {o : SystemObject} (h : Open objects s) :
    Open (if a.ok (.create o) then objects ++ [o] else objects) (call a (.create o) s).2 := by
  cases hok : a.ok (.create o)
  · exact ⟨by simp [call, hok, h.journal], by simp [call, h.aborted]⟩
  · exact ⟨by simp [call, hok, h.journal, Call.entries], by simp [call, h.aborted]⟩

theorem Open.of_query {i : SystemIndex} {r : Bool × Connection} (h : Open objects s) (hquery : QuerySpec a i s r) :
    Open objects r.2 := ⟨hquery.journal.trans h.journal, hquery.extended.aborted.trans h.aborted⟩

theorem createFirstIndex_spec (h : Open objects s) :
    (createFirstIndex a s).1 = a.firstDone ∧
      Extends a s (createFirstIndex a s).2 a.firstFails a.firstSilent ∧
      ∃ created, Open (objects ++ created) (createFirstIndex a s).2 ∧ (a.firstFails = false →
        .table .abcatvld ∈ created ∧ (a.existed (.index .abcattbl_tnam_ownr) = true ∨ .index .abcattbl_tnam_ownr ∈ created)) := by
  have hcall := extends_call a (.create (.table .abcatvld)) s
  have hopen := h.create (a := a) (o := .table .abcatvld)
  rw [createFirstIndex]
  simp only [sent_done]
  cases hvalid : a.ok (.create (.table .abcatvld)) with
  | false =>
    refine ⟨?_, hcall.congr ?_ ?_, [], ?_, ?_⟩
    · simp [Assignment.firstDone, Assignment.validCreated, hvalid]
    · simp [Assignment.firstFails, Assignment.validCreated, hvalid, Call.isStatement]
    · simp [Assignment.firstSilent, Assignment.validCreated, hvalid]
    · simpa [hvalid] using hopen
    · simp [Assignment.firstFails, Assignment.validCreated, hvalid]
  | true =>
    simp only [hvalid, if_true] at hopen ⊢
    have hquery := isSystemIndexExists_spec a .abcattbl_tnam_ownr (call a (.create (.table .abcatvld)) s).2
    have hafter := hopen.of_query hquery
    simp only [hquery.exist]
    cases hfound : a.found .abcattbl_tnam_ownr with
    | true =>
      refine ⟨?_, (hcall.trans hquery.extended).congr ?_ ?_, [.table .abcatvld], hafter, ?_⟩
      · simp [Assignment.firstDone, Assignment.validCreated, hvalid, hfound]
      · simp [Assignment.firstFails, Assignment.validCreated, hvalid, hfound]
      · simp [Assignment.firstSilent, Assignment.validCreated, hvalid]
      · intro hfine
        simp only [Assignment.firstFails, Assignment.queryFails, Assignment.found, Bool.or_eq_false_iff,
          Bool.not_eq_false', Bool.and_eq_true] at hfine hfound
        refine ⟨by simp, .inl ?_⟩
        simpa [hfine.2.1] using hfound.2
    | false =>
      have hcreate := extends_call a (.create (.index .abcattbl_tnam_ownr))
        (isSystemIndexExists a .abcattbl_tnam_ownr (call a (.create (.table .abcatvld)) s).2).2
      have hcreated := hafter.create (a := a) (o := .index .abcattbl_tnam_ownr)
      simp only [Bool.false_eq_true, if_false, sent_done]
      cases hindex : a.ok (.create (.index .abcattbl_tnam_ownr)) with
      | true =>
        refine ⟨?_, ((hcall.trans hquery.extended).trans hcreate).congr ?_ ?_,
          [.table .abcatvld, .index .abcattbl_tnam_ownr], ?_, by simp⟩
        · simp [Assignment.firstDone, Assignment.validCreated, hvalid, hindex]
        · simp [Assignment.firstFails, Assignment.validCreated, hvalid, hfound, hindex, Call.isStatement]
        · simp [Assignment.firstSilent, Assignment.validCreated, hvalid]
        · simpa [hindex] using hcreated
      | false =>
        refine ⟨?_, ((hcall.trans hquery.extended).trans hcreate).congr ?_ ?_, [.table .abcatvld], ?_, ?_⟩
        · simp [Assignment.firstDone, Assignment.validCreated, hvalid, hfound, hindex]
        · simp [Assignment.firstFails, Assignment.validCreated, hvalid, hfound, hindex, Call.isStatement]
        · simp [Assignment.firstSilent, Assignment.validCreated, hvalid]
        · simpa [hindex] using hcreated
        · simp [Assignment.firstFails, hfound, hindex]

structure Closed (objects : List SystemObject) (s : Connection) : Prop where
  journal : s.journal = .start :: objects.map .work ++ [.commit]

theorem createSecondIndex_spec (res : Bool) (h : Open objects s) :
    (createSecondIndex a res s).1 = (if a.found .abcatcol_tnam_ownr_cnam then res else a.secondCreated && a.ok .commit) ∧
      Extends a s (createSecondIndex a res s).2 a.secondFails a.secondSilent ∧
      (a.committed = true → Closed (objects ++ [.index .abcatcol_tnam_ownr_cnam]) (createSecondIndex a res s).2) ∧
      (a.committed = false → ∃ created, Open (objects ++ created) (createSecondIndex a res s).2) := by
  have hquery := isSystemIndexExists_spec a .abcatcol_tnam_ownr_cnam s
  have hafter := h.of_query hquery
  rw [createSecondIndex]
  simp only [hquery.exist]
  cases hfound : a.found .abcatcol_tnam_ownr_cnam with
  | true =>
    refine ⟨rfl, hquery.extended.congr ?_ ?_, ?_, ?_⟩
    · simp [Assignment.secondFails, hfound]
    · simp [Assignment.secondSilent, hfound]
    · simp [Assignment.committed, hfound]
    · exact fun _ => ⟨[], by simpa using hafter⟩
  | false =>
    have hcreate := extends_call a (.create (.index .abcatcol_tnam_ownr_cnam)) (isSystemIndexExists a .abcatcol_tnam_ownr_cnam s).2
    have hcreated := hafter.create (a := a) (o := .index .abcatcol_tnam_ownr_cnam)
    simp only [Bool.false_eq_true, if_false, sent_done]
    cases hindex : a.ok (.create (.index .abcatcol_tnam_ownr_cnam)) with
    | true =>
      have hcommit := extends_call a .commit
        (call a (.create (.index .abcatcol_tnam_ownr_cnam)) (isSystemIndexExists a .abcatcol_tnam_ownr_cnam s).2).2
      simp only [hindex, if_true] at hcreated ⊢
      refine ⟨?_, ((hquery.extended.trans hcreate).trans hcommit).congr ?_ ?_, ?_, ?_⟩
      · simp [Assignment.secondCreated, hindex]
      · simp [Assignment.secondFails, Assignment.secondCreated, hfound, hindex, Call.isStatement]
      · simp [Assignment.secondSilent, Assignment.secondCreated, hindex]
      · intro hdone
        have hok : a.ok .commit = true := by simpa [Assignment.committed, Assignment.secondCreated, hfound, hindex] using hdone
        refine ⟨?_⟩
        rw [call_entries hcreated.aborted hok, hcreated.journal]
        rfl
      · intro hnot
        have hfails : a.ok .commit = false := by simpa [Assignment.committed, Assignment.secondCreated, hfound, hindex] using hnot
        refine ⟨[.index .abcatcol_tnam_ownr_cnam], ?_, ?_⟩
        · simpa [call, hfails] using hcreated.journal
        · simpa [call] using hcreated.aborted
    | false =>
      simp only [hindex, Bool.false_eq_true, if_false] at hcreated ⊢
      refine ⟨?_, ((hquery.extended.trans hcreate).trans (extends_fail a _ _)).congr ?_ ?_, ?_, ?_⟩
      · simp [Assignment.secondCreated, hindex]
      · simp [Assignment.secondFails, Assignment.secondCreated, hfound, hindex, Call.isStatement]
      · simp [Assignment.secondSilent, Assignment.secondCreated, hfound, hindex]
      · simp [Assignment.committed, Assignment.secondCreated, hindex]
      · exact fun _ => ⟨[], by simpa using hcreated.journal, hcreated.aborted⟩

namespace Assignment

variable (a : Assignment)

def indexesDone : Bool := if a.found .abcatcol_tnam_ownr_cnam then a.firstDone else a.secondCreated && a.ok .commit

def indexesFail : Bool := a.firstFails || a.secondFails

def indexesSilent : Bool := a.firstSilent && a.secondSilent && a.ok .close

end Assignment

theorem mySQL_createIndexes_spec (h : Open objects s) :
    (createIndexes a s).1 = a.indexesDone ∧ Extends a s (createIndexes a s).2 a.indexesFail a.indexesSilent ∧
      (a.committed = true → ∃ created, Closed (objects ++ created) (createIndexes a s).2 ∧
        (a.indexesFail = false → .table .abcatvld ∈ created ∧
          ∀ i, a.existed (.index i) = true ∨ .index i ∈ created) ∧ created ≠ []) ∧
      (a.committed = false → ∃ created, Open (objects ++ created) (createIndexes a s).2) := by
  obtain ⟨hfirst, hextends, created, hopen, hcreated⟩ := createFirstIndex_spec (a := a) h
  obtain ⟨hsecond, hextends', hclosed, hstill⟩ := createSecondIndex_spec (a := a) a.firstDone hopen
  have hclose := extends_report a .close (createSecondIndex a a.firstDone (createFirstIndex a s).2).2
  rw [createIndexes]
  simp only [hfirst]
  refine ⟨hsecond, ((hextends.trans hextends').trans hclose).congr ?_ ?_, ?_, ?_⟩
  · simp [Assignment.indexesFail, Call.isStatement]
  · simp [Assignment.indexesSilent]
  · intro hcommitted
    refine ⟨created ++ [.index .abcatcol_tnam_ownr_cnam], ⟨?_⟩, ?_, by simp⟩
    · rw [report_query_journal (by simp [Call.entries]), (hclosed hcommitted).journal, List.append_assoc]
    · intro hfine
      obtain ⟨hvalid, hindex⟩ := hcreated (by simp only [Assignment.indexesFail, Bool.or_eq_false_iff] at hfine; exact hfine.1)
      refine ⟨List.mem_append_left _ hvalid, ?_⟩
      intro i
      cases i with
      | abcattbl_tnam_ownr => exact hindex.imp_right fun hmem => List.mem_append_left _ hmem
      | abcatcol_tnam_ownr_cnam => exact .inr (by simp)
  · intro hcommitted
    obtain ⟨more, hmore⟩ := hstill hcommitted
    refine ⟨created ++ more, ?_, ?_⟩
    · rw [report_query_journal (by simp [Call.entries]), hmore.journal, List.append_assoc]
    · rw [report_aborted, hmore.aborted]

theorem Extends.failed_iff {t : Connection} {failing quiet : Bool} (h : Extends a s t failing quiet) (hs : ¬ s.failed a) :
    t.failed a ↔ failing = true := by
  obtain ⟨more, hcalled, hfailing⟩ := h.called
  rw [Connection.failed_append hcalled, ← hfailing]
  simp [hs]

def stopped (res : Bool) (s : Connection) : Bool := !res || decide (s.errorMsg ≠ [])

def rollbackCalled (a : Assignment) (s : Connection) : Connection :=
  (call a .rollback ((s.fail s.error).fail connectionFailed)).2

theorem finish_of_stopped {res : Bool} (h : stopped res s = true) : finish a res s = (1, rollbackCalled a s) := by
  rw [finish]
  exact if_pos h

theorem finish_of_going {res : Bool} (h : stopped res s = false) : finish a res s = getDatabaseInfo a s := by
  rw [finish]
  refine if_neg fun htrue => ?_
  exact Bool.false_ne_true (h.symm.trans htrue)

@[simp] theorem rollbackCalled_called : (rollbackCalled a s).called = s.called ++ [.rollback] := by simp [rollbackCalled, call]

theorem rollbackCalled_failed : (rollbackCalled a s).failed a ↔ s.failed a ∨ a.ok .rollback = false := by
  rw [Connection.failed_append rollbackCalled_called]
  simp [Call.isStatement]

theorem rollbackCalled_messages (h : errorMsg <+: s.errorMsg) :
    errorMsg <+: (rollbackCalled a s).errorMsg ∧ (rollbackCalled a s).errorMsg ≠ errorMsg := by
  obtain ⟨added, hadded⟩ := h
  simp [rollbackCalled, call, ← hadded]

theorem rollbackCalled_journal : (rollbackCalled a s).journal = if a.ok .rollback then s.journal ++ [.rollback] else s.journal := by
  simp [rollbackCalled, call, Call.entries]

theorem reportsTruth_stopped (hmessages : errorMsg <+: s.errorMsg) :
    ReportsTruth a errorMsg (some (1, rollbackCalled a s)) ↔
      (s.failed a ∨ a.ok .rollback = false → (rollbackCalled a s).rolledBack) := by
  constructor
  · rintro ⟨code, t, hresult, -, htruth⟩ hfailed
    obtain ⟨rfl, rfl⟩ : 1 = code ∧ rollbackCalled a s = t := by simpa using hresult
    exact (htruth (rollbackCalled_failed.mpr hfailed)).2.2
  · intro h
    exact ⟨1, _, rfl, by simp, fun hfailed => ⟨by simp, rollbackCalled_messages hmessages, h (rollbackCalled_failed.mp hfailed)⟩⟩

theorem stopped_open (h : Open objects s) (hmessages : errorMsg <+: s.errorMsg) :
    ReportsTruth a errorMsg (some (1, rollbackCalled a s)) ↔ a.ok .rollback = true := by
  rw [reportsTruth_stopped hmessages, Connection.rolledBack, rollbackCalled_journal]
  cases hrollback : a.ok .rollback with
  | true => simp [h.journal, replay_work, Store.apply, Store.idle]
  | false => simp [h.journal, replay_work, Store.apply, Store.idle]

theorem stopped_closed (h : Closed objects s) (hne : objects ≠ []) (hmessages : errorMsg <+: s.errorMsg) :
    ReportsTruth a errorMsg (some (1, rollbackCalled a s)) ↔ ¬ s.failed a ∧ a.ok .rollback = true := by
  have hdurable : ¬ (rollbackCalled a s).rolledBack := by
    rw [Connection.rolledBack, rollbackCalled_journal]
    cases a.ok .rollback <;> simp [h.journal, replay_work, Store.apply, Store.idle, hne]
  rw [reportsTruth_stopped hmessages]
  simp [hdurable]

structure InfoSpec (a : Assignment) (s : Connection) (r : ℕ × Connection) : Prop where
  code : r.1 = 0 ↔ a.ok .tableList = true ∧ a.ok .user = true ∧ a.ok .storeResult = true
  journal : r.2.journal = s.journal
  called : .tableList ∈ r.2.called
  failed : r.2.failed a ↔ s.failed a ∨ a.ok .tableList = true ∧ a.ok .user = false

theorem getDatabaseInfo_spec (a : Assignment) (s : Connection) : InfoSpec a s (getDatabaseInfo a s) := by
  rw [getDatabaseInfo]
  simp only [report_done]
  cases hlist : a.ok .tableList with
  | false =>
    refine ⟨by simp [hlist], by simp [hlist], by simp, ?_⟩
    simp [Connection.failed_append (report_called a s .tableList), hlist, Call.isStatement]
  | true =>
    have hcalled : (report a .user (report a .tableList s).2).2.called = s.called ++ [.tableList, .user] := by simp
    simp only [if_true]
    cases huser : a.ok .user with
    | false =>
      refine ⟨by simp [huser], by simp [hlist, huser, Call.entries], by simp, ?_⟩
      simp [Connection.failed_append hcalled, hlist, huser, Call.isStatement]
    | true =>
      have hstored : (report a .storeResult (report a .user (report a .tableList s).2).2).2.called =
          s.called ++ [.tableList, .user, .storeResult] := by simp
      refine ⟨by simp [hlist, huser], by simp [Call.entries], by simp, ?_⟩
      simp [Connection.failed_append hstored, hlist, huser, Call.isStatement]

theorem going_closed (h : Closed objects s) (hne : objects ≠ []) (hcovers : ¬ s.failed a → ∀ o, a.existed o = true ∨ o ∈ objects) :
    ReportsTruth a errorMsg (some (getDatabaseInfo a s)) ↔ ¬ s.failed a ∧ (a.ok .tableList = true → a.ok .user = true) := by
  have hinfo := getDatabaseInfo_spec a s
  have hreplay : replay .idle s.journal = ⟨false, [], objects⟩ := by
    simp [h.journal, replay_work, Store.apply, Store.idle]
  have hdurable : ¬ (getDatabaseInfo a s).2.rolledBack := by
    rw [Connection.rolledBack, hinfo.journal, hreplay]
    simp [Store.idle, hne]
  constructor
  · rintro ⟨code, t, hresult, -, htruth⟩
    obtain ⟨-, rfl⟩ : (getDatabaseInfo a s).1 = code ∧ (getDatabaseInfo a s).2 = t := by simpa [Prod.ext_iff] using hresult
    have hfine : ¬ (getDatabaseInfo a s).2.failed a := fun hfailed => hdurable (htruth hfailed).2.2
    rw [hinfo.failed, not_or] at hfine
    refine ⟨hfine.1, fun hlist => ?_⟩
    simpa [hlist] using hfine.2
  · rintro ⟨hfine, huser⟩
    refine ⟨(getDatabaseInfo a s).1, (getDatabaseInfo a s).2, rfl,
      fun hcode => ⟨?_, ?_, hinfo.called, (hinfo.code.mp hcode).1⟩,
      fun hfailed => absurd (hinfo.failed.mp hfailed) ?_⟩
    · intro o
      rw [Connection.exists?, hinfo.journal, hreplay]
      exact hcovers hfine o
    · rw [hinfo.journal, h.journal]
      simp
    · rintro (hfailed | ⟨hlist, hfails⟩)
      · exact hfine hfailed
      · simp [huser hlist] at hfails

theorem going_open (h : Open objects s) :
    ReportsTruth a errorMsg (some (getDatabaseInfo a s)) ↔
      ¬ s.failed a ∧ (a.ok .tableList = true → a.ok .user = true ∧ a.ok .storeResult = false) := by
  have hinfo := getDatabaseInfo_spec a s
  have hactive : ¬ (getDatabaseInfo a s).2.rolledBack := by
    rw [Connection.rolledBack, hinfo.journal, h.journal]
    simp [replay_work, Store.apply, Store.idle]
  have hnone : .commit ∉ (getDatabaseInfo a s).2.journal := by
    rw [hinfo.journal, h.journal]
    simp
  constructor
  · rintro ⟨code, t, hresult, hzero, htruth⟩
    obtain ⟨rfl, rfl⟩ : (getDatabaseInfo a s).1 = code ∧ (getDatabaseInfo a s).2 = t := by simpa [Prod.ext_iff] using hresult
    have hfine : ¬ (getDatabaseInfo a s).2.failed a := fun hfailed => hactive (htruth hfailed).2.2
    rw [hinfo.failed, not_or] at hfine
    refine ⟨hfine.1, fun hlist => ?_⟩
    have huser : a.ok .user = true := by simpa [hlist] using hfine.2
    refine ⟨huser, ?_⟩
    by_contra hstored
    exact hnone (hzero (hinfo.code.mpr ⟨hlist, huser, by simpa using hstored⟩)).2.1
  · rintro ⟨hfine, huser⟩
    refine ⟨(getDatabaseInfo a s).1, (getDatabaseInfo a s).2, rfl, fun hcode => ?_, fun hfailed => absurd (hinfo.failed.mp hfailed) ?_⟩
    · obtain ⟨hlist, -, hstored⟩ := hinfo.code.mp hcode
      simp [(huser hlist).2] at hstored
    · rintro (hfailed | ⟨hlist, hfails⟩)
      · exact hfine hfailed
      · simp [(huser hlist).1] at hfails

theorem Extends.empty_iff {t : Connection} {failing quiet : Bool} (h : Extends a s t failing quiet) :
    t.errorMsg = [] ↔ s.errorMsg = [] ∧ quiet = true := by
  constructor
  · intro ht
    have hs : s.errorMsg = [] := List.prefix_nil.mp (ht ▸ h.messages)
    exact ⟨hs, h.quiet.mp (ht.trans hs.symm)⟩
  · rintro ⟨hs, hquiet⟩
    exact (h.quiet.mpr hquiet).trans hs

theorem mySQL_createTables_spec (ts : List SystemTable) (h : Open objects s) :
    (createTables a ts s).1 = ts.all (fun t => a.ok (.create (.table t))) ∧
      Extends a s (createTables a ts s).2 (!ts.all fun t => a.ok (.create (.table t))) true ∧
      ∃ created, Open (objects ++ created) (createTables a ts s).2 ∧
        (ts.all (fun t => a.ok (.create (.table t))) = true → created = ts.map .table) := by
  induction ts generalizing objects s with
  | nil => exact ⟨rfl, Extends.refl a s, [], by simpa [createTables] using h, fun _ => rfl⟩
  | cons t ts ih =>
    have hcall := extends_call a (.create (.table t)) s
    have hopen := h.create (a := a) (o := .table t)
    rw [createTables]
    simp only [sent_done]
    cases hok : a.ok (.create (.table t)) with
    | false =>
      simp only [hok, Bool.false_eq_true, if_false] at hopen ⊢
      refine ⟨?_, hcall.congr ?_ rfl, [], ?_, ?_⟩
      · simp [hok]
      · simp [hok, Call.isStatement]
      · simpa using hopen
      · simp [hok]
    | true =>
      simp only [hok, if_true] at hopen ⊢
      obtain ⟨hdone, hextends, created, hafter, hcreated⟩ := ih hopen
      refine ⟨?_, (hcall.trans hextends).congr ?_ rfl, .table t :: created, ?_, ?_⟩
      · simp [hdone, hok]
      · simp [hok]
      · simpa using hafter
      · intro hall
        rw [List.all_cons, hok, Bool.true_and] at hall
        rw [hcreated hall, List.map_cons]

def Assignment.firstTables (a : Assignment) : Bool :=
  [SystemTable.abcatcol, .abcatedt, .abcatfmt, .abcattbl].all fun t => a.ok (.create (.table t))

def Assignment.proceeds (a : Assignment) (errorMsg : List Text) : Bool :=
  a.indexesDone && (a.indexesSilent && decide (errorMsg = []))

def MySQLTruthful (a : Assignment) (errorMsg : List Text) : Prop :=
  a.ok .start = true →
    if a.firstTables then
      a.ok .statementInit = true ∧
        if a.ok .prepare then
          if a.proceeds errorMsg then
            a.indexesFail = false ∧
              (a.ok .tableList = true → a.ok .user = true ∧ (a.committed = false → a.ok .storeResult = false))
          else a.ok .rollback = true ∧ (a.committed = true → a.indexesFail = false)
        else a.ok .rollback = true
    else a.ok .rollback = true

theorem mySQL_indexes_truth (h : Open ([SystemTable.abcatcol, .abcatedt, .abcatfmt, .abcattbl].map .table) s)
    (hfine : ¬ s.failed a) (hmessages : s.errorMsg = errorMsg) :
    ReportsTruth a errorMsg (some (finish a (createIndexes a s).1 (createIndexes a s).2)) ↔
      if a.proceeds errorMsg then
        a.indexesFail = false ∧
          (a.ok .tableList = true → a.ok .user = true ∧ (a.committed = false → a.ok .storeResult = false))
      else a.ok .rollback = true ∧ (a.committed = true → a.indexesFail = false) := by
  obtain ⟨hdone, hextends, hclosed, hopen⟩ := mySQL_createIndexes_spec (a := a) h
  have hfailed := hextends.failed_iff hfine
  have hprefix : errorMsg <+: (createIndexes a s).2.errorMsg := hmessages ▸ hextends.messages
  have hstopped : stopped (createIndexes a s).1 (createIndexes a s).2 = !a.proceeds errorMsg := by
    rw [stopped, hdone, Assignment.proceeds, Bool.not_and]
    congr 1
    rw [Bool.eq_iff_iff, decide_eq_true_iff, Bool.not_eq_true', ← Bool.not_eq_true, Bool.and_eq_true, decide_eq_true_iff,
      ← hmessages]
    exact not_congr (hextends.empty_iff.trans and_comm)
  cases hproceeds : a.proceeds errorMsg with
  | true =>
    rw [hproceeds] at hstopped
    rw [finish_of_going (by simpa using hstopped)]
    cases hcommitted : a.committed with
    | true =>
      obtain ⟨created, hobjects, hcovers, hne⟩ := hclosed hcommitted
      rw [going_closed hobjects (by simp) ?_, hfailed]
      · simp
      · intro hgood o
        rw [hfailed, Bool.not_eq_true] at hgood
        obtain ⟨hvalid, hindexes⟩ := hcovers hgood
        cases o with
        | table t =>
          refine .inr ?_
          cases t <;> simp [hvalid]
        | index i => exact (hindexes i).imp_right fun hmem => List.mem_append_right _ hmem
    | false =>
      obtain ⟨created, hobjects⟩ := hopen hcommitted
      rw [going_open hobjects, hfailed]
      simp
  | false =>
    rw [hproceeds] at hstopped
    rw [finish_of_stopped (by simpa using hstopped)]
    cases hcommitted : a.committed with
    | true =>
      obtain ⟨created, hobjects, hcovers, hne⟩ := hclosed hcommitted
      rw [stopped_closed hobjects (by simp) hprefix, hfailed]
      simp [and_comm]
    | false =>
      obtain ⟨created, hobjects⟩ := hopen hcommitted
      rw [stopped_open hobjects hprefix]
      simp

section Started

variable (a errorMsg)

def started : Connection := (call a .start (report a .statementInit (Connection.opened errorMsg)).2).2

theorem started_messages : errorMsg <+: (started a errorMsg).errorMsg := by
  rw [started]
  exact ((extends_report a .statementInit (Connection.opened errorMsg)).trans (extends_call a .start _)).messages

theorem started_errorMsg (h : a.ok .statementInit = true) : (started a errorMsg).errorMsg = errorMsg := by
  simp [started, call, report_errorMsg, h, Connection.opened]

theorem started_open (h : a.ok .start = true) : Open [] (started a errorMsg) :=
  ⟨by simp [started, call, h, Call.entries, Connection.opened], by simp [started, call, Connection.opened]⟩

theorem started_not_failed (h : a.ok .start = true) : ¬ (started a errorMsg).failed a := by
  simp [Connection.failed, started, call, Connection.opened, Call.isStatement, h]

theorem mySQL_not_started (h : a.ok .start = false) :
    ReportsTruth a errorMsg (some (finish a false (((started a errorMsg).fail (started a errorMsg).error).fail connectionFailed))) := by
  have hprefix : errorMsg <+:
      (((started a errorMsg).fail (started a errorMsg).error).fail connectionFailed).errorMsg := by
    simp only [Connection.fail_errorMsg, List.append_assoc]
    exact (started_messages a errorMsg).trans (List.prefix_append _ _)
  rw [finish_of_stopped rfl, reportsTruth_stopped hprefix]
  intro _
  rw [Connection.rolledBack, rollbackCalled_journal]
  cases a.ok .rollback <;> simp [started, call, h, Call.entries, Connection.opened, Store.apply, Store.idle]

end Started

theorem mySQL_reportsTruth_iff (a : Assignment) (errorMsg : List Text) :
    ReportsTruth a errorMsg (createSystemObjectsAndGetDatabaseInfo a errorMsg) ↔ MySQLTruthful a errorMsg := by
  rw [createSystemObjectsAndGetDatabaseInfo, MySQLTruthful]
  simp only [report_done, sent_done]
  change ReportsTruth a errorMsg (if a.ok .start = true then
    (createObjects a (a.ok .statementInit) (started a errorMsg)).map (fun r => finish a r.1 r.2) else
    some (finish a false (((started a errorMsg).fail (started a errorMsg).error).fail connectionFailed))) ↔ _
  cases hstart : a.ok .start with
  | false => simpa using mySQL_not_started a errorMsg hstart
  | true =>
    have hopen := started_open a errorMsg hstart
    have hfine := started_not_failed a errorMsg hstart
    have hmessages := started_messages a errorMsg
    obtain ⟨hdone, hextends, created, hafter, hcreated⟩ :=
      mySQL_createTables_spec (a := a) [.abcatcol, .abcatedt, .abcatfmt, .abcattbl] hopen
    simp only [if_true, forall_const, createObjects, hdone]
    change ReportsTruth a errorMsg ((if a.firstTables = true then _ else _ : Option _).map _) ↔ _
    cases htables : a.firstTables with
    | false =>
      simp only [Bool.false_eq_true, if_false, Option.map_some]
      rw [finish_of_stopped rfl, stopped_open hafter (hmessages.trans hextends.messages)]
    | true =>
      obtain rfl := hcreated htables
      replace hextends := hextends.congr (show _ = false from congrArg Bool.not htables) rfl
      cases hinit : a.ok .statementInit with
      | false => simp [ReportsTruth]
      | true =>
        have hprepared := extends_report a .prepare (createTables a [.abcatcol, .abcatedt, .abcatfmt, .abcattbl] (started a errorMsg)).2
        have hsteps := hextends.trans hprepared
        have hready : Open ([SystemTable.abcatcol, .abcatedt, .abcatfmt, .abcattbl].map .table)
            (report a .prepare (createTables a [.abcatcol, .abcatedt, .abcatfmt, .abcattbl] (started a errorMsg)).2).2 :=
          ⟨by rw [report_query_journal (by simp [Call.entries]), hafter.journal, List.nil_append],
            by rw [report_aborted, hafter.aborted]⟩
        simp only [if_true, report_done, Option.map_some, true_and]
        cases hprepare : a.ok .prepare with
        | true =>
          rw [if_pos rfl]
          refine mySQL_indexes_truth hready ?_ ?_
          · rw [hsteps.failed_iff hfine]
            simp [hprepare]
          · rw [hsteps.quiet.mpr (by simp [hprepare]), started_errorMsg a errorMsg hinit]
        | false =>
          have hstopped : stopped true (report a .prepare
              (createTables a [.abcatcol, .abcatedt, .abcatfmt, .abcattbl] (started a errorMsg)).2).2 = true := by
            simp [stopped, report_errorMsg, hprepare]
          simp only [Bool.false_eq_true, if_false]
          rw [finish_of_stopped hstopped, stopped_open hready (hmessages.trans hsteps.messages)]

end MySQL

end DbHandler.SystemObjects
