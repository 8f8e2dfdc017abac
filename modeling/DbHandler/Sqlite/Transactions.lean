import DbHandler.Sqlite.FieldProperties
import DbHandler.Sqlite.ForeignKeys
import DbHandler.Sqlite.Indexes

namespace DbHandler.Sqlite

open Foundation.Journal FieldCommands ForeignKeys
open AlterTable (ForeignKeyCall)

abbrev Switch := Text → Option Bool

@[ext] structure Standing where
  active : Bool
  writable : Bool
  deriving DecidableEq, Repr

def Standing.apply (switch : Switch) (st : Standing) : Entry Text → Standing
  | .start => { st with active := true }
  | .commit => { st with active := false }
  | .rollback => { st with active := false }
  | .work text => { st with writable := (switch text).getD st.writable }

namespace Session

variable {δ : Type} (switch : Switch)

/-- The pragma is off when the connection is opened. -/
def standing (s : Session δ) : Standing := s.journal.foldl (Standing.apply switch) ⟨false, false⟩

theorem foldl_active (journal : List (Entry Text)) (st : Standing) (store : Store Text) (h : st.active = store.active) :
    (journal.foldl (Standing.apply switch) st).active = (replay store journal).active := by
  induction journal generalizing st store with
  | nil => exact h
  | cons e journal ih =>
    apply ih
    cases e with
    | start => rfl
    | commit => rfl
    | rollback => rfl
    | work text => exact h.trans (apply_work_active store text).symm

theorem standing_active (s : Session δ) : (s.standing switch).active = s.active :=
  foldl_active switch s.journal _ .idle rfl

variable {switch} (c : Client δ) (s : Session δ)

@[simp] theorem standing_fail (err : Text) : (s.fail err).standing switch = s.standing switch := rfl

theorem standing_report (answer : Option Text × δ) (entries : List (Entry Text)) :
    (s.report answer entries).2.standing switch =
      if (s.report answer entries).1 then entries.foldl (Standing.apply switch) (s.standing switch)
      else s.standing switch := by
  unfold report
  cases answer.1 with
  | none => exact List.foldl_append ..
  | some err => rfl

theorem standing_exec (statement : Statement) : (s.exec c statement).2.standing switch =
    if (s.exec c statement).1 then (s.standing switch).apply switch statement.entry else s.standing switch := by
  unfold exec
  by_cases hnested : statement.entry = .start ∧ s.active
  · rw [if_pos hnested]
    rfl
  · rw [if_neg hnested]
    exact standing_report s _ [statement.entry]

@[simp] theorem standing_prepare (query : Query) : (s.prepare c query).2.standing switch = s.standing switch := by
  unfold prepare
  rw [standing_report]
  exact ite_self _

@[simp] theorem standing_bindText (query : Query) (position : ℕ) (value : Text) :
    (s.bindText c query position value).2.standing switch = s.standing switch := by
  unfold bindText
  rw [standing_report]
  exact ite_self _

@[simp] theorem standing_step (query : Query) (values : List Text) :
    (s.step c query values).2.standing switch = s.standing switch := rfl

theorem standing_run (query : Query) (values : List Text) (text : Text) :
    (s.run c query values text).2.standing switch =
      if (s.run c query values text).1 then (s.standing switch).apply switch (.work text) else s.standing switch := by
  unfold run
  rcases hstep : s.step c query values with ⟨⟨rows, last⟩, t⟩
  have ht : t.standing switch = s.standing switch := congrArg (fun r => r.2.standing switch) hstep.symm
  cases rows with
  | nil =>
    cases last with
    | none =>
      rw [← ht]
      exact List.foldl_append ..
    | some err => exact ht
  | cons row rows => exact ht

end Session

section Ends

variable {δ : Type} (switch : Switch) (c : Client δ)

def endStatement (done : Bool) : Statement := if done then .commit else .rollback

def attempt (command : Text) (s : Session δ) : Bool × Session δ :=
  let (prepared, s) := s.prepare c (.command command)
  if prepared then s.run c (.command command) [] command else (false, s)

def Keeps (text : Text) (s : Session δ) : Prop :=
  (switch text).getD (s.standing switch).writable = (s.standing switch).writable

def CreateIndexEnds (command indexName tableName : Text) (s : Session δ) : Prop :=
  (s.exec c .beginTransaction).1 = true →
    let (found, t) := isIndexExists c indexName tableName (s.exec c .beginTransaction).2
    found = false ∧ t.errorMsg = [] ∧
      let (done, t) := attempt c command t
      (done = true → Keeps switch command s) ∧ (t.exec c (endStatement done)).1 = true

def sendCommand (key : ColumnKey) (props : FieldProperties) (isLogOnly : Bool) (s : Session δ) : Text × Bool × Session δ :=
  let (exist, s) := isFieldPropertiesExist c key s
  let command := fieldCommand .quoted (assignments .quoted props) exist key props
  (command, if isLogOnly then (true, s) else s.exec c (.command command))

def SetFieldPropertiesEnds (key : ColumnKey) (props : FieldProperties) (isLogOnly : Bool) (s : Session δ) : Prop :=
  (s.exec c .begin).1 = true →
    let (command, done, t) := sendCommand c key props isLogOnly (s.exec c .begin).2
    (isLogOnly = false → done = true → Keeps switch command s) ∧ (t.exec c (endStatement done)).1 = true

def updateSchema (sql tableName : Text) (s : Session δ) : Bool × Session δ :=
  let (prepared, s) := s.prepare c .updateSchema
  let (first, s) := if prepared then s.bindText c .updateSchema 1 sql else (false, s)
  let (second, s) := if first then s.bindText c .updateSchema 2 tableName else (false, s)
  if second then s.run c .updateSchema [sql, tableName] updateSchemaText else (false, s)

def rewritten (call : ForeignKeyCall) (table : DatabaseTable) (newFK : List FKField) (sql : Text) : Guarded Text :=
  if call.isNew then addClause call newFK sql
  else (dropForeignKey call.refTableName sql table.foreignKeys).bind fun r => addClause call newFK r.1

def KeyTransactionEnds (call : ForeignKeyCall) (table : DatabaseTable) (newFK : List FKField) (s : Session δ) : Prop :=
  let query := Query.tableSql table.tableName
  (s.prepare c query).1 = true ∧
    let (cursor, t) := (s.prepare c query).2.step c query []
    cursor.last = none ∧ ∃ sql written, readSql cursor.rows = some sql ∧ rewritten call table newFK sql = .ok written ∧
      let (done, t) := updateSchema c written table.tableName t
      (t.exec c (endStatement done)).1 = true

/-- The pragma is never reset, so that it had to be on before. -/
def ApplyForeignKeyEnds (call : ForeignKeyCall) (s : KeySession δ) : Prop :=
  call.logOnly = false → (s.session.exec c writableSchema).1 = true → (s.session.standing switch).writable = true ∧
    let t := (s.session.exec c writableSchema).2
    ((t.exec c .begin).1 = true → KeyTransactionEnds c call s.table s.newFK (t.exec c .begin).2)

variable {switch c} (s : Session δ)

theorem standing_isIndexExists (indexName tableName : Text) :
    (isIndexExists c indexName tableName s).2.standing switch = s.standing switch := by
  simp only [isIndexExists]
  split_ifs with hprepared hfound
  · exact s.standing_prepare c _
  · cases ((s.prepare c (.indexList (Foundation.Encoding.cString (Foundation.Encoding.wide tableName)))).2.step c _ []).1.last <;>
      exact s.standing_prepare c _
  · exact s.standing_prepare c _

theorem standing_end {done : Bool} {st : Standing} (h : s.standing switch = st) :
    (s.exec c (endStatement done)).2.standing switch =
      if (s.exec c (endStatement done)).1 then { st with active := false } else st := by
  rw [s.standing_exec c, h]
  cases done <;> rfl

theorem ends_iff {done : Bool} {begun before : Standing} (h : s.standing switch = begun) (hbegun : begun.active = true)
    (hbefore : before.active = false) : (s.exec c (endStatement done)).2.standing switch = before ↔
      begun.writable = before.writable ∧ (s.exec c (endStatement done)).1 = true := by
  obtain ⟨active, writable⟩ := before
  obtain rfl : active = false := hbefore
  rw [standing_end s h]
  cases (s.exec c (endStatement done)).1 with
  | false =>
    refine iff_of_false ?_ (fun h => Bool.false_ne_true h.2)
    rintro rfl
    exact Bool.false_ne_true hbegun
  | true => simp

theorem standing_attempt (command : Text) : (attempt c command s).2.standing switch =
    if (attempt c command s).1 then (s.standing switch).apply switch (.work command) else s.standing switch := by
  simp only [attempt]
  by_cases hprepared : (s.prepare c (.command command)).1 = true
  · simp only [hprepared, if_true]
    rw [Session.standing_run, Session.standing_prepare]
  · simp only [hprepared]
    exact s.standing_prepare c _

theorem standing_begun {statement : Statement} (hstatement : statement.entry = .start)
    (h : (s.exec c statement).1 = true) :
    (s.exec c statement).2.standing switch = ⟨true, (s.standing switch).writable⟩ := by
  rw [s.standing_exec c, if_pos h, hstatement]
  rfl

theorem ne_of_active {st before : Standing} (h : st.active = true) (hbefore : before.active = false) : st ≠ before := by
  rintro rfl
  exact Bool.false_ne_true (hbefore.symm.trans h)

theorem worked_ends_iff {done : Bool} {t u : Session δ} {before : Standing} (text : Text) (hbefore : before.active = false)
    (ht : t.standing switch = ⟨true, before.writable⟩)
    (hu : u.standing switch = if done then (t.standing switch).apply switch (.work text) else t.standing switch) :
    (u.exec c (endStatement done)).2.standing switch = before ↔
      (done = true → (switch text).getD before.writable = before.writable) ∧ (u.exec c (endStatement done)).1 = true := by
  rw [ht] at hu
  have hactive : (u.standing switch).active = true := by
    rw [hu]
    cases done <;> rfl
  rw [ends_iff u rfl hactive hbefore, hu]
  apply and_congr_left'
  cases done with
  | false => exact iff_of_true rfl (fun h => absurd h Bool.false_ne_true)
  | true => exact ⟨fun h _ => h, fun h => h rfl⟩

theorem createIndex_ends_iff (command indexName tableName : Text) (hs : s.active = false) :
    (createIndex c command indexName tableName s).2.standing switch = s.standing switch ↔
      CreateIndexEnds switch c command indexName tableName s := by
  rw [← s.standing_active switch] at hs
  simp only [createIndex, CreateIndexEnds]
  by_cases hbegun : (s.exec c .beginTransaction).1 = true
  · have hopen : (isIndexExists c indexName tableName (s.exec c .beginTransaction).2).2.standing switch = _ :=
      (standing_isIndexExists _ indexName tableName).trans (standing_begun s rfl hbegun)
    simp only [hbegun, if_true, true_implies]
    generalize isIndexExists c indexName tableName (s.exec c .beginTransaction).2 = r at hopen ⊢
    obtain ⟨found, t⟩ := r
    by_cases hfound : found = true
    · rw [if_pos hfound]
      apply iff_of_false
      · exact ne_of_active (hopen ▸ rfl) hs
      · exact fun h => Bool.false_ne_true (h.1.symm.trans hfound)
    · rw [if_neg hfound]
      by_cases hmsg : t.errorMsg = []
      · rw [if_neg (not_not.mpr hmsg)]
        have hends := worked_ends_iff (c := c) command hs hopen (standing_attempt (c := c) t command)
        exact hends.trans ⟨fun h => ⟨Bool.eq_false_iff.mpr hfound, hmsg, h⟩, fun h => h.2.2⟩
      · rw [if_pos hmsg]
        apply iff_of_false
        · exact ne_of_active (hopen ▸ rfl) hs
        · exact fun h => hmsg h.2.1
  · rw [if_neg hbegun]
    refine iff_of_true ?_ (fun h => absurd h hbegun)
    exact (s.standing_exec c _).trans (if_neg hbegun)

theorem standing_bindAll (query : Query) (position : ℕ) (values : List Text) :
    (bindAll c query position values s).2.standing switch = s.standing switch := by
  induction values generalizing position s with
  | nil => rfl
  | cons value values ih =>
    simp only [bindAll]
    split_ifs
    · rw [ih]
      exact s.standing_bindText c query position value
    · exact s.standing_bindText c query position value

theorem standing_isFieldPropertiesExist (key : ColumnKey) :
    (isFieldPropertiesExist c key s).2.standing switch = s.standing switch := by
  have hbound : (if (s.prepare c .fieldPropertiesExist).1 then
      bindAll c .fieldPropertiesExist 1 (keyValues key) (s.prepare c .fieldPropertiesExist).2
      else (false, (s.prepare c .fieldPropertiesExist).2)).2.standing switch = s.standing switch := by
    split_ifs
    · rw [standing_bindAll]
      exact s.standing_prepare c _
    · exact s.standing_prepare c _
  simp only [isFieldPropertiesExist]
  rw [apply_ite Prod.snd, Session.standing, apply_ite Session.journal]
  exact (congrArg _ (ite_self _)).trans hbound

theorem setFieldProperties_ends_iff (key : ColumnKey) (props : FieldProperties) (isLogOnly : Bool) (command : Text)
    (hs : s.active = false) :
    (setFieldProperties c key props isLogOnly command s).2.2.standing switch = s.standing switch ↔
      SetFieldPropertiesEnds switch c key props isLogOnly s := by
  rw [← s.standing_active switch] at hs
  simp only [setFieldProperties, SetFieldPropertiesEnds, sendCommand]
  by_cases hbegun : (s.exec c .begin).1 = true
  · have hopen : (isFieldPropertiesExist c key (s.exec c .begin).2).2.standing switch = _ :=
      (standing_isFieldPropertiesExist _ key).trans (standing_begun s rfl hbegun)
    simp only [hbegun, if_true, true_implies]
    generalize isFieldPropertiesExist c key (s.exec c .begin).2 = r at hopen ⊢
    obtain ⟨exist, t⟩ := r
    cases isLogOnly with
    | true =>
      have hends : (t.exec c (endStatement true)).2.standing switch = s.standing switch ↔ _ := ends_iff t hopen rfl hs
      exact hends.trans ⟨fun h => ⟨fun h => absurd h.symm Bool.false_ne_true, h.2⟩, fun h => ⟨rfl, h.2⟩⟩
    | false =>
      have hends := worked_ends_iff (c := c) _ hs hopen
        (t.standing_exec c (.command (fieldCommand .quoted (assignments .quoted props) exist key props)))
      exact hends.trans ⟨fun h => ⟨fun _ => h.1, h.2⟩, fun h => ⟨h.1 rfl, h.2⟩⟩
  · rw [if_neg hbegun]
    refine iff_of_true ?_ (fun h => absurd h hbegun)
    exact (s.standing_exec c _).trans (if_neg hbegun)

theorem standing_updateSchema (sql tableName : Text) (hupdate : switch updateSchemaText = none) :
    (updateSchema c sql tableName s).2.standing switch = s.standing switch := by
  have hrun (t : Session δ) : (t.run c .updateSchema [sql, tableName] updateSchemaText).2.standing switch = t.standing switch := by
    rw [t.standing_run]
    simp only [Standing.apply, hupdate, Option.getD_none]
    exact ite_self _
  simp only [updateSchema]
  split_ifs <;> simp only [hrun, Session.standing_bindText, Session.standing_prepare]

theorem standing_storeSql (sql tableName : Text) (hanalyze : switch analyze.text = none) :
    (storeSql c sql tableName s).2.standing switch =
      ((updateSchema c sql tableName s).2.exec c (endStatement (updateSchema c sql tableName s).1)).2.standing switch := by
  have hanalyzed (t : Session δ) : (t.exec c analyze).2.standing switch = t.standing switch := by
    have hkeep : (t.standing switch).apply switch analyze.entry = t.standing switch := by
      show Standing.mk _ ((switch analyze.text).getD _) = _
      rw [hanalyze]
      rfl
    rw [t.standing_exec, hkeep]
    exact ite_self _
  have hsame (r e : Bool × Session δ) : (if r.1 && e.1 then e.2.exec c analyze else (false, e.2)).2.standing switch =
      e.2.standing switch := by
    split_ifs
    · exact hanalyzed e.2
    · rfl
  exact hsame _ _

theorem storeSql_ends_iff {before : Standing} (sql tableName : Text) (hupdate : switch updateSchemaText = none)
    (hanalyze : switch analyze.text = none) (hbefore : before.active = false)
    (hs : s.standing switch = ⟨true, before.writable⟩) :
    (storeSql c sql tableName s).2.standing switch = before ↔
      ((updateSchema c sql tableName s).2.exec c (endStatement (updateSchema c sql tableName s).1)).1 = true := by
  have hupdated := (standing_updateSchema (c := c) s sql tableName hupdate).trans hs
  rw [standing_storeSql s sql tableName hanalyze, ends_iff _ hupdated rfl hbefore]
  exact and_iff_right rfl

theorem storeSql_writable (sql tableName : Text) (hupdate : switch updateSchemaText = none)
    (hanalyze : switch analyze.text = none) :
    ((storeSql c sql tableName s).2.standing switch).writable = (s.standing switch).writable := by
  rw [standing_storeSql s sql tableName hanalyze, standing_end _ (standing_updateSchema s sql tableName hupdate)]
  split_ifs <;> rfl

end Ends

section ForeignKeys

variable {δ : Type} {switch : Switch} {c : Client δ} {call : ForeignKeyCall}

theorem writeSchema_session (sql : Text) (s : KeySession δ) : (writeSchema c call sql s).state.session =
    match addClause call s.newFK sql with
    | .error _ => s.session
    | .ok written => if call.logOnly then s.session else (storeSql c written s.table.tableName s.session).2 := by
  unfold writeSchema
  cases addClause call s.newFK sql with
  | error fault => rfl
  | ok written =>
    simp only
    split_ifs
    · rfl
    · rfl
    · rfl

theorem rewriteSchema_session (sql : Text) (s : KeySession δ) : (rewriteSchema c call sql s).state.session =
    match rewritten call s.table s.newFK sql with
    | .error _ => s.session
    | .ok written => if call.logOnly then s.session else (storeSql c written s.table.tableName s.session).2 := by
  unfold rewriteSchema rewritten
  cases call.isNew with
  | true => exact writeSchema_session sql s
  | false =>
    cases dropForeignKey call.refTableName sql s.table.foreignKeys with
    | error fault => rfl
    | ok r => exact writeSchema_session r.1 (s.setForeignKeys r.2)

def readSchema (c : Client δ) (call : ForeignKeyCall) (s : KeySession δ) (t : Session δ) : Ending (KeySession δ) :=
  let query := Query.tableSql s.table.tableName
  let (prepared, t) := t.prepare c query
  if prepared then
    let (cursor, t) := t.step c query []
    match readSql cursor.rows, cursor.last with
    | none, _ => .stopped .undefined (s.withSession t)
    | some _, some err => .returned 1 (s.withSession (t.fail err))
    | some sql, none => rewriteSchema c call sql (s.withSession t)
  else .returned 1 (s.withSession t)

theorem applyForeignKey_eq (s : KeySession δ) : applyForeignKey c call s =
    if (openSchema c call.logOnly s.session).1 then readSchema c call s (openSchema c call.logOnly s.session).2
    else .returned 1 (s.withSession (openSchema c call.logOnly s.session).2) := by
  simp only [applyForeignKey]
  cases (openSchema c call.logOnly s.session).1 with
  | false => rfl
  | true => rfl

theorem readSchema_ends_iff (s : KeySession δ) {t : Session δ} {before : Standing} (hlog : call.logOnly = false)
    (hupdate : switch updateSchemaText = none) (hanalyze : switch analyze.text = none) (hbefore : before.active = false)
    (ht : t.standing switch = ⟨true, before.writable⟩) :
    (readSchema c call s t).state.session.standing switch = before ↔ KeyTransactionEnds c call s.table s.newFK t := by
  simp only [readSchema, KeyTransactionEnds]
  have hopen : ((t.prepare c (.tableSql s.table.tableName)).2.step c (.tableSql s.table.tableName) []).2.standing switch =
      ⟨true, before.writable⟩ := (t.standing_prepare c _).trans ht
  cases (t.prepare c (.tableSql s.table.tableName)).1 with
  | false =>
    apply iff_of_false
    · exact ne_of_active (hopen ▸ rfl) hbefore
    · exact fun h => Bool.false_ne_true h.1
  | true =>
    generalize (t.prepare c (.tableSql s.table.tableName)).2.step c (.tableSql s.table.tableName) [] = r at hopen ⊢
    obtain ⟨⟨rows, last⟩, u⟩ := r
    simp only [if_true]
    cases hread : readSql rows with
    | none =>
      apply iff_of_false
      · exact ne_of_active (hopen ▸ rfl) hbefore
      · rintro ⟨-, -, sql, written, hsql, -⟩
        exact absurd hsql (Option.some_ne_none sql).symm
    | some sql =>
      cases last with
      | some err =>
        apply iff_of_false
        · exact ne_of_active (hopen ▸ rfl) hbefore
        · exact fun h => absurd h.2.1 (Option.some_ne_none err)
      | none =>
        show (rewriteSchema c call sql (s.withSession u)).state.session.standing switch = before ↔ _
        rw [rewriteSchema_session]
        show (match rewritten call s.table s.newFK sql with | .error _ => u | .ok written => _).standing switch = before ↔ _
        cases hwritten : rewritten call s.table s.newFK sql with
        | error fault =>
          apply iff_of_false
          · exact ne_of_active (hopen ▸ rfl) hbefore
          · rintro ⟨-, -, sql', written, hsql, hok, -⟩
            obtain rfl : sql = sql' := Option.some.inj hsql
            exact absurd (hwritten.symm.trans hok) (by simp)
        | ok written =>
          simp only [hlog]
          have hends := storeSql_ends_iff (c := c) u written s.table.tableName hupdate hanalyze hbefore hopen
          refine hends.trans ⟨fun h => ⟨trivial, trivial, sql, written, rfl, hwritten, h⟩, ?_⟩
          rintro ⟨-, -, sql', written', hsql, hok, h⟩
          obtain rfl : sql = sql' := Option.some.inj hsql
          obtain rfl : written = written' := Except.ok.inj (hwritten.symm.trans hok)
          exact h

theorem readSchema_keeps {α : Type} (f : Standing → α) (s : KeySession δ) (t : Session δ)
    (h : call.logOnly = false → ∀ written u, f ((storeSql c written s.table.tableName u).2.standing switch) =
      f (u.standing switch)) :
    f ((readSchema c call s t).state.session.standing switch) = f (t.standing switch) := by
  have hread (query : Query) : ((t.prepare c query).2.step c query []).2.standing switch = t.standing switch :=
    t.standing_prepare c query
  simp only [readSchema]
  split_ifs
  · split
    · exact congrArg f (hread _)
    · exact congrArg f (hread _)
    · rw [← hread, rewriteSchema_session]
      split
      · rfl
      · cases hlog : call.logOnly with
        | true => rfl
        | false => exact h hlog _ _
  · exact congrArg f (t.standing_prepare c _)

theorem applyForeignKey_ends_iff (s : KeySession δ) (hon : switch writableSchema.text = some true)
    (hupdate : switch updateSchemaText = none) (hanalyze : switch analyze.text = none) (hs : s.session.active = false) :
    (applyForeignKey c call s).state.session.standing switch = s.session.standing switch ↔
      ApplyForeignKeyEnds switch c call s := by
  rw [← s.session.standing_active switch] at hs
  rw [applyForeignKey_eq, ApplyForeignKeyEnds, openSchema]
  cases hlog : call.logOnly with
  | true =>
    apply iff_of_true
    · exact readSchema_keeps id s s.session (fun h => absurd (hlog.symm.trans h) Bool.false_ne_true.symm)
    · exact fun h => absurd h Bool.false_ne_true.symm
  | false =>
    rw [if_neg Bool.false_ne_true]
    by_cases hset : (s.session.exec c writableSchema).1 = true
    · simp only [hset, if_true, true_implies]
      generalize hfirst : (s.session.exec c writableSchema).2 = t
      have ht : t.standing switch = ⟨false, true⟩ := by
        rw [← hfirst, s.session.standing_exec, if_pos hset, ← hs]
        show Standing.mk _ ((switch writableSchema.text).getD _) = _
        rw [hon]
        rfl
      by_cases hbegun : (t.exec c .begin).1 = true
      · simp only [hbegun, if_true, true_implies]
        have hopen : (t.exec c .begin).2.standing switch = _ := standing_begun t rfl hbegun
        rw [ht] at hopen
        by_cases hwritable : (s.session.standing switch).writable = true
        · rw [readSchema_ends_iff s hlog hupdate hanalyze hs (hwritable.symm ▸ hopen)]
          exact (and_iff_right hwritable).symm
        · apply iff_of_false
          · intro heq
            have hkept := readSchema_keeps (c := c) Standing.writable s (t.exec c .begin).2
              (fun (_ : call.logOnly = false) written u => storeSql_writable u written s.table.tableName hupdate hanalyze)
            rw [heq, hopen] at hkept
            exact hwritable hkept
          · exact fun h => hwritable h.1
      · have hrefused : (t.exec c .begin).2.standing switch = ⟨false, true⟩ := by
          rw [t.standing_exec, if_neg hbegun, ht]
        simp only [hbegun]
        show (t.exec c .begin).2.standing switch = _ ↔ _
        rw [hrefused]
        constructor
        · intro heq
          exact ⟨heq ▸ rfl, fun h => absurd h Bool.false_ne_true⟩
        · rintro ⟨hwritable, -⟩
          exact (congrArg₂ Standing.mk hs hwritable).symm
    · simp only [hset]
      refine iff_of_true ?_ (fun _ h => absurd h Bool.false_ne_true)
      exact (s.session.standing_exec c writableSchema).trans (if_neg hset)

end ForeignKeys

end DbHandler.Sqlite
