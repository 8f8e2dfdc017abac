import DbHandler.AlterTable.Failures
import DbHandler.MySQL.TableProperties
import DbHandler.Odbc.FieldProperties
import DbHandler.Odbc.TableProperties
import DbHandler.Postgres.FieldProperties
import DbHandler.Postgres.TableProperties
import DbHandler.Sqlite.TableProperties

namespace DbHandler.LogOnly

open Foundation Foundation.Journal Foundation.Encoding
open AlterTable (ForeignKeyCall Driver Refers)
open Sqlite.ForeignKeys (KeySession)

/-- The drivers of `SetTableProperties`, each with what it reads beside its arguments. Whether a MySQL server takes
`BEGIN TRANSACTION` is the server's matter. -/
inductive TableDriver
  | sqlite
  | postgres (connectedUser : Text)
  | mySQL (connectedUser : Text) (buffers : List Bytes) (beginsTransaction : Bool)
  | odbc (connectedUser : Text)

inductive Operation
  | applyForeignKey (d : Driver) (table : DatabaseTable) (newFK : List FKField) (c : ForeignKeyCall)
  | setTableProperties (d : TableDriver) (t : DatabaseTable) (p : TableProperties) (command : Text)
  | setFieldProperties (b : Backend) (key : ColumnKey) (props : FieldProperties) (command : Text)

structure Inert (before after : List (Entry Text)) (table table' : DatabaseTable) : Prop where
  journal : Quiet before after
  table : table' = table

/-- The properties of tables and columns are not kept in the table, which is not passed to be changed. -/
def ChangesNothing : Operation → Prop
  | .applyForeignKey .sqlite table newFK c => ∀ {δ : Type} (client : Sqlite.Client δ) (s : KeySession δ),
      s.table = table → s.newFK = newFK →
        let e := Sqlite.ForeignKeys.applyForeignKey client { c with logOnly := true } s
        Inert s.session.journal e.state.session.journal table e.state.table ∧ e.state.newFK = newFK
  | .applyForeignKey (.alter b) table newFK c => ∀ {δ : Type} (dbms : AlterTable.Dbms δ) (s : AlterTable.Session δ),
      s.table = table → s.newFK = newFK →
        let o := b.applyForeignKey dbms { c with logOnly := true } s
        o.state.executed = s.executed ∧ o.state.table = table ∧ o.state.newFK = newFK
  | .setTableProperties .sqlite t p command => ∀ {δ : Type} (c : Sqlite.Client δ) (s : Sqlite.Session δ),
      Quiet s.journal (Sqlite.setTableProperties c t p true command s).2.2.journal
  | .setTableProperties (.postgres user) t p command => ∀ {δ : Type} (c : Postgres.Client δ) (s : Postgres.Session δ),
      Quiet s.journal (Postgres.setTableProperties c user t p true command s).2.2.journal
  | .setTableProperties (.mySQL user buffers begins) t p command =>
      ∀ {δ : Type} (c : MySQL.Client δ) (s : MySQL.Session δ), (∀ d, (c.query d .beginTransaction).1.isNone = begins) →
        Quiet s.journal (MySQL.setTableProperties c user buffers t p true command s).2.2.journal
  | .setTableProperties (.odbc user) t p command => ∀ {δ : Type} (m : Odbc.Manager δ) (o : Odbc.Object δ),
      Quiet o.journal (Odbc.setTableProperties m user t p true command o).1.2.journal
  | .setFieldProperties .sqlite key props command => ∀ {δ : Type} (c : Sqlite.Client δ) (s : Sqlite.Session δ),
      Quiet s.journal (Sqlite.setFieldProperties c key props true command s).2.2.journal
  | .setFieldProperties .postgres key props _ => ∀ {δ : Type} (c : Postgres.Client δ) (s : Postgres.Session δ),
      Quiet s.journal (Postgres.setFieldProperties c key props true s).2.2.journal
  | .setFieldProperties .mySQL key props _ => ∀ {δ : Type} (c : MySQL.Client δ) (s : MySQL.Session δ),
      Quiet s.journal (MySQL.setFieldProperties c key props true s).2.2.journal
  | .setFieldProperties .odbc key props command => ∀ {δ : Type} (m : Odbc.Manager δ) (o : Odbc.Object δ),
      Quiet o.journal (Odbc.tolerantSetFieldProperties m key props true command o).1.2.journal

def HoldsWhen : Operation → Prop
  | .applyForeignKey .sqlite table _ c => c.isNew = true ∨ ¬ Refers c.refTableName table.foreignKeys
  | .setTableProperties (.mySQL _ _ begins) _ _ _ => begins = false
  | _ => True

section Sqlite

variable {δ : Type} (c : Sqlite.Client δ)

theorem quiet_report (answer : Option Text × δ) {entries : List (Entry Text)} (h : ∀ text, Entry.work text ∉ entries)
    (s : Sqlite.Session δ) : Quiet s.journal (s.report answer entries).2.journal := by
  rw [Sqlite.Session.report]
  cases answer.1 with
  | none => exact Quiet.append h
  | some err => exact Quiet.refl _

theorem quiet_exec {statement : Statement} (h : ∀ text, statement.entry ≠ .work text) (s : Sqlite.Session δ) :
    Quiet s.journal (s.exec c statement).2.journal := by
  rw [Sqlite.Session.exec]
  split_ifs
  · exact Quiet.refl _
  · exact quiet_report _ (by simpa [eq_comm] using h) s

theorem quiet_bindAll (query : Sqlite.Query) (values : List Text) (position : ℕ) (s : Sqlite.Session δ) :
    Quiet s.journal (Sqlite.bindAll c query position values s).2.journal := by
  induction values generalizing position s with
  | nil => exact Quiet.refl _
  | cons value values ih =>
    have hbound : Quiet s.journal (s.bindText c query position value).2.journal := quiet_report _ (by simp) s
    rw [Sqlite.bindAll]
    dsimp only
    split_ifs
    · exact hbound.trans (ih _ _)
    · exact hbound

theorem quiet_bound (query : Sqlite.Query) (values : List Text) (s : Sqlite.Session δ) :
    Quiet s.journal (if (s.prepare c query).1 then Sqlite.bindAll c query 1 values (s.prepare c query).2
      else (false, (s.prepare c query).2)).2.journal := by
  have hprepared : Quiet s.journal (s.prepare c query).2.journal := quiet_report _ (by simp) s
  split_ifs
  · exact hprepared.trans (quiet_bindAll c query values 1 _)
  · exact hprepared

theorem quiet_isFieldPropertiesExist (key : ColumnKey) (s : Sqlite.Session δ) :
    Quiet s.journal (Sqlite.isFieldPropertiesExist c key s).2.journal := by
  have hbound := quiet_bound c .fieldPropertiesExist (Sqlite.keyValues key) s
  rw [Sqlite.isFieldPropertiesExist]
  dsimp only
  generalize (if (s.prepare c .fieldPropertiesExist).1 then _ else _) = bound at hbound ⊢
  split_ifs <;> exact hbound

theorem quiet_isTablePropertiesExist (t : DatabaseTable) (s : Sqlite.Session δ) :
    Quiet s.journal (Sqlite.isTablePropertiesExist c t s).2.journal := by
  have hbound := quiet_bound c .tablePropertiesExist (Sqlite.tableKey t) s
  rw [Sqlite.isTablePropertiesExist]
  dsimp only
  generalize (if (s.prepare c .tablePropertiesExist).1 then _ else _) = bound at hbound ⊢
  split_ifs
  · split <;> exact hbound
  · exact hbound

theorem sqlite_setFieldProperties (key : ColumnKey) (props : FieldProperties) (command : Text) (s : Sqlite.Session δ) :
    Quiet s.journal (Sqlite.setFieldProperties c key props true command s).2.2.journal := by
  have hbegun : Quiet s.journal (s.exec c .begin).2.journal := quiet_exec c (by simp) s
  have hcommitted : ∀ u : Sqlite.Session δ, Quiet u.journal (u.exec c .commit).2.journal := quiet_exec c (by simp)
  rw [Sqlite.setFieldProperties]
  rcases hexec : s.exec c .begin with ⟨begun, t⟩
  rw [hexec] at hbegun
  cases begun with
  | false => exact hbegun
  | true => exact (hbegun.trans (quiet_isFieldPropertiesExist c key t)).trans (hcommitted _)

theorem sqlite_setTableProperties (t : DatabaseTable) (p : TableProperties) (command : Text) (s : Sqlite.Session δ) :
    Quiet s.journal (Sqlite.setTableProperties c t p true command s).2.2.journal := by
  have hbegun : Quiet s.journal (s.exec c .beginTransaction).2.journal := quiet_exec c (by simp) s
  have hended : ∀ (done : Bool) (u : Sqlite.Session δ),
      Quiet u.journal (u.exec c (if done then Sqlite.commitStatement else Sqlite.rollbackStatement)).2.journal :=
    fun done u => quiet_exec c (by cases done <;> simp) u
  rw [Sqlite.setTableProperties]
  rcases hexec : s.exec c .beginTransaction with ⟨begun, u⟩
  rw [hexec] at hbegun
  cases begun with
  | false => exact hbegun.trans (hended false u)
  | true =>
    have hexist := hbegun.trans (quiet_isTablePropertiesExist c t u)
    rcases hresult : Sqlite.isTablePropertiesExist c t u with ⟨exist, v⟩
    rw [hresult] at hexist
    dsimp only
    rw [if_pos rfl, hresult]
    dsimp only
    by_cases herror : v.errorMsg ≠ []
    · rw [if_pos herror]
      exact hexist.trans (hended false v)
    · rw [if_neg herror]
      exact hexist.trans (hended true v)

end Sqlite

section Postgres

variable {δ : Type} (c : Postgres.Client δ)

theorem postgres_exec {statement : Statement} (h : ∀ text, statement.entry ≠ .work text) (s : Postgres.Session δ) :
    Quiet s.journal (s.exec c statement).2.journal := by
  rw [Postgres.Session.exec]
  dsimp only
  split_ifs
  · exact Quiet.append (by simpa [eq_comm] using h)
  · exact Quiet.refl _

theorem postgres_exist (t : DatabaseTable) (s : Postgres.Session δ) :
    Quiet s.journal (Postgres.isTablePropertiesExist c t s).2.journal := by
  rw [Postgres.isTablePropertiesExist]
  dsimp only
  split <;> exact Quiet.refl _

theorem postgres_setTableProperties (user : Text) (t : DatabaseTable) (p : TableProperties) (command : Text)
    (s : Postgres.Session δ) : Quiet s.journal (Postgres.setTableProperties c user t p true command s).2.2.journal := by
  have hbegun : Quiet s.journal (s.exec c .beginTransaction).2.journal := postgres_exec c (by simp) s
  have hended : ∀ (done : Bool) (command : Text) (u : Postgres.Session δ), Quiet u.journal
      (if (u.exec c (if done then .commit else .rollback)).1 = Postgres.Status.commandOk then
        (if done then 0 else 1, command, (u.exec c (if done then .commit else .rollback)).2)
      else (1, command, (u.exec c (if done then .commit else .rollback)).2.fail
        (u.exec c (if done then .commit else .rollback)).1.message)).2.2.journal := by
    intro done command u
    have hexec : Quiet u.journal (u.exec c (if done then .commit else .rollback)).2.journal :=
      postgres_exec c (by cases done <;> simp) u
    rcases hresult : u.exec c (if done then .commit else .rollback) with ⟨ended, v⟩
    rw [hresult] at hexec
    dsimp only
    by_cases hok : ended = .commandOk
    · rw [if_pos hok]
      exact hexec
    · rw [if_neg hok]
      exact hexec
  rw [Postgres.setTableProperties]
  rcases hexec : s.exec c .beginTransaction with ⟨begun, u⟩
  rw [hexec] at hbegun
  dsimp only
  by_cases hok : begun = .commandOk
  · have hexist := hbegun.trans (postgres_exist c t u)
    rcases hresult : Postgres.isTablePropertiesExist c t u with ⟨exist, v⟩
    rw [hresult] at hexist
    rw [if_pos hok]
    dsimp only
    by_cases herror : v.errorMsg ≠ []
    · rw [if_pos herror]
      exact hexist.trans (hended false command v)
    · rw [if_neg herror]
      exact hexist.trans (hended true _ v)
  · rw [if_neg hok]
    exact hbegun.trans (hended false command (u.fail begun.message))

theorem postgres_setFieldProperties (key : ColumnKey) (props : FieldProperties) (s : Postgres.Session δ) :
    Quiet s.journal (Postgres.setFieldProperties c key props true s).2.2.journal := by
  have hexist : Quiet s.journal (Postgres.isFieldPropertiesExist c key s).2.journal := by
    rw [Postgres.isFieldPropertiesExist]
    dsimp only
    split_ifs <;> exact Quiet.refl _
  exact hexist

end Postgres

section MySQL

variable {δ : Type} (c : MySQL.Client δ)

theorem mySQL_report (answer : Option Text × δ) {entries : List (Entry Text)} (h : ∀ text, Entry.work text ∉ entries)
    (s : MySQL.Session δ) : Quiet s.journal (s.report answer entries).2.journal := by
  rw [MySQL.Session.report]
  cases answer.1 with
  | none => exact Quiet.append h
  | some err => exact Quiet.refl _

theorem mySQL_executeQuery (query : MySQL.Query) (values : List Bytes) (s : MySQL.Session δ) :
    Quiet s.journal (MySQL.executeQuery c query values s).2.journal := by
  have hreport : ∀ (answer : Option Text × δ) (u : MySQL.Session δ), Quiet u.journal (u.report answer []).2.journal :=
    fun answer u => mySQL_report answer (by simp) u
  rw [MySQL.executeQuery]
  have hprepared := hreport (c.stmtPrepare s.server query) s
  rcases hu : s.report (c.stmtPrepare s.server query) [] with ⟨prepared, u⟩
  rw [hu] at hprepared
  cases prepared with
  | false => exact hprepared
  | true =>
    have hbound := hprepared.trans (hreport (c.bindParam u.server query values) u)
    dsimp only
    rw [if_pos rfl]
    rcases hv : u.report (c.bindParam u.server query values) [] with ⟨bound, v⟩
    rw [hv] at hbound
    cases bound with
    | false => exact hbound
    | true => exact hbound.trans (hreport _ v)

theorem mySQL_setFieldProperties (key : ColumnKey) (props : FieldProperties) (s : MySQL.Session δ) :
    Quiet s.journal (MySQL.setFieldProperties c key props true s).2.2.journal := by
  have hinitialised : Quiet s.journal (s.report (c.stmtInit s.server) []).2.journal := mySQL_report _ (by simp) s
  have hexist : Quiet s.journal (MySQL.isFieldPropertiesExist c key s).2.journal := by
    rw [MySQL.isFieldPropertiesExist]
    dsimp only
    split_ifs
    · exact hinitialised.trans (mySQL_executeQuery c _ _ _)
    · exact hinitialised
  exact hexist

theorem mySQL_setTableProperties (user : Text) (buffers : List Bytes) (t : DatabaseTable) (p : TableProperties)
    (command : Text) (s : MySQL.Session δ) (h : ∀ d, (c.query d .beginTransaction).1.isNone = false) :
    Quiet s.journal (MySQL.setTableProperties c user buffers t p true command s).2.2.journal := by
  obtain ⟨err, herr⟩ : ∃ err, (c.query s.server .beginTransaction).1 = some err := by
    have hbegin := h s.server
    cases hanswer : (c.query s.server .beginTransaction).1 with
    | none => simp [hanswer] at hbegin
    | some err => exact ⟨err, rfl⟩
  rw [MySQL.setTableProperties, MySQL.Session.report, herr]
  exact Quiet.refl _

end MySQL

section Odbc

open Foundation.Tolerance Odbc.Tolerant

variable {δ : Type} (m : Odbc.Manager δ)

abbrev QuietSteps {α : Type} (x : Odbc.Tolerant δ α) : Prop := Keeps (fun o o' : Odbc.Object δ => Quiet o.journal o'.journal) x

theorem QuietSteps.bind {α β : Type} {x : Odbc.Tolerant δ α} {f : α → Odbc.Tolerant δ β} (hx : QuietSteps x)
    (hf : ∀ a, QuietSteps (f a)) : QuietSteps (x >>= f) := Keeps.bind (fun h h' => h.trans h') hx hf

theorem QuietSteps.pure {α : Type} (a : α) : QuietSteps (pure a : Odbc.Tolerant δ α) := Keeps.pure (fun o => Quiet.refl o.journal) a

theorem quietSteps_alloc : QuietSteps (alloc m) := fun o => Quiet.refl o.journal

theorem quietSteps_use (r : Odbc.Request) : QuietSteps (use m r) := by
  refine Keeps.tolerate (fun o => Quiet.refl o.journal) fun o ret o' h => ?_
  rw [Odbc.Object.useStatement] at h
  obtain ⟨_, -, h⟩ := Faults.bind_ok h
  obtain ⟨-, rfl⟩ := Prod.mk.inj (Except.ok.inj h)
  exact Quiet.refl _

theorem quietSteps_free : QuietSteps (free m) := by
  refine Keeps.tolerate (fun o => Quiet.refl o.journal) fun o ret o' h => ?_
  rw [Odbc.Object.freeStatement] at h
  cases hhandle : o.hstmt with
  | null => simp [hhandle] at h
  | freed => simp [hhandle] at h
  | live =>
    rw [hhandle] at h
    obtain ⟨-, rfl⟩ := Prod.mk.inj (Except.ok.inj h)
    exact Quiet.refl _

theorem quietSteps_statementError : QuietSteps (statementError m) := by
  refine Keeps.tolerate (fun o => Quiet.refl o.journal) fun o _ o' h => ?_
  rw [Odbc.Object.statementError] at h
  cases hstatement : o.statement with
  | error fault =>
    rw [hstatement] at h
    cases h
  | ok _ =>
    rw [hstatement] at h
    obtain ⟨-, rfl⟩ := Prod.mk.inj (Except.ok.inj h)
    exact Quiet.refl _

theorem quietSteps_exec {statement : Statement} (hwork : ∀ text, statement.entry ≠ .work text) :
    QuietSteps (exec m statement) := by
  refine Keeps.tolerate (fun o => Quiet.refl o.journal) fun o ret o' h => ?_
  rw [Odbc.Object.execDirect] at h
  obtain ⟨r, hr, h⟩ := Faults.bind_ok h
  obtain ⟨-, rfl⟩ := Prod.mk.inj (Except.ok.inj h)
  rw [Odbc.Object.useStatement] at hr
  obtain ⟨_, -, hr⟩ := Faults.bind_ok hr
  obtain rfl := Except.ok.inj hr
  dsimp only
  split_ifs
  · exact Quiet.append (by simpa [eq_comm] using hwork)
  · exact Quiet.refl _

theorem quietSteps_clear : QuietSteps (clear : Odbc.Tolerant δ Unit) := fun o => Quiet.refl o.journal

theorem quietSteps_checked {α : Type} (ret : Odbc.Ret) (ok failed : α) : QuietSteps (checked m ret ok failed) :=
  Keeps.ite (fun _ => QuietSteps.pure ok) fun _ => (quietSteps_statementError m).bind fun _ => QuietSteps.pure failed

theorem quietSteps_fetchRow : QuietSteps (fetchRow m) :=
  (quietSteps_use m .fetch).bind fun fetched =>
    Keeps.ite (fun _ => QuietSteps.pure false) fun _ => quietSteps_checked m fetched true false

theorem quietSteps_requests (rs : List Odbc.Request) : QuietSteps (requests m rs) := by
  induction rs with
  | nil => exact QuietSteps.pure true
  | cons r rs ih =>
    exact (quietSteps_use m r).bind fun ret => Keeps.ite (fun _ => ih) fun _ => quietSteps_checked m ret true false

theorem quietSteps_tolerantRequests (rs : List Odbc.Request) : QuietSteps (Odbc.tolerantRequests m rs) := by
  induction rs with
  | nil => exact QuietSteps.pure true
  | cons r rs ih => exact (quietSteps_use m r).bind fun _ => Keeps.ite (fun _ => ih) fun _ => QuietSteps.pure false

theorem quietSteps_testProperties (t : DatabaseTable) : QuietSteps (Odbc.testProperties m t) := by
  refine (quietSteps_requests m _).bind fun _ => Keeps.ite (fun _ => ?_) fun _ => QuietSteps.pure false
  refine (quietSteps_use m .execute).bind fun executed => Keeps.ite (fun _ => quietSteps_fetchRow m) fun _ => ?_
  exact Keeps.ite (fun _ => QuietSteps.pure false) fun _ => quietSteps_checked m executed true false

theorem quietSteps_isTablePropertiesExist (t : DatabaseTable) : QuietSteps (Odbc.isTablePropertiesExist m t) := by
  refine (quietSteps_alloc m).bind fun allocated => QuietSteps.bind ?_ fun result => ?_
  · exact Keeps.ite (fun _ => quietSteps_testProperties m t) fun _ => quietSteps_checked m allocated true false
  · refine (quietSteps_free m).bind fun freed => (quietSteps_checked m freed () ()).bind fun _ => ?_
    exact quietSteps_clear.bind fun _ => QuietSteps.pure result

theorem quietSteps_endTransaction (result : ℕ) : QuietSteps (Odbc.endTransaction m result) := by
  have hentry : ∀ text, (if result = 1 then Statement.rollback else .commit).entry ≠ .work text := by
    intro text
    split_ifs <;> simp
  refine (quietSteps_exec m hentry).bind fun ended => (quietSteps_checked m ended result 1).bind fun result => ?_
  refine (quietSteps_free m).bind fun freed => Keeps.ite (fun _ => ?_) fun _ => quietSteps_checked m freed result 1
  exact quietSteps_clear.bind fun _ => QuietSteps.pure result

theorem quietSteps_sendProperties (user : Text) (t : DatabaseTable) (p : TableProperties) (command : Text) :
    QuietSteps (Odbc.sendProperties m user t p true command) := by
  refine (quietSteps_isTablePropertiesExist m t).bind fun exist => ?_
  refine QuietSteps.bind (fun o => Quiet.refl o.journal) fun o => ?_
  exact Keeps.ite (fun _ => QuietSteps.pure (1, command)) fun _ => QuietSteps.pure _

theorem odbc_setTableProperties (user : Text) (t : DatabaseTable) (p : TableProperties) (command : Text) :
    QuietSteps (Odbc.setTableProperties m user t p true command) := by
  have hbegin : ∀ text, Statement.beginTransaction.entry ≠ .work text := by simp
  refine (quietSteps_alloc m).bind fun allocated => QuietSteps.bind ?_ fun r => ?_
  · refine Keeps.ite (fun _ => ?_) fun _ => ?_
    · refine (quietSteps_exec m hbegin).bind fun begun => Keeps.ite (fun _ => ?_) fun _ => quietSteps_checked m begun _ _
      refine (quietSteps_free m).bind fun freed => Keeps.ite (fun _ => ?_) fun _ => quietSteps_checked m freed _ _
      exact quietSteps_sendProperties m user t p command
    · exact QuietSteps.bind (fun o => Quiet.refl o.journal) fun _ => QuietSteps.pure (1, command)
  · exact (quietSteps_endTransaction m r.1).bind fun result => QuietSteps.pure (result, r.2)

theorem quietSteps_tolerantExist (key : ColumnKey) : QuietSteps (Odbc.tolerantExist m key) := by
  refine (quietSteps_alloc m).bind fun allocated => Keeps.ite (fun _ => ?_) fun _ => QuietSteps.pure false
  refine (quietSteps_tolerantRequests m _).bind fun executed => QuietSteps.bind ?_ fun exist => ?_
  · exact Keeps.ite (fun _ => quietSteps_fetchRow m) fun _ => QuietSteps.pure false
  · exact (quietSteps_free m).bind fun _ => quietSteps_clear.bind fun _ => QuietSteps.pure exist

theorem odbc_setFieldProperties (key : ColumnKey) (props : FieldProperties) (command : Text) :
    QuietSteps (Odbc.tolerantSetFieldProperties m key props true command) := by
  refine (quietSteps_alloc m).bind fun allocated => Keeps.ite (fun _ => ?_) fun _ => ?_
  · refine (quietSteps_tolerantExist m key).bind fun exist => (QuietSteps.pure 0).bind fun result => ?_
    refine (quietSteps_free m).bind fun freed => (quietSteps_checked m freed result 1).bind fun result => ?_
    exact quietSteps_clear.bind fun _ => QuietSteps.pure _
  · exact (quietSteps_statementError m).bind fun _ => QuietSteps.pure (1, command)

end Odbc

section ForeignKeys

open AlterTable Sqlite.ForeignKeys

variable {δ : Type} {c : ForeignKeyCall}

theorem writeSchema_log (client : Sqlite.Client δ) (hlog : c.logOnly = true) (sql : Text) (s : KeySession δ) :
    (writeSchema client c sql s).state.session = s.session ∧ (writeSchema client c sql s).state.table = s.table ∧
      (writeSchema client c sql s).state.newFK = s.newFK := by
  rw [writeSchema]
  cases addClause c s.newFK sql with
  | error fault => exact ⟨rfl, rfl, rfl⟩
  | ok sql =>
    dsimp only
    rw [if_pos hlog]
    exact ⟨rfl, rfl, rfl⟩

theorem rewriteSchema_log (client : Sqlite.Client δ) (hlog : c.logOnly = true) (sql : Text) (s : KeySession δ)
    (h : c.isNew = true ∨ ¬ Refers c.refTableName s.table.foreignKeys) :
    (rewriteSchema client c sql s).state.session = s.session ∧ (rewriteSchema client c sql s).state.table = s.table ∧
      (rewriteSchema client c sql s).state.newFK = s.newFK := by
  rw [rewriteSchema]
  split_ifs with hnew
  · exact writeSchema_log client hlog sql s
  · have hkept : eraseReferences c.refTableName s.table.foreignKeys = s.table.foreignKeys :=
      (eraseReferences_eq_self_iff _).mpr (h.resolve_left hnew)
    rw [dropForeignKey]
    cases rewriteSql s.table.foreignKeys.size c.refTableName sql with
    | error fault => exact ⟨rfl, rfl, rfl⟩
    | ok newSQL =>
      have hwritten := writeSchema_log client hlog newSQL (s.setForeignKeys s.table.foreignKeys)
      change (writeSchema client c newSQL (s.setForeignKeys (eraseReferences c.refTableName s.table.foreignKeys))).state.session
        = _ ∧ _
      rw [hkept]
      exact hwritten

theorem fullDisk_log (table : DatabaseTable) (newFK : List FKField) (hnew : c.isNew = false) (hlog : c.logOnly = true) :
    (Sqlite.ForeignKeys.applyForeignKey fullDisk c (openedSession table newFK)).state.table.foreignKeys =
      eraseReferences c.refTableName table.foreignKeys := by
  have hread : Sqlite.ForeignKeys.applyForeignKey fullDisk c (openedSession table newFK) =
      rewriteSchema fullDisk c "t(a)".toList (openedSession table newFK) := by
    rw [Sqlite.ForeignKeys.applyForeignKey, hlog]
    rfl
  have hdrop : dropForeignKey c.refTableName "t(a)".toList (openedSession table newFK).table.foreignKeys =
      .ok ("t(a))".toList, eraseReferences c.refTableName table.foreignKeys) := by
    rw [dropForeignKey, rewriteSql_small]
    rfl
  rw [hread, rewriteSchema, if_neg (by simp [hnew]), hdrop]
  exact congrArg DatabaseTable.foreignKeys (writeSchema_log fullDisk hlog _ _).2.1

theorem sqlite_applyForeignKey_iff (table : DatabaseTable) (newFK : List FKField) (c : ForeignKeyCall) :
    ChangesNothing (.applyForeignKey .sqlite table newFK c) ↔ HoldsWhen (.applyForeignKey .sqlite table newFK c) := by
  constructor
  · intro h
    by_contra hn
    obtain ⟨hnew, hrefers⟩ : c.isNew = false ∧ Refers c.refTableName table.foreignKeys := by
      simpa [HoldsWhen, not_or] using hn
    have hsame := (h fullDisk (openedSession table newFK) rfl rfl).1.table
    have herased := fullDisk_log table newFK (c := { c with logOnly := true }) hnew rfl
    rw [hsame] at herased
    exact (eraseReferences_eq_self_iff _).mp herased.symm hrefers
  · intro h δ client s htable hnewFK
    obtain ⟨u, hjournal, hu⟩ := sqlite_cases client { c with logOnly := true } s
    have hquiet : Quiet s.session.journal u.journal := Quiet.of_eq (hjournal rfl)
    have hcondition : c.isNew = true ∨ ¬ Refers c.refTableName (s.withSession u).table.foreignKeys := htable ▸ h
    rcases hu with hu | hu | ⟨sql, hu⟩
    · dsimp only
      rw [hu]
      exact ⟨⟨hquiet, htable⟩, hnewFK⟩
    · dsimp only
      rw [hu]
      exact ⟨⟨hquiet, htable⟩, hnewFK⟩
    · have hlog : ({ c with logOnly := true } : ForeignKeyCall).logOnly = true := rfl
      obtain ⟨hsession, hsame, hfields⟩ := rewriteSchema_log client hlog sql (s.withSession u) hcondition
      dsimp only
      rw [hu, hsession, hsame, hfields]
      exact ⟨⟨hquiet, htable⟩, hnewFK⟩

theorem alter_applyForeignKey (b : AlterTable.Backend) (table : DatabaseTable) (newFK : List FKField) (c : ForeignKeyCall) :
    ChangesNothing (.applyForeignKey (.alter b) table newFK c) := by
  intro δ dbms s htable hnewFK
  have hlog := applyForeignKey_logOnly b dbms (c := { c with logOnly := true }) rfl s
  dsimp only
  rw [hlog]
  split_ifs <;> exact ⟨rfl, htable, hnewFK⟩

end ForeignKeys

def tolerantMySQL : MySQL.Client Unit where
  query _ _ := (none, ())
  stmtInit _ := (none, ())
  stmtPrepare _ _ := (none, ())
  bindParam _ _ _ := (none, ())
  execute _ _ _ := (none, ())
  fetch _ _ _ := (false, ())
  storeResult _ := (none, ())
  stmtClose _ := (none, ())

theorem mySQL_sends_logged (user : Text) (buffers : List Bytes) (t : DatabaseTable) (p : TableProperties) (command : Text) :
    (MySQL.setTableProperties tolerantMySQL user buffers t p true command ⟨(), [], []⟩).2.2.journal =
      [.start, .work (PropertyStatements.MySQL.insert user t p)] := rfl

theorem changesNothing_iff (o : Operation) : ChangesNothing o ↔ HoldsWhen o := by
  cases o with
  | applyForeignKey d table newFK c =>
    cases d with
    | sqlite => exact sqlite_applyForeignKey_iff table newFK c
    | alter b => exact iff_of_true (alter_applyForeignKey b table newFK c) trivial
  | setTableProperties d t p command =>
    cases d with
    | sqlite => exact iff_of_true (fun c s => sqlite_setTableProperties c t p command s) trivial
    | postgres user => exact iff_of_true (fun c s => postgres_setTableProperties c user t p command s) trivial
    | odbc user => exact iff_of_true (fun m o => odbc_setTableProperties m user t p command o) trivial
    | mySQL user buffers begins =>
      cases begins with
      | false => exact iff_of_true (fun c s h => mySQL_setTableProperties c user buffers t p command s h) rfl
      | true =>
        refine iff_of_false (fun h => ?_) Bool.true_eq_false.mp
        obtain ⟨rest, hrest, hquiet⟩ := h tolerantMySQL ⟨(), [], []⟩ fun _ => rfl
        rw [mySQL_sends_logged, List.nil_append] at hrest
        exact hquiet _ (hrest ▸ List.mem_cons_of_mem _ List.mem_cons_self)
  | setFieldProperties b key props command =>
    cases b with
    | sqlite => exact iff_of_true (fun c s => sqlite_setFieldProperties c key props command s) trivial
    | postgres => exact iff_of_true (fun c s => postgres_setFieldProperties c key props s) trivial
    | mySQL => exact iff_of_true (fun c s => mySQL_setFieldProperties c key props s) trivial
    | odbc => exact iff_of_true (fun m o => odbc_setFieldProperties m key props command o) trivial

theorem sqlite_logged_drop_changes_map :
    ¬ ChangesNothing (.applyForeignKey .sqlite AlterTable.ordersSession.table [] (AlterTable.ordersCall false)) := by
  rw [sqlite_applyForeignKey_iff]
  rintro (hnew | hrefers)
  · exact Bool.false_ne_true hnew
  · exact hrefers ⟨AlterTable.ordersField, List.mem_singleton.mpr rfl, rfl⟩

end DbHandler.LogOnly
