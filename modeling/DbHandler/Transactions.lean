import DbHandler.Foundation.Runs
import DbHandler.Indexes.CreateIfAbsent
import DbHandler.Sqlite.Transactions

namespace DbHandler.Transactions

open Foundation.Journal Foundation.Runs
open AlterTable (ForeignKeyCall)
open Sqlite (Switch CreateIndexEnds SetFieldPropertiesEnds ApplyForeignKeyEnds)

inductive Operation
  | sqliteCreateIndex (command indexName tableName : Text)
  | applyForeignKey (call : ForeignKeyCall) (table : DatabaseTable) (command : Text) (newFK : List FKField)
  | setFieldProperties (key : ColumnKey) (props : FieldProperties) (isLogOnly : Bool) (command : Text)
  | postgresCreateIndex (command indexName schemaName tableName : Text)

structure Call where
  operation : Operation
  errorMsg : List Text

structure Connections (δ ε : Type) where
  sqlite : Sqlite.Session δ
  postgres : Postgres.Session ε

variable {δ ε : Type} (switch : Switch) (c : Sqlite.Client δ) (p : Postgres.Client ε)

/-- A call that is stopped by a fault leaves the connection as it was then. -/
def callSqlite (operation : Operation) (s : Sqlite.Session δ) : Sqlite.Session δ :=
  match operation with
  | .sqliteCreateIndex command indexName tableName => (Sqlite.createIndex c command indexName tableName s).2
  | .applyForeignKey call table command newFK =>
    (Sqlite.ForeignKeys.applyForeignKey c call ⟨s, table, command, newFK⟩).state.session
  | .setFieldProperties key props isLogOnly command => (Sqlite.setFieldProperties c key props isLogOnly command s).2.2
  | .postgresCreateIndex .. => s

def callPostgres (operation : Operation) (s : Postgres.Session ε) : Postgres.Session ε :=
  match operation with
  | .postgresCreateIndex command indexName schemaName tableName =>
    (Postgres.createIndex p command indexName schemaName tableName s).2
  | _ => s

def step (s : Connections δ ε) (call : Call) : Option (Connections δ ε) :=
  some ⟨callSqlite c call.operation { s.sqlite with errorMsg := call.errorMsg },
    callPostgres p call.operation { s.postgres with errorMsg := call.errorMsg }⟩

/-- No transaction is open, so that the next `BEGIN` is not refused for one. -/
structure Idle (s : Connections δ ε) : Prop where
  sqlite : s.sqlite.active = false
  postgres : s.postgres.active = false

structure Ends (s t : Connections δ ε) : Prop where
  idle : Idle t
  writableSchema : (t.sqlite.standing switch).writable = (s.sqlite.standing switch).writable

def PostgresIndexEnds (command indexName schemaName tableName : Text) (s : Postgres.Session ε) : Prop :=
  let (begun, t) := s.exec p .beginTransaction
  begun.isOk = true →
    let (found, t) := Postgres.isIndexExists p indexName schemaName tableName t
    found = false ∧ t.errorMsg = [] ∧
      let (status, t) := t.exec p (.command command)
      let (result, t) := if Postgres.accepted begun status then (0, t) else (1, t.fail status.message)
      (t.exec p (if result = 1 then .rollback else .commit)).1.isOk = true

def EndsWhen (s : Connections δ ε) (call : Call) : Prop :=
  match call.operation with
  | .sqliteCreateIndex command indexName tableName =>
    CreateIndexEnds switch c command indexName tableName { s.sqlite with errorMsg := call.errorMsg }
  | .applyForeignKey fkCall table command newFK =>
    ApplyForeignKeyEnds switch c fkCall ⟨{ s.sqlite with errorMsg := call.errorMsg }, table, command, newFK⟩
  | .setFieldProperties key props isLogOnly _ =>
    SetFieldPropertiesEnds switch c key props isLogOnly { s.sqlite with errorMsg := call.errorMsg }
  | .postgresCreateIndex command indexName schemaName tableName =>
    PostgresIndexEnds p command indexName schemaName tableName { s.postgres with errorMsg := call.errorMsg }

section Postgres

variable {p} (s : Postgres.Session ε)

theorem active_exec (statement : Statement) : (s.exec p statement).2.active =
    if (s.exec p statement).1.isOk then ((replay .idle s.journal).apply statement.entry).active else s.active := by
  by_cases hok : (s.exec p statement).1.isOk = true
  · have hjournal : (s.exec p statement).2.journal = s.journal ++ [statement.entry] := if_pos hok
    rw [if_pos hok, Postgres.Session.active, hjournal, replay_append]
    rfl
  · have hjournal : (s.exec p statement).2.journal = s.journal := if_neg hok
    rw [if_neg hok, Postgres.Session.active, hjournal]
    rfl

theorem active_isIndexExists (indexName schemaName tableName : Text) :
    (Postgres.isIndexExists p indexName schemaName tableName s).2.active = s.active := by
  simp only [Postgres.isIndexExists]
  split <;> rfl

theorem active_command (command : Text) : (s.exec p (.command command)).2.active = s.active := by
  rw [active_exec]
  show (if _ then ((replay .idle s.journal).apply (.work command)).active else _) = _
  rw [apply_work_active]
  exact ite_self _

theorem active_end (result : ℕ) (hs : s.active = true) :
    (s.exec p (if result = 1 then .rollback else .commit)).2.active = false ↔
      (s.exec p (if result = 1 then .rollback else .commit)).1.isOk = true := by
  rw [active_exec, hs]
  cases (s.exec p (if result = 1 then .rollback else .commit)).1.isOk with
  | false => exact iff_of_false Bool.false_ne_true.symm Bool.false_ne_true
  | true =>
    refine iff_of_true ?_ rfl
    by_cases hresult : result = 1
    · rw [if_pos rfl, if_pos hresult]
      rfl
    · rw [if_pos rfl, if_neg hresult]
      rfl

theorem postgres_ends_iff (command indexName schemaName tableName : Text) (hs : s.active = false) :
    (Postgres.createIndex p command indexName schemaName tableName s).2.active = false ↔
      PostgresIndexEnds p command indexName schemaName tableName s := by
  simp only [Postgres.createIndex, PostgresIndexEnds]
  by_cases hbegun : (s.exec p .beginTransaction).1.isOk = true
  · have hopen := active_isIndexExists (p := p) (s.exec p .beginTransaction).2 indexName schemaName tableName
    rw [active_exec, if_pos hbegun] at hopen
    simp only [hbegun, if_true, true_implies]
    generalize Postgres.isIndexExists p indexName schemaName tableName (s.exec p .beginTransaction).2 = r at hopen ⊢
    obtain ⟨found, t⟩ := r
    have hopen : t.active = true := hopen
    by_cases hfound : found = true
    · rw [if_pos hfound]
      apply iff_of_false
      · exact fun h => Bool.false_ne_true (h.symm.trans hopen)
      · exact fun h => Bool.false_ne_true (h.1.symm.trans hfound)
    · rw [if_neg hfound]
      by_cases hmsg : t.errorMsg = []
      · rw [if_neg (not_not.mpr hmsg)]
        have hactive := (active_command (p := p) t command).trans hopen
        have hkept (begun status : Postgres.Status) (result : ℕ) (u : Postgres.Session ε) :
            (if Postgres.accepted begun status then (result, u) else (1, u.fail status.message)).2.active = u.active := by
          split_ifs <;> rfl
        refine Iff.trans ?_ ⟨fun h => ⟨Bool.eq_false_iff.mpr hfound, hmsg, h⟩, fun h => h.2.2⟩
        rw [hkept]
        exact active_end _ _ ((hkept _ _ 0 _).trans hactive)
      · rw [if_pos hmsg]
        apply iff_of_false
        · exact fun h => Bool.false_ne_true (h.symm.trans hopen)
        · exact fun h => hmsg h.2.1
  · rw [if_neg hbegun]
    refine iff_of_true ?_ (fun h => absurd h hbegun)
    exact ((active_exec s _).trans (if_neg hbegun)).trans hs

end Postgres

section Runs

variable {switch c p}

theorem standing_eq_iff {u v : Sqlite.Session δ} (hu : u.active = false) : v.standing switch = u.standing switch ↔
    v.active = false ∧ (v.standing switch).writable = (u.standing switch).writable := by
  rw [← u.standing_active switch] at hu
  rw [← v.standing_active switch, ← hu]
  exact Sqlite.Standing.ext_iff

theorem ends_iff_sqlite {s t : Connections δ ε} (hs : Idle s) (hpostgres : t.postgres.active = s.postgres.active) :
    Ends switch s t ↔ t.sqlite.standing switch = s.sqlite.standing switch := by
  rw [standing_eq_iff hs.sqlite]
  constructor
  · rintro ⟨⟨hactive, -⟩, hwritable⟩
    exact ⟨hactive, hwritable⟩
  · rintro ⟨hactive, hwritable⟩
    exact ⟨⟨hactive, hpostgres.trans hs.postgres⟩, hwritable⟩

theorem ends_decided (hon : switch Sqlite.ForeignKeys.writableSchema.text = some true)
    (hupdate : switch Sqlite.ForeignKeys.updateSchemaText = none)
    (hanalyze : switch Sqlite.ForeignKeys.analyze.text = none) (s : Connections δ ε) (call : Call) (t : Connections δ ε)
    (hs : Idle s) (hstep : step c p s call = some t) : Ends switch s t ↔ EndsWhen switch c p s call := by
  obtain rfl := Option.some.inj hstep
  obtain ⟨operation, errorMsg⟩ := call
  cases operation with
  | sqliteCreateIndex command indexName tableName =>
    refine Iff.trans (ends_iff_sqlite hs ?_) ?_
    · rfl
    · exact Sqlite.createIndex_ends_iff _ command indexName tableName hs.sqlite
  | applyForeignKey call table command newFK =>
    refine Iff.trans (ends_iff_sqlite hs ?_) ?_
    · rfl
    · exact Sqlite.applyForeignKey_ends_iff _ hon hupdate hanalyze hs.sqlite
  | setFieldProperties key props isLogOnly command =>
    refine Iff.trans (ends_iff_sqlite hs ?_) ?_
    · rfl
    · exact Sqlite.setFieldProperties_ends_iff _ key props isLogOnly command hs.sqlite
  | postgresCreateIndex command indexName schemaName tableName =>
    refine Iff.trans ?_ (postgres_ends_iff _ command indexName schemaName tableName hs.postgres)
    exact ⟨fun h => h.idle.postgres, fun h => ⟨⟨hs.sqlite, h⟩, rfl⟩⟩

end Runs

section Shop

def shopSwitch : Switch := fun text => if text = Sqlite.ForeignKeys.writableSchema.text then some true else none

def emptyCatalog : Indexes.Catalog where
  indexes := []
  same a b := a = b
  same_refl := Indexes.sameBytes_refl

def opened : Connections Unit Unit := ⟨⟨(), [], []⟩, ⟨(), [], []⟩⟩

def numberIndex : Call where
  operation := .sqliteCreateIndex "CREATE INDEX number_idx ON invoice(number)".toList "number_idx".toList "invoice".toList
  errorMsg := []

def locked : Text := "database is locked".toList

def lockedClient : Sqlite.Client Unit where
  exec _ _ := (none, ())
  prepare _ query := (match query with | .indexList _ => some locked | _ => none, ())
  bindText _ _ _ _ := (none, ())
  step _ _ _ := (⟨[], none⟩, ())

end Shop

end DbHandler.Transactions
