import DbHandler.AlterTable.Contract
import DbHandler.AlterTable.KeyMap
import DbHandler.Sqlite.ForeignKeys

namespace DbHandler.AlterTable

open Foundation Foundation.Journal
open Sqlite.ForeignKeys (KeySession addClause dropForeignKey eraseReferences openSchema rewriteSchema rewriteSql writeSchema)

inductive Driver
  | sqlite
  | alter (b : Backend)

def Named (keyName : Text) (m : ForeignKeyMap) : Prop := ∃ field ∈ m.values.flatten, field.fkName = keyName

def Refers (refTableName : Text) (m : ForeignKeyMap) : Prop := ∃ field ∈ m.values.flatten, field.refTable = refTableName

section Maps

variable {m : ForeignKeyMap}

theorem removeForeignKeyField_eq_self_iff (keyName : Text) :
    removeForeignKeyField keyName m = m ↔ ¬ Named keyName m := by
  have hshows : ∀ v w : List FKField,
      (if v.any (·.fkName = keyName) then some (v.eraseP (·.fkName = keyName)) else none) = some w → w ≠ v := by
    intro v w h
    split_ifs at h with hany
    obtain rfl := Option.some.inj h
    rw [ne_eq, List.eraseP_eq_self_iff]
    simpa using hany
  rw [removeForeignKeyField, OrderedMap.updateFirst_eq_self_iff hshows, Named]
  simp only [List.mem_flatten, not_exists, not_and, forall_exists_index, and_imp]
  constructor
  · intro h field fields hfields hfield hname
    have hnone := h fields hfields
    rw [if_pos (by simpa using ⟨field, hfield, hname⟩)] at hnone
    cases hnone
  · intro h fields hfields
    refine if_neg fun hany => ?_
    obtain ⟨field, hfield, hname⟩ := List.any_eq_true.mp hany
    exact h field fields hfields hfield (of_decide_eq_true hname)

theorem eraseReferences_eq_self_iff (refTableName : Text) :
    eraseReferences refTableName m = m ↔ ¬ Refers refTableName m := by
  rw [eraseReferences, OrderedMap.eraseFirst_eq_self_iff, Refers]
  simp only [List.mem_flatten, not_exists, not_and, forall_exists_index, and_imp, List.any_eq_false, decide_eq_true_eq]
  exact ⟨fun h field fields hfields hfield => h fields hfields field hfield,
    fun h fields hfields field hfield => h field fields hfields hfield⟩

theorem pushForeignKeyFields_eq_self_iff (key : ℕ) (fields : List FKField) :
    pushForeignKeyFields key fields m = m ↔ fields = [] := by
  constructor
  · intro h
    by_contra hne
    rw [pushForeignKeyFields_eq key m hne] at h
    exact OrderedMap.upsert_append_ne_self hne h
  · rintro rfl
    rfl

end Maps

def Uncommitted {δ : Type} (s t : Sqlite.Session δ) : Prop := Entry.commit ∉ t.journal.drop s.journal.length

def KeepsOnFailure (d : Driver) (table : DatabaseTable) (newFK : List FKField) (c : ForeignKeyCall) : Prop :=
  match d with
  | .sqlite => ∀ {δ : Type} (client : Sqlite.Client δ) (s : KeySession δ), s.table = table → s.newFK = newFK →
      ∀ code t, Sqlite.ForeignKeys.applyForeignKey client c s = .returned code t → code ≠ 0 →
        Uncommitted s.session t.session → t.table.foreignKeys = table.foreignKeys
  | .alter b => ∀ {δ : Type} (dbms : Dbms δ) (s : Session δ), s.table = table → s.newFK = newFK →
      ∀ code t, b.applyForeignKey dbms c s = .returned code t → code ≠ 0 → t.table.foreignKeys = table.foreignKeys

def StoresNothing (newFK : List FKField) (c : ForeignKeyCall) : Prop :=
  newFK = [] ∨ c.foreignKeyFields = [] ∨ c.refKeyFields.length < c.foreignKeyFields.length

def FailureCondition (d : Driver) (m : ForeignKeyMap) (newFK : List FKField) (c : ForeignKeyCall) : Prop :=
  match d with
  | .sqlite => c.isNew = true ∨ c.logOnly = true ∨ ¬ Refers c.refTableName m
  | .alter .postgres => True
  | .alter .mySQL => c.isNew = true ∨ c.logOnly = true ∨ newFK = [] ∨ ¬ Named c.keyName m
  | .alter (.odbc _) => c.logOnly = true ∨ (c.isNew = true ∨ ¬ Named c.keyName m) ∧ StoresNothing newFK c

section Sqlite

variable {δ : Type} {client : Sqlite.Client δ} {c : ForeignKeyCall}

theorem writeSchema_failed {sql : Text} {s t : KeySession δ} {code : ℕ}
    (h : writeSchema client c sql s = .returned code t) (hcode : code ≠ 0) :
    c.logOnly = false ∧ t.table = s.table := by
  rw [writeSchema] at h
  cases hclause : addClause c s.newFK sql with
  | error fault => simp [hclause] at h
  | ok sql =>
    rw [hclause] at h
    dsimp only at h
    split_ifs at h with hlog hstored
    · injection h with hzero
      exact absurd hzero.symm hcode
    · injection h with hzero
      exact absurd hzero.symm hcode
    · injection h with _ ht
      exact ⟨by simpa using hlog, by rw [← ht]; rfl⟩

theorem rewriteSchema_failed {sql : Text} {s t : KeySession δ} {code : ℕ}
    (h : rewriteSchema client c sql s = .returned code t) (hcode : code ≠ 0) :
    t.table.foreignKeys = s.table.foreignKeys ∨
      c.isNew = false ∧ c.logOnly = false ∧ t.table.foreignKeys = eraseReferences c.refTableName s.table.foreignKeys := by
  rw [rewriteSchema] at h
  split_ifs at h with hnew
  · exact .inl (congrArg DatabaseTable.foreignKeys (writeSchema_failed h hcode).2)
  · rw [dropForeignKey] at h
    cases hsql : rewriteSql s.table.foreignKeys.size c.refTableName sql with
    | error fault =>
      rw [hsql] at h
      cases h
    | ok newSQL =>
      rw [hsql] at h
      obtain ⟨hlog, htable⟩ := writeSchema_failed h hcode
      exact .inr ⟨by simpa using hnew, hlog, congrArg DatabaseTable.foreignKeys htable⟩

theorem openSchema_logOnly (client : Sqlite.Client δ) (s : Sqlite.Session δ) : openSchema client true s = (true, s) := rfl

theorem prepare_journal (client : Sqlite.Client δ) (query : Sqlite.Query) (s : Sqlite.Session δ) :
    (s.prepare client query).2.journal = s.journal := by
  rw [Sqlite.Session.prepare, Sqlite.Session.report]
  cases (client.prepare s.server query).1 with
  | none => exact List.append_nil _
  | some err => rfl

theorem sqlite_cases (client : Sqlite.Client δ) (c : ForeignKeyCall) (s : KeySession δ) : ∃ u : Sqlite.Session δ,
    (c.logOnly = true → u.journal = s.session.journal) ∧
      (Sqlite.ForeignKeys.applyForeignKey client c s = .stopped .undefined (s.withSession u) ∨
        Sqlite.ForeignKeys.applyForeignKey client c s = .returned 1 (s.withSession u) ∨
          ∃ sql, Sqlite.ForeignKeys.applyForeignKey client c s = rewriteSchema client c sql (s.withSession u)) := by
  have hprepared : ∃ prepared : Bool × Sqlite.Session δ, prepared =
      (if (openSchema client c.logOnly s.session).1 then
        (openSchema client c.logOnly s.session).2.prepare client (.tableSql s.table.tableName)
      else (false, (openSchema client c.logOnly s.session).2)) ∧
        (c.logOnly = true → prepared.2.journal = s.session.journal) := by
    refine ⟨_, rfl, fun hlog => ?_⟩
    rw [hlog, openSchema_logOnly]
    exact prepare_journal client _ s.session
  obtain ⟨prepared, hdef, hjournal⟩ := hprepared
  rw [Sqlite.ForeignKeys.applyForeignKey]
  dsimp only
  rw [← hdef]
  by_cases hopen : prepared.1 = true
  · rw [if_pos hopen]
    split
    · exact ⟨(prepared.2.step client _ []).2, hjournal, .inl rfl⟩
    · exact ⟨((prepared.2.step client _ []).2.fail _), hjournal, .inr (.inl rfl)⟩
    · exact ⟨(prepared.2.step client _ []).2, hjournal, .inr (.inr ⟨_, rfl⟩)⟩
  · rw [if_neg hopen]
    exact ⟨_, hjournal, .inr (.inl rfl)⟩

theorem sqlite_failed {s t : KeySession δ} {code : ℕ}
    (h : Sqlite.ForeignKeys.applyForeignKey client c s = .returned code t) (hcode : code ≠ 0) :
    t.table.foreignKeys = s.table.foreignKeys ∨
      c.isNew = false ∧ c.logOnly = false ∧ t.table.foreignKeys = eraseReferences c.refTableName s.table.foreignKeys := by
  obtain ⟨u, -, hu | hu | ⟨sql, hu⟩⟩ := sqlite_cases client c s <;> rw [hu] at h
  · cases h
  · injection h with _ ht
    exact .inl (by rw [← ht]; rfl)
  · have hread := rewriteSchema_failed h hcode
    exact hread

def fullDisk : Sqlite.Client Unit where
  exec _ _ := (none, ())
  prepare _ _ := (none, ())
  bindText _ _ _ _ := (none, ())
  step _ query _ :=
    match query with
    | .tableSql _ => (⟨[[.text "t(a)".toList]], none⟩, ())
    | _ => (⟨[], some "database or disk is full".toList⟩, ())

def openedSession (table : DatabaseTable) (newFK : List FKField) : KeySession Unit :=
  { session := ⟨(), [], []⟩, table := table, command := [], newFK := newFK }

theorem rewriteSql_small (keys : ℕ) (refTableName : Text) :
    rewriteSql keys refTableName "t(a)".toList = .ok "t(a))".toList := rfl

theorem fullDisk_drop (table : DatabaseTable) (newFK : List FKField) (hnew : c.isNew = false) (hlog : c.logOnly = false) :
    ∃ t, Sqlite.ForeignKeys.applyForeignKey fullDisk c (openedSession table newFK) = .returned 1 t ∧
      t.session.journal = [.work "PRAGMA writable_schema=true".toList, .start, .rollback] ∧
      t.table.foreignKeys = eraseReferences c.refTableName table.foreignKeys := by
  have hdrop : dropForeignKey c.refTableName "t(a)".toList table.foreignKeys =
      .ok ("t(a))".toList, eraseReferences c.refTableName table.foreignKeys) := by
    rw [dropForeignKey, rewriteSql_small]
    rfl
  obtain ⟨sql, hsql⟩ : ∃ sql, addClause c newFK "t(a))".toList = .ok sql := by
    cases newFK with
    | nil => exact ⟨_, rfl⟩
    | cons fk fks => exact ⟨_, rfl⟩
  have hread : Sqlite.ForeignKeys.applyForeignKey fullDisk c (openedSession table newFK) =
      rewriteSchema fullDisk c "t(a)".toList ((openedSession table newFK).withSession
        ⟨(), [.work "PRAGMA writable_schema=true".toList, .start], []⟩) := by
    rw [Sqlite.ForeignKeys.applyForeignKey, hlog]
    rfl
  have hrewrite : ∀ u, rewriteSchema fullDisk c "t(a)".toList ((openedSession table newFK).withSession u) =
      writeSchema fullDisk c "t(a))".toList
        (((openedSession table newFK).withSession u).setForeignKeys (eraseReferences c.refTableName table.foreignKeys)) := by
    intro u
    have hforeignKeys : ((openedSession table newFK).withSession u).table.foreignKeys = table.foreignKeys := rfl
    rw [rewriteSchema, if_neg (by simp [hnew]), hforeignKeys, hdrop]
  rw [hread, hrewrite, writeSchema]
  have hnewFK : ∀ u m, (((openedSession table newFK).withSession u).setForeignKeys m).newFK = newFK := fun _ _ => rfl
  rw [hnewFK, hsql, hlog]
  exact ⟨_, rfl, rfl, rfl⟩

end Sqlite

theorem sqlite_keeps_iff (table : DatabaseTable) (newFK : List FKField) (c : ForeignKeyCall) :
    KeepsOnFailure .sqlite table newFK c ↔ FailureCondition .sqlite table.foreignKeys newFK c := by
  constructor
  · intro h
    by_contra hn
    obtain ⟨hnew, hlog, hrefers⟩ : c.isNew = false ∧ c.logOnly = false ∧ Refers c.refTableName table.foreignKeys := by
      simpa [FailureCondition, not_or] using hn
    obtain ⟨t, ht, hjournal, hmap⟩ := fullDisk_drop table newFK hnew hlog
    have hkept := h fullDisk (openedSession table newFK) rfl rfl 1 t ht Nat.one_ne_zero (by
      rw [Uncommitted, hjournal]
      simp [openedSession])
    rw [hmap, eraseReferences_eq_self_iff] at hkept
    exact hkept hrefers
  · intro h δ client s htable _ code t ht hcode _
    rcases sqlite_failed ht hcode with hsame | ⟨hnew, hlog, herased⟩
    · rw [hsame, htable]
    · have hrefers : ¬ Refers c.refTableName table.foreignKeys := by simpa [FailureCondition, hnew, hlog] using h
      rw [herased, htable, (eraseReferences_eq_self_iff _).mpr hrefers]

section AlterTable

variable {δ : Type} {dbms : Dbms δ} {c : ForeignKeyCall}

structure DroppedFirst (b : Backend) (c : ForeignKeyCall) (s : Session δ) (code : ℕ) (t : Session δ) : Prop where
  foreignKeys : t.table.foreignKeys = s.table.foreignKeys ∨
    c.isNew = false ∧ c.logOnly = false ∧ t.table.foreignKeys = removeForeignKeyField c.keyName s.table.foreignKeys ∧
      (b.isOdbc = false → code = 0)
  newFK : t.newFK = s.newFK

theorem droppedFirst_of_table {b : Backend} {s t : Session δ} {code : ℕ} (h : t.table = s.table ∧ t.newFK = s.newFK) :
    DroppedFirst b c s code t :=
  ⟨.inl (congrArg DatabaseTable.foreignKeys h.1), h.2⟩

theorem DroppedFirst.free {subtype : Text} {s t u : Session δ} {code code' : ℕ}
    (h : DroppedFirst (.odbc subtype) c s code t) (hu : u.table = t.table ∧ u.newFK = t.newFK) :
    DroppedFirst (.odbc subtype) c s code' u := by
  refine ⟨?_, hu.2.trans h.newFK⟩
  rw [hu.1]
  rcases h.foreignKeys with hsame | ⟨hnew, hlog, hremoved, -⟩
  · exact .inl hsame
  · exact .inr ⟨hnew, hlog, hremoved, by simp [Backend.isOdbc]⟩

theorem droppedFirst (b : Backend) (dbms : Dbms δ) (c : ForeignKeyCall) (s : Session δ) :
    ∃ code t, (if c.isNew then (0, s) else b.dropForeignKey dbms c.keyName c.logOnly s) = (code, t) ∧
      DroppedFirst b c s code t := by
  cases hnew : c.isNew with
  | true => exact ⟨0, s, rfl, droppedFirst_of_table ⟨rfl, rfl⟩⟩
  | false =>
    cases hlog : c.logOnly with
    | true => cases b <;> exact ⟨0, _, rfl, droppedFirst_of_table ⟨rfl, rfl⟩⟩
    | false =>
      rw [if_neg Bool.false_ne_true]
      have hremoved : ∀ (code : ℕ) {u : Session δ}, u.table = s.table ∧ u.newFK = s.newFK → (b.isOdbc = false → code = 0) →
          DroppedFirst b c s code (u.setForeignKeys (removeForeignKeyField c.keyName u.table.foreignKeys)) := by
        intro code u hu hcode
        have hmap : u.table.foreignKeys = s.table.foreignKeys := congrArg DatabaseTable.foreignKeys hu.1
        refine ⟨.inr ⟨hnew, hlog, ?_, hcode⟩, hu.2⟩
        rw [hmap]
        rfl
      cases b with
      | postgres =>
        rw [Backend.dropForeignKey, Postgres.dropForeignKey, if_neg Bool.false_ne_true]
        cases h : s.execute dbms (Postgres.dropStatement s.table c.keyName) with
        | error err => exact ⟨_, _, rfl, droppedFirst_of_table ⟨rfl, rfl⟩⟩
        | ok t => exact ⟨_, _, rfl, hremoved 0 (execute_table h) fun _ => rfl⟩
      | mySQL =>
        rw [Backend.dropForeignKey, MySQL.dropForeignKey, if_neg Bool.false_ne_true]
        cases h : s.execute dbms (MySQL.dropStatement s.table c.keyName) with
        | error err => exact ⟨_, _, rfl, droppedFirst_of_table ⟨rfl, rfl⟩⟩
        | ok t => exact ⟨_, _, rfl, hremoved 0 (execute_table h) fun _ => rfl⟩
      | odbc subtype =>
        rw [Backend.dropForeignKey, Odbc.dropForeignKey, if_neg Bool.false_ne_true]
        cases halloc : s.allocStatement dbms with
        | error err => exact ⟨_, _, rfl, droppedFirst_of_table ⟨rfl, rfl⟩⟩
        | ok t =>
          obtain ⟨htable, hfk⟩ := allocStatement_table halloc
          dsimp only
          cases hexec : t.execute dbms (Odbc.dropStatement s.table c.keyName) with
          | error err =>
            obtain ⟨hfree, hfreeFK⟩ := freeStatement_table dbms 1 (t.fail err)
            exact ⟨_, _, rfl, droppedFirst_of_table ⟨hfree.trans htable, hfreeFK.trans hfk⟩⟩
          | ok u =>
            obtain ⟨hutable, hufk⟩ := execute_table hexec
            have hdropped := hremoved 0 ⟨hutable.trans htable, hufk.trans hfk⟩ fun _ => rfl
            have hfree :=
              freeStatement_table dbms 0 (u.setForeignKeys (removeForeignKeyField c.keyName u.table.foreignKeys))
            exact ⟨_, _, rfl, hdropped.free hfree⟩

theorem storeForeignKey_returned {key : ℕ} {updProp : FkOnUpdate} {delProp : FkOnDelete} {matchOption : ℤ}
    {s t : Session δ} {code : ℕ} (h : storeForeignKey key c updProp delProp matchOption s = .returned code t) :
    code = 0 ∧ c.foreignKeyFields.length ≤ c.refKeyFields.length ∧
      t = s.setForeignKeys (pushForeignKeyFields key
        (c.fields s.table.tableName s.newFK updProp delProp matchOption) s.table.foreignKeys) := by
  rw [storeForeignKey] at h
  split_ifs at h with hlength
  injection h with hcode ht
  exact ⟨hcode.symm, hlength, ht.symm⟩

theorem postgres_failed {s t : Session δ} {code : ℕ} (h : Postgres.applyForeignKey dbms c s = .returned code t)
    (hcode : code ≠ 0) : t.table.foreignKeys = s.table.foreignKeys := by
  obtain ⟨result, u, hdrop, hu⟩ := droppedFirst .postgres dbms c s
  rw [Backend.dropForeignKey] at hdrop
  rw [Postgres.applyForeignKey, hdrop] at h
  dsimp only at h
  split_ifs at h with hsend
  · obtain ⟨-, hnew⟩ : (c.logOnly = false ∧ result = 0) ∧ c.isNew = true := by simpa using hsend
    have hsame : u.table.foreignKeys = s.table.foreignKeys := hu.foreignKeys.resolve_right fun hn => by simp [hnew] at hn
    cases hexec : u.execute dbms (Postgres.addStatement s.table s.newFK c) with
    | error err =>
      rw [hexec] at h
      injection h with _ ht
      rw [← ht]
      exact hsame
    | ok v =>
      rw [hexec] at h
      exact absurd (storeForeignKey_returned h).1 hcode
  · injection h with hresult ht
    rw [← ht]
    exact hu.foreignKeys.resolve_right fun hn => hcode (hresult ▸ hn.2.2.2 rfl)

theorem mySQL_failed {s t : Session δ} {code : ℕ} (h : MySQL.applyForeignKey dbms c s = .returned code t)
    (hcode : code ≠ 0) : t.table.foreignKeys = s.table.foreignKeys ∨
      s.newFK ≠ [] ∧ c.isNew = false ∧ c.logOnly = false ∧
        t.table.foreignKeys = removeForeignKeyField c.keyName s.table.foreignKeys := by
  obtain ⟨result, u, hdrop, hu⟩ := droppedFirst .mySQL dbms c s
  rw [Backend.dropForeignKey] at hdrop
  rw [MySQL.applyForeignKey, hdrop] at h
  dsimp only at h
  split_ifs at h with hempty hsend
  have hne : s.newFK ≠ [] := by simpa using hempty
  have hleft : u.table.foreignKeys = s.table.foreignKeys ∨ s.newFK ≠ [] ∧ c.isNew = false ∧ c.logOnly = false ∧
      u.table.foreignKeys = removeForeignKeyField c.keyName s.table.foreignKeys :=
    hu.foreignKeys.imp_right fun hn => ⟨hne, hn.1, hn.2.1, hn.2.2.1⟩
  · cases hexec : u.execute dbms (MySQL.addStatement s.table s.newFK c) with
    | error err =>
      rw [hexec] at h
      injection h with _ ht
      rw [← ht]
      exact hleft
    | ok v =>
      rw [hexec] at h
      obtain ⟨stored, w, hstored, hreload⟩ := Outcome.bind_eq_returned h
      injection hreload with hresult _
      exact absurd (hresult ▸ (storeForeignKey_returned hstored).1) hcode
  · injection h with hresult ht
    rw [← ht]
    exact .inl (hu.foreignKeys.resolve_right fun hn => hcode (hresult ▸ hn.2.2.2 rfl))

theorem odbc_failed {subtype : Text} {s t : Session δ} {code : ℕ}
    (h : Odbc.applyForeignKey subtype dbms c s = .returned code t) (hcode : code ≠ 0) :
    ∃ m : ForeignKeyMap, (m = s.table.foreignKeys ∨
        c.isNew = false ∧ c.logOnly = false ∧ m = removeForeignKeyField c.keyName s.table.foreignKeys) ∧
      (t.table.foreignKeys = m ∨ s.newFK ≠ [] ∧ c.logOnly = false ∧ c.foreignKeyFields.length ≤ c.refKeyFields.length ∧
        ∃ tableName newFK, t.table.foreignKeys = pushForeignKeyFields m.size (c.fields tableName newFK
          (Odbc.updateRule subtype c.updateProp).2 (Odbc.deleteRule subtype c.deleteProp).2 (-1)) m) := by
  obtain ⟨result, u, hdrop, hu⟩ := droppedFirst (.odbc subtype) dbms c s
  refine ⟨u.table.foreignKeys, hu.foreignKeys.imp_right fun hn => ⟨hn.1, hn.2.1, hn.2.2.1⟩, ?_⟩
  rw [Backend.dropForeignKey] at hdrop
  rw [Odbc.applyForeignKey, hdrop] at h
  dsimp only at h
  split_ifs at h with hresult hsend
  · injection h with _ ht
    exact .inl (by rw [← ht])
  · obtain ⟨hlog, hne⟩ : c.logOnly = false ∧ s.newFK ≠ [] := by simpa [hu.newFK] using hsend
    cases halloc : u.allocStatement dbms with
    | error err =>
      rw [halloc] at h
      injection h with _ ht
      exact .inl (by rw [← ht]; rfl)
    | ok v =>
      obtain ⟨hv, -⟩ := allocStatement_table halloc
      rw [halloc] at h
      obtain ⟨stored, w, hstored, hfreed⟩ := Outcome.bind_eq_returned h
      injection hfreed with _ ht
      obtain ⟨hw, -⟩ := freeStatement_table dbms stored w
      rw [← ht, hw]
      cases hexec : v.execute dbms (Odbc.addStatement subtype s.table s.newFK c) with
      | error err =>
        rw [hexec] at hstored
        injection hstored with _ hfail
        exact .inl (by rw [← hfail, ← hv]; rfl)
      | ok x =>
        obtain ⟨hx, -⟩ := execute_table hexec
        rw [hexec] at hstored
        obtain ⟨-, hlength, rfl⟩ := storeForeignKey_returned hstored
        refine .inr ⟨hne, hlog, hlength, x.table.tableName, x.newFK, ?_⟩
        rw [← hv, ← hx]
        rfl
  · injection h with hzero _
    exact absurd hzero.symm hcode
  · injection h with hzero _
    exact absurd hzero.symm hcode

def refusing : Dbms Unit where
  exec _ statement :=
    match statement.effect with
    | .addForeignKey _ => .error "refused".toList
    | .dropForeignKey _ => .ok ()
  allocHandle _ := .ok ()
  freeHandle _ := .ok ()

def unfreeable (kind : Effect → Bool) : Dbms Bool where
  exec _ statement := .ok (kind statement.effect)
  allocHandle d := .ok d
  freeHandle d := if d then .error "invalid handle".toList else .ok d

def keySession {δ : Type} (server : δ) (table : DatabaseTable) (newFK : List FKField) : Session δ :=
  { server := server, executed := [], hstmt := false, table := table, command := [], newFK := newFK, errorMsg := [] }

def Effect.isAdd : Effect → Bool
  | addForeignKey _ => true
  | dropForeignKey _ => false

theorem mySQL_refused (table : DatabaseTable) (fk : FKField) (fks : List FKField) (hnew : c.isNew = false)
    (hlog : c.logOnly = false) :
    ∃ t, MySQL.applyForeignKey refusing c (keySession () table (fk :: fks)) = .returned 1 t ∧
      t.table.foreignKeys = removeForeignKeyField c.keyName table.foreignKeys := by
  rw [MySQL.applyForeignKey, hnew, hlog]
  exact ⟨_, rfl, rfl⟩

theorem odbc_drop_unfreeable (subtype : Text) (table : DatabaseTable) (newFK : List FKField) (hnew : c.isNew = false)
    (hlog : c.logOnly = false) :
    ∃ t, Odbc.applyForeignKey subtype (unfreeable fun _ => true) c (keySession false table newFK) = .returned 1 t ∧
      t.table.foreignKeys = removeForeignKeyField c.keyName table.foreignKeys := by
  rw [Odbc.applyForeignKey, hnew, hlog]
  exact ⟨_, rfl, rfl⟩

theorem odbc_add_unfreeable (subtype : Text) (table : DatabaseTable) (fk : FKField) (fks : List FKField)
    (hlog : c.logOnly = false) (hlength : c.foreignKeyFields.length ≤ c.refKeyFields.length) :
    ∃ t m, Odbc.applyForeignKey subtype (unfreeable Effect.isAdd) c (keySession false table (fk :: fks)) = .returned 1 t ∧
      (m = table.foreignKeys ∨ c.isNew = false ∧ m = removeForeignKeyField c.keyName table.foreignKeys) ∧
      t.table.foreignKeys = pushForeignKeyFields m.size (c.fields table.tableName (fk :: fks)
        (Odbc.updateRule subtype c.updateProp).2 (Odbc.deleteRule subtype c.deleteProp).2 (-1)) m := by
  have hstore : ∀ (key : ℕ) updProp delProp matchOption (s : Session Bool),
      storeForeignKey key c updProp delProp matchOption s = .returned 0 (s.setForeignKeys (pushForeignKeyFields key
        (c.fields s.table.tableName s.newFK updProp delProp matchOption) s.table.foreignKeys)) := by
    intro key updProp delProp matchOption s
    rw [storeForeignKey]
    exact if_pos hlength
  rw [Odbc.applyForeignKey, hlog]
  cases c.isNew with
  | true => exact ⟨_, _, congrArg (fun o => Outcome.bind o _) (hstore _ _ _ _ _), .inl rfl, rfl⟩
  | false => exact ⟨_, _, congrArg (fun o => Outcome.bind o _) (hstore _ _ _ _ _), .inr ⟨rfl, rfl⟩, rfl⟩

theorem fields_eq_nil_iff (c : ForeignKeyCall) (tableName : Text) (newFK : List FKField) (updProp : FkOnUpdate)
    (delProp : FkOnDelete) (matchOption : ℤ) (h : c.foreignKeyFields.length ≤ c.refKeyFields.length) :
    c.fields tableName newFK updProp delProp matchOption = [] ↔ c.foreignKeyFields = [] := by
  rw [ForeignKeyCall.fields, List.mapIdx_eq_nil_iff, List.zip_eq_nil_iff]
  refine ⟨fun hnil => hnil.elim id fun href => ?_, .inl⟩
  rw [href, List.length_nil, Nat.le_zero] at h
  exact List.length_eq_zero_iff.mp h

theorem mySQL_keeps_iff (table : DatabaseTable) (newFK : List FKField) (c : ForeignKeyCall) :
    KeepsOnFailure (.alter .mySQL) table newFK c ↔ FailureCondition (.alter .mySQL) table.foreignKeys newFK c := by
  constructor
  · intro h
    by_contra hn
    obtain ⟨hnew, hlog, hne, hnamed⟩ : c.isNew = false ∧ c.logOnly = false ∧ newFK ≠ [] ∧ Named c.keyName table.foreignKeys := by
      simpa [FailureCondition, not_or] using hn
    obtain ⟨fk, fks, rfl⟩ := List.exists_cons_of_ne_nil hne
    obtain ⟨t, ht, hmap⟩ := mySQL_refused table fk fks hnew hlog
    have hkept := h refusing (keySession () table (fk :: fks)) rfl rfl 1 t ht Nat.one_ne_zero
    rw [hmap, removeForeignKeyField_eq_self_iff] at hkept
    exact hkept hnamed
  · intro h δ dbms s htable hfk code t ht hcode
    rcases mySQL_failed ht hcode with hsame | ⟨hne, hnew, hlog, hremoved⟩
    · rw [hsame, htable]
    · have hnamed : ¬ Named c.keyName table.foreignKeys := by
        rw [hfk] at hne
        simpa [FailureCondition, hnew, hlog, hne] using h
      rw [hremoved, htable, (removeForeignKeyField_eq_self_iff _).mpr hnamed]

theorem odbc_keeps_iff (subtype : Text) (table : DatabaseTable) (newFK : List FKField) (c : ForeignKeyCall) :
    KeepsOnFailure (.alter (.odbc subtype)) table newFK c ↔
      FailureCondition (.alter (.odbc subtype)) table.foreignKeys newFK c := by
  constructor
  · intro h
    by_contra hn
    obtain ⟨hlog, hrest⟩ : c.logOnly = false ∧
        ¬((c.isNew = true ∨ ¬ Named c.keyName table.foreignKeys) ∧ StoresNothing newFK c) := by
      simpa [FailureCondition, not_or] using hn
    by_cases hdropped : c.isNew = true ∨ ¬ Named c.keyName table.foreignKeys
    · obtain ⟨hne, hfields, hlength⟩ : newFK ≠ [] ∧ c.foreignKeyFields ≠ [] ∧
          c.foreignKeyFields.length ≤ c.refKeyFields.length := by
        simpa [StoresNothing, hdropped, not_or] using hrest
      obtain ⟨fk, fks, rfl⟩ := List.exists_cons_of_ne_nil hne
      obtain ⟨t, m, ht, hm, hmap⟩ := odbc_add_unfreeable subtype table fk fks hlog hlength
      have hkept := h (unfreeable Effect.isAdd) (keySession false table (fk :: fks)) rfl rfl 1 t ht Nat.one_ne_zero
      have hsame : m = table.foreignKeys := by
        rcases hm with hm | ⟨hnew, hm⟩
        · exact hm
        · have hnamed := hdropped.resolve_left (by simp [hnew])
          rw [hm, (removeForeignKeyField_eq_self_iff _).mpr hnamed]
      rw [hmap, hsame, pushForeignKeyFields_eq_self_iff, fields_eq_nil_iff _ _ _ _ _ _ hlength] at hkept
      exact hfields hkept
    · obtain ⟨hnew, hnamed⟩ : c.isNew = false ∧ Named c.keyName table.foreignKeys := by simpa [not_or] using hdropped
      obtain ⟨t, ht, hmap⟩ := odbc_drop_unfreeable subtype table newFK hnew hlog
      have hkept := h (unfreeable fun _ => true) (keySession false table newFK) rfl rfl 1 t ht Nat.one_ne_zero
      rw [hmap, removeForeignKeyField_eq_self_iff] at hkept
      exact hkept hnamed
  · intro h δ dbms s htable hfk code t ht hcode
    obtain ⟨m, hm, hstored⟩ := odbc_failed ht hcode
    have hsame : m = table.foreignKeys := by
      rcases hm with hm | ⟨hnew, hlog, hm⟩
      · rw [hm, htable]
      · have hnamed : ¬ Named c.keyName table.foreignKeys := by
          simp only [FailureCondition, hnew, hlog, Bool.false_eq_true, false_or] at h
          exact h.1
        rw [hm, htable, (removeForeignKeyField_eq_self_iff _).mpr hnamed]
    rcases hstored with hkept | ⟨hne, hlog, hlength, tableName, fields, hpushed⟩
    · rw [hkept, hsame]
    · have hnothing : c.foreignKeyFields = [] := by
        simp only [FailureCondition, hlog, Bool.false_eq_true, false_or] at h
        rcases h.2 with hnil | hnil | hshort
        · exact absurd (hfk.trans hnil) hne
        · exact hnil
        · omega
      rw [hpushed, hsame, pushForeignKeyFields_eq_self_iff, fields_eq_nil_iff _ _ _ _ _ _ hlength]
      exact hnothing

end AlterTable

theorem keepsOnFailure_iff (d : Driver) (table : DatabaseTable) (newFK : List FKField) (c : ForeignKeyCall) :
    KeepsOnFailure d table newFK c ↔ FailureCondition d table.foreignKeys newFK c := by
  cases d with
  | sqlite => exact sqlite_keeps_iff table newFK c
  | alter b =>
    cases b with
    | postgres =>
      refine iff_of_true ?_ trivial
      intro δ dbms s htable _ code t ht hcode
      rw [postgres_failed ht hcode, htable]
    | mySQL => exact mySQL_keeps_iff table newFK c
    | odbc subtype => exact odbc_keeps_iff subtype table newFK c

theorem sqlite_failed_drop_loses_key : ¬ KeepsOnFailure .sqlite ordersSession.table [] (ordersCall false) := by
  rw [sqlite_keeps_iff]
  rintro (hnew | hlog | hrefers)
  · exact Bool.false_ne_true hnew
  · exact Bool.false_ne_true hlog
  · exact hrefers ⟨ordersField, List.mem_singleton.mpr rfl, rfl⟩

end DbHandler.AlterTable
