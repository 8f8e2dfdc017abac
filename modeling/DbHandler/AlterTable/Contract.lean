import DbHandler.AlterTable.Drivers

namespace DbHandler.AlterTable

variable {δ : Type}

def Accepting (dbms : Dbms δ) : Prop :=
  ∀ d, (∀ statement, ∃ d', dbms.exec d statement = .ok d') ∧
    (∃ d', dbms.allocHandle d = .ok d') ∧ ∃ d', dbms.freeHandle d = .ok d'

def IsAdd (s : Session δ) (c : ForeignKeyCall) (statement : Statement) : Prop :=
  statement.effect = .addForeignKey (newConstraint c.keyName s.newFK) ∧
    alterTable s.table ++ "ADD CONSTRAINT ".toList ++ c.keyName <+: statement.text

def IsDrop (s : Session δ) (c : ForeignKeyCall) (statement : Statement) : Prop :=
  statement.effect = .dropForeignKey c.keyName ∧ alterTable s.table ++ "DROP ".toList <+: statement.text

def Executes (b : Backend) (dbms : Dbms δ) (c : ForeignKeyCall) (s : Session δ) (statements : List Statement) : Prop :=
  (b.applyForeignKey dbms { c with logOnly := false } s).state.executed = s.executed ++ statements

structure MeetsContract (b : Backend) (dbms : Dbms δ) (c : ForeignKeyCall) (s : Session δ) : Prop where
  add : c.isNew = true → s.newFK ≠ [] → ∃ add, IsAdd s c add ∧ Executes b dbms c s [add]
  replace : c.isNew = false → s.newFK ≠ [] →
    ∃ drop add, IsDrop s c drop ∧ IsAdd s c add ∧ Executes b dbms c s [drop, add]
  drop : c.isNew = false → s.newFK = [] → ∃ drop, IsDrop s c drop ∧ Executes b dbms c s [drop] ∧
    ∃ t, b.applyForeignKey dbms { c with logOnly := false } s = .returned 0 t
  log : ∃ code t statements separator,
    b.applyForeignKey dbms { c with logOnly := true } s = .returned code t ∧
      Executes b dbms c s statements ∧
      t.command = List.intercalate separator (statements.map (·.text))

def Backend.sends (b : Backend) (isNew : Bool) (newFK : List FKField) (drop add : Statement) : List Statement :=
  match b with
  | .postgres => if isNew then [add] else [drop]
  | .mySQL => if newFK = [] then [] else if isNew then [add] else [drop, add]
  | .odbc _ => (if isNew then [] else [drop]) ++ if newFK = [] then [] else [add]

def Backend.carriedOut (b : Backend) (c : ForeignKeyCall) (s : Session δ) : List Statement :=
  b.sends c.isNew s.newFK (b.dropStatement s.table c.keyName) (b.addStatement s.table s.newFK c)

theorem sends_eq_add_iff (b : Backend) (isNew : Bool) (newFK : List FKField) {drop add : Statement}
    (hne : drop ≠ add) :
    b.sends isNew newFK drop add = [add] ↔ isNew = true ∧ (newFK ≠ [] ∨ b = .postgres) := by
  cases b <;> cases isNew <;> by_cases hfk : newFK = [] <;> simp [Backend.sends, hfk, hne]

theorem sends_cases (b : Backend) (isNew : Bool) (newFK : List FKField) (drop add : Statement) :
    b.sends isNew newFK drop add = [] ∨ b.sends isNew newFK drop add = [add] ∨
      b.sends isNew newFK drop add = [drop] ∨ b.sends isNew newFK drop add = [drop, add] := by
  cases b <;> cases isNew <;> by_cases hfk : newFK = [] <;> simp [Backend.sends, hfk]

theorem execute_accepting {dbms : Dbms δ} (h : Accepting dbms) (statement : Statement) (s : Session δ) :
    ∃ t, s.execute dbms statement = .ok t ∧ t.executed = s.executed ++ [statement] ∧ t.newFK = s.newFK := by
  obtain ⟨d, hd⟩ := (h s.server).1 statement
  exact ⟨{ s with server := d, executed := s.executed ++ [statement] },
    by rw [Session.execute, hd, Except.map], rfl, rfl⟩

theorem allocStatement_accepting {dbms : Dbms δ} (h : Accepting dbms) (s : Session δ) :
    ∃ t, s.allocStatement dbms = .ok t ∧ t.executed = s.executed ∧ t.newFK = s.newFK := by
  obtain ⟨d, hd⟩ := (h s.server).2.1
  exact ⟨{ s with server := d, hstmt := true }, by rw [Session.allocStatement, hd, Except.map], rfl, rfl⟩

theorem freeStatement_accepting {dbms : Dbms δ} (h : Accepting dbms) (result : ℕ) (s : Session δ) :
    ∃ t, s.freeStatement dbms result = (result, t) ∧ t.executed = s.executed ∧ t.newFK = s.newFK := by
  obtain ⟨d, hd⟩ := (h s.server).2.2
  exact ⟨{ s with server := d, hstmt := false }, by rw [Session.freeStatement, hd], rfl, rfl⟩

theorem storeForeignKey_executed (key : ℕ) (c : ForeignKeyCall) (updProp : FkOnUpdate) (delProp : FkOnDelete)
    (matchOption : ℤ) (s : Session δ) :
    (storeForeignKey key c updProp delProp matchOption s).state.executed = s.executed := by
  rw [storeForeignKey]
  split_ifs <;> rfl

theorem dropForeignKey_accepting (b : Backend) {dbms : Dbms δ} (h : Accepting dbms) (keyName : Text)
    (s : Session δ) :
    ∃ t, b.dropForeignKey dbms keyName false s = (0, t) ∧
      t.executed = s.executed ++ [b.dropStatement s.table keyName] ∧ t.newFK = s.newFK := by
  cases b with
  | postgres =>
    obtain ⟨t, ht, he, hn⟩ := execute_accepting h (Postgres.dropStatement s.table keyName) s
    exact ⟨t.setForeignKeys (removeForeignKeyField keyName t.table.foreignKeys),
      by simp [Backend.dropForeignKey, Postgres.dropForeignKey, ht], he, hn⟩
  | mySQL =>
    obtain ⟨t, ht, he, hn⟩ := execute_accepting h (MySQL.dropStatement s.table keyName) s
    exact ⟨t.setForeignKeys (removeForeignKeyField keyName t.table.foreignKeys),
      by simp [Backend.dropForeignKey, MySQL.dropForeignKey, ht], he, hn⟩
  | odbc subtype =>
    obtain ⟨t, ht, het, hnt⟩ := allocStatement_accepting h s
    obtain ⟨u, hu, heu, hnu⟩ := execute_accepting h (Odbc.dropStatement s.table keyName) t
    obtain ⟨v, hv, hev, hnv⟩ := freeStatement_accepting h 0
      (u.setForeignKeys (removeForeignKeyField keyName u.table.foreignKeys))
    refine ⟨v, by simp [Backend.dropForeignKey, Odbc.dropForeignKey, ht, hu, hv], ?_, ?_⟩
    · rw [hev]
      change u.executed = _
      rw [heu, het]
      rfl
    · rw [hnv]
      change u.newFK = _
      rw [hnu, hnt]

theorem dropForeignKey_logOnly (b : Backend) (dbms : Dbms δ) (keyName : Text) (s : Session δ) :
    b.dropForeignKey dbms keyName true s = (0, { s with command := (b.dropStatement s.table keyName).text }) := by
  cases b <;> rfl

theorem postgres_executed {dbms : Dbms δ} (h : Accepting dbms) {c : ForeignKeyCall} (hlog : c.logOnly = false)
    (s : Session δ) : (Postgres.applyForeignKey dbms c s).state.executed =
      s.executed ++ Backend.postgres.carriedOut c s := by
  rw [Postgres.applyForeignKey, hlog]
  cases hnew : c.isNew with
  | true =>
    obtain ⟨t, ht, he, -⟩ := execute_accepting h (Postgres.addStatement s.table s.newFK c) s
    simp [ht, storeForeignKey_executed, he, Backend.carriedOut, Backend.sends, Backend.addStatement, hnew]
  | false =>
    obtain ⟨t, ht, he, -⟩ := dropForeignKey_accepting .postgres h c.keyName s
    rw [Backend.dropForeignKey] at ht
    simp [ht, he, Backend.carriedOut, Backend.sends, hnew]

theorem mySQL_executed {dbms : Dbms δ} (h : Accepting dbms) {c : ForeignKeyCall} (hlog : c.logOnly = false)
    (s : Session δ) : (MySQL.applyForeignKey dbms c s).state.executed =
      s.executed ++ Backend.mySQL.carriedOut c s := by
  have hstore : ∀ key updProp delProp m (u : Session δ), ((storeForeignKey key c updProp delProp m u).bind
      fun result s => .returned result (MySQL.reloadNewFK key s)).state.executed = u.executed := by
    intro key updProp delProp m u
    rw [← storeForeignKey_executed key c updProp delProp m u]
    exact Outcome.bind_state_eq Session.executed _ fun _ _ => rfl
  have hadd := execute_accepting h (MySQL.addStatement s.table s.newFK c)
  rw [MySQL.applyForeignKey, hlog]
  by_cases hfk : s.newFK = []
  · simp [Backend.carriedOut, Backend.sends, hfk]
  · cases hnew : c.isNew with
    | true =>
      obtain ⟨t, ht, he, -⟩ := hadd s
      simp [hfk, ht, hstore, he, Backend.carriedOut, Backend.sends, Backend.addStatement, hnew]
    | false =>
      obtain ⟨t, ht, het, -⟩ := dropForeignKey_accepting .mySQL h c.keyName s
      obtain ⟨u, hu, heu, -⟩ := hadd t
      rw [Backend.dropForeignKey] at ht
      simp [hfk, ht, hu, hstore, heu, het, Backend.carriedOut, Backend.sends, Backend.addStatement, hnew]

theorem odbc_executed (subtype : Text) {dbms : Dbms δ} (h : Accepting dbms) {c : ForeignKeyCall}
    (hlog : c.logOnly = false) (s : Session δ) : (Odbc.applyForeignKey subtype dbms c s).state.executed =
      s.executed ++ (Backend.odbc subtype).carriedOut c s := by
  have hadd : ∀ t : Session δ, ∃ u, t.allocStatement dbms = .ok u ∧ ∃ v,
      u.execute dbms (Odbc.addStatement subtype s.table s.newFK c) = .ok v ∧
        v.executed = t.executed ++ [Odbc.addStatement subtype s.table s.newFK c] := by
    intro t
    obtain ⟨u, hu, heu, -⟩ := allocStatement_accepting h t
    obtain ⟨v, hv, hev, -⟩ := execute_accepting h (Odbc.addStatement subtype s.table s.newFK c) u
    exact ⟨u, hu, v, hv, by rw [hev, heu]⟩
  have hfree : ∀ (o : Outcome (Session δ)), (o.bind fun result s =>
      .returned (s.freeStatement dbms result).1 (s.freeStatement dbms result).2).state.executed =
        o.state.executed := by
    refine fun o => Outcome.bind_state_eq Session.executed o fun code t => ?_
    obtain ⟨u, hu, he, -⟩ := freeStatement_accepting h code t
    simpa [hu] using he
  rw [Odbc.applyForeignKey, hlog]
  cases hnew : c.isNew with
  | true =>
    by_cases hfk : s.newFK = []
    · simp [hfk, Backend.carriedOut, Backend.sends, hnew]
    · obtain ⟨u, hu, v, hv, he⟩ := hadd s
      simp [hfk, hu, hv, hfree, storeForeignKey_executed, he, Backend.carriedOut, Backend.sends, Backend.addStatement, hnew]
  | false =>
    obtain ⟨t, ht, het, hnt⟩ := dropForeignKey_accepting (.odbc subtype) h c.keyName s
    rw [Backend.dropForeignKey] at ht
    by_cases hfk : s.newFK = []
    · simp [ht, hnt, hfk, het, Backend.carriedOut, Backend.sends, hnew]
    · obtain ⟨u, hu, v, hv, he⟩ := hadd t
      simp [ht, hnt, hfk, hu, hv, hfree, storeForeignKey_executed, he, het, Backend.carriedOut, Backend.sends,
        Backend.addStatement, hnew]

theorem applyForeignKey_executes (b : Backend) {dbms : Dbms δ} (h : Accepting dbms) (c : ForeignKeyCall)
    (s : Session δ) : Executes b dbms c s (b.carriedOut c s) := by
  cases b with
  | postgres => exact postgres_executed h (c := { c with logOnly := false }) rfl s
  | mySQL => exact mySQL_executed h (c := { c with logOnly := false }) rfl s
  | odbc subtype => exact odbc_executed subtype h (c := { c with logOnly := false }) rfl s

theorem applyForeignKey_logOnly (b : Backend) (dbms : Dbms δ) {c : ForeignKeyCall} (hlog : c.logOnly = true)
    (s : Session δ) : b.applyForeignKey dbms c s =
      if b = .mySQL ∧ s.newFK = [] then .outOfRange s
      else .returned 0 { s with command := (b.addStatement s.table s.newFK c).text } := by
  cases b with
  | postgres =>
    cases hnew : c.isNew <;>
      simp [Backend.applyForeignKey, Postgres.applyForeignKey, Postgres.dropForeignKey, hlog, hnew, Backend.addStatement]
  | mySQL =>
    by_cases hfk : s.newFK = []
    · simp [Backend.applyForeignKey, MySQL.applyForeignKey, hfk]
    · cases hnew : c.isNew <;>
        simp [Backend.applyForeignKey, MySQL.applyForeignKey, MySQL.dropForeignKey, hlog, hnew, hfk, Backend.addStatement]
  | odbc subtype =>
    cases hnew : c.isNew <;>
      simp [Backend.applyForeignKey, Odbc.applyForeignKey, Odbc.dropForeignKey, hlog, hnew, Backend.addStatement]

theorem isAdd_addStatement (b : Backend) (c : ForeignKeyCall) (s : Session δ) :
    IsAdd s c (b.addStatement s.table s.newFK c) := by
  cases b <;> exact ⟨rfl, addForeignKeyText_prefix _ _ _ _ _ _⟩

theorem dropStatement_text (b : Backend) (table : DatabaseTable) (keyName : Text) :
    ∃ rest, (b.dropStatement table keyName).text = alterTable table ++ "DROP ".toList ++ rest := by
  cases b with
  | postgres =>
    exact ⟨"CONSTRAINT ".toList ++ keyName,
      by simp [Backend.dropStatement, Postgres.dropStatement, dropForeignKeyStatement]⟩
  | mySQL => exact ⟨"FOREIGN KEY ".toList ++ keyName, by simp [Backend.dropStatement, MySQL.dropStatement, dropForeignKeyStatement]⟩
  | odbc subtype =>
    exact ⟨"CONSTRAINT ".toList ++ keyName ++ " ".toList,
      by simp [Backend.dropStatement, Odbc.dropStatement, dropForeignKeyStatement]⟩

theorem addStatement_ne_dropStatement (b : Backend) (table : DatabaseTable) (newFK : List FKField)
    (c : ForeignKeyCall) : (b.addStatement table newFK c).text ≠ (b.dropStatement table c.keyName).text := by
  obtain ⟨rest, hrest⟩ := dropStatement_text b table c.keyName
  rw [hrest]
  cases b <;> exact addForeignKeyText_ne_drop

theorem carriedOut_eq_add_iff (b : Backend) (c : ForeignKeyCall) (s : Session δ) :
    b.carriedOut c s = [b.addStatement s.table s.newFK c] ↔
      c.isNew = true ∧ (s.newFK ≠ [] ∨ b = .postgres) :=
  sends_eq_add_iff b c.isNew s.newFK fun h =>
    addStatement_ne_dropStatement b s.table s.newFK c (congrArg Statement.text h).symm

theorem addText_eq_intercalate_iff (b : Backend) (c : ForeignKeyCall) (s : Session δ) :
    (∃ separator, (b.addStatement s.table s.newFK c).text =
        List.intercalate separator ((b.carriedOut c s).map (·.text))) ↔
      b.carriedOut c s = [b.addStatement s.table s.newFK c] := by
  have hne := addStatement_ne_dropStatement b s.table s.newFK c
  have hadd : (b.addStatement s.table s.newFK c).text ≠ [] := by
    have hprefix := (isAdd_addStatement b c s).2
    rw [List.append_assoc] at hprefix
    exact fun h => alterTable_ne_nil _ (List.append_eq_nil_iff.mp (List.prefix_nil.mp (h ▸ hprefix))).1
  have hdrop : (b.dropStatement s.table c.keyName).text ≠ [] := by
    obtain ⟨rest, h⟩ := dropStatement_text b s.table c.keyName
    rw [h, List.append_assoc]
    exact List.append_ne_nil_of_left_ne_nil (alterTable_ne_nil _) _
  constructor
  · rintro ⟨separator, h⟩
    rcases sends_cases b c.isNew s.newFK (b.dropStatement s.table c.keyName)
      (b.addStatement s.table s.newFK c) with hc | hc | hc | hc <;> rw [Backend.carriedOut, hc] at h
    · simp [hadd] at h
    · exact hc
    · simp [hne] at h
    · have hlength := congrArg List.length h
      have hpos := List.length_pos_iff.mpr hdrop
      simp only [List.map_cons, List.map_nil, List.intercalate, List.intersperse_cons_cons, List.intersperse_singleton,
        List.flatten_cons, List.flatten_nil, List.length_append, List.length_nil] at hlength
      omega
  · intro h
    exact ⟨[], by simp [h]⟩

theorem meetsContract_iff (b : Backend) {dbms : Dbms δ} (h : Accepting dbms) (c : ForeignKeyCall) (s : Session δ) :
    MeetsContract b dbms c s ↔ c.isNew = true ∧ (s.newFK ≠ [] ∨ b = .postgres) := by
  have hcarried := applyForeignKey_executes b h c s
  have hlog := applyForeignKey_logOnly b dbms (c := { c with logOnly := true }) rfl s
  rw [← carriedOut_eq_add_iff]
  constructor
  · intro hmeets
    obtain ⟨code, t, statements, separator, ht, hexec, hcommand⟩ := hmeets.log
    have hsame : statements = b.carriedOut c s := List.append_cancel_left (hexec.symm.trans hcarried)
    rw [hlog] at ht
    split_ifs at ht
    obtain ⟨-, rfl⟩ : 0 = code ∧ _ = t := by simpa using ht
    exact (addText_eq_intercalate_iff b c s).mp ⟨separator, by rw [← hsame, ← hcommand]; cases b <;> rfl⟩
  · intro hadd
    obtain ⟨hnew, hfk⟩ := (carriedOut_eq_add_iff b c s).mp hadd
    rw [hadd] at hcarried
    refine ⟨fun _ _ => ⟨_, isAdd_addStatement b c s, hcarried⟩, by simp [hnew], by simp [hnew], ?_⟩
    have hreturns : ¬(b = .mySQL ∧ s.newFK = []) := by
      rintro ⟨rfl, h⟩
      simp [h] at hfk
    rw [if_neg hreturns] at hlog
    exact ⟨0, _, _, [], hlog, hcarried, by cases b <;> simp <;> rfl⟩

def recorder : Dbms Unit := ⟨fun _ _ => .ok (), fun _ => .ok (), fun _ => .ok ()⟩

theorem recorder_accepting : Accepting recorder :=
  fun _ => ⟨fun _ => ⟨(), rfl⟩, ⟨(), rfl⟩, ⟨(), rfl⟩⟩

def ordersField : FKField :=
  { fkId := 0, fkName := "fk".toList, origSchema := [], tableName := "orders".toList,
    originalField := "customer".toList, refSchema := [], refTable := "customers".toList,
    referencedField := "id".toList, origFields := ["customer".toList], refFields := ["id".toList],
    updateConstraint := .noAction, deleteConstraint := .noAction }

def ordersSession : Session Unit :=
  { server := (), executed := [], hstmt := false,
    table :=
      { schemaName := "shop".toList, tableName := "orders".toList, foreignKeys := .ofEntries [(1, [ordersField])] },
    command := [], newFK := [ordersField], errorMsg := [] }

def ordersCall (isNew : Bool) : ForeignKeyCall :=
  { keyName := "fk".toList, foreignKeyFields := ["customer".toList], refTableName := "customers".toList,
    refKeyFields := ["id".toList], deleteProp := 0, updateProp := 0, logOnly := false, isNew := isNew,
    matchOption := 2 }

theorem mySQL_add_meetsContract : MeetsContract .mySQL recorder (ordersCall true) ordersSession :=
  (meetsContract_iff .mySQL recorder_accepting _ _).mpr ⟨rfl, .inl (by decide)⟩

theorem postgres_replace_fails_contract :
    Accepting recorder ∧ ¬ MeetsContract .postgres recorder (ordersCall false) ordersSession := by
  refine ⟨recorder_accepting, fun h => ?_⟩
  obtain ⟨drop, add, -, -, hexec⟩ := h.replace rfl (by decide)
  -- only the DROP is sent
  have hone : (Backend.postgres.applyForeignKey recorder (ordersCall false) ordersSession).state.executed.length = 1 := rfl
  have htwo := congrArg List.length hexec
  exact absurd (hone.symm.trans htwo) (by simp [ordersSession])

end DbHandler.AlterTable
