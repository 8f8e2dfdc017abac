import DbHandler.Foundation.Runs
import DbHandler.AlterTable.KeyMap

namespace DbHandler.AlterTable

open Foundation Foundation.Runs

variable {δ : Type} {dbms : Dbms δ}

inductive KeyEvent
  | apply (c : ForeignKeyCall) (newFK : List FKField)
  | drop (keyName : Text)

/-- A call that is carried out and reports success; any other call is no step of a run. -/
def keyStep (b : Backend) (dbms : Dbms δ) (s : Session δ) : KeyEvent → Option (Session δ)
  | .apply c newFK =>
    match b.applyForeignKey dbms { c with logOnly := false } { s with newFK := newFK } with
    | .returned 0 t => some t
    | _ => none
  | .drop keyName =>
    match b.dropForeignKey dbms keyName false s with
    | (0, t) => some t
    | _ => none

def KeyEvent.keyName : KeyEvent → Text
  | .apply c _ => c.keyName
  | .drop keyName => keyName

def KeyStepKeeps (catalog : ForeignKeyCatalog dbms) (s : Session δ) (e : KeyEvent) (t : Session δ) : Prop :=
  MapAgrees t.table.foreignKeys (catalog.constraints t.server) ∧
    OthersKept e.keyName s.table.foreignKeys t.table.foreignKeys

def Backend.freshKey : Backend → ForeignKeyMap → ℕ
  | .odbc _, m => m.size
  | _, m => m.size + 1

def ForeignKeyCall.columns (c : ForeignKeyCall) : List (Text × Text) := c.foreignKeyFields.zip c.refKeyFields

def newRefTable (newFK : List FKField) : Text := (newFK.head?.map (·.refTable)).getD []

def KeyCondition (b : Backend) (m : ForeignKeyMap) : KeyEvent → Prop
  | .drop _ => False
  | .apply c newFK =>
    if c.isNew then
      (newFK = [] ∧ ∃ subtype, b = .odbc subtype) ∨
        (b.freshKey m ∉ m.keys ∧ c.columns = newFK.map (·.columns) ∧ c.refTableName = newRefTable newFK)
    else
      b ≠ .postgres ∧ newFK ≠ [] ∧ c.columns ≠ [] ∧ c.refTableName = newRefTable newFK ∧
        ∃ fk fields, (b.freshKey m, fk :: fields) ∈ m.entries ∧ fk.fkName = c.keyName ∧
          fk.refTable = newRefTable newFK ∧ fields.map (·.columns) ++ c.columns = newFK.map (·.columns)

theorem execute_eq_ok {statement : Statement} {s t : Session δ} (h : s.execute dbms statement = .ok t) :
    dbms.exec s.server statement = .ok t.server ∧ t.table = s.table ∧ t.newFK = s.newFK := by
  rw [Session.execute] at h
  cases hexec : dbms.exec s.server statement with
  | error err => simp [hexec, Except.map] at h
  | ok d =>
    rw [hexec, Except.map] at h
    obtain rfl := Except.ok.inj h
    exact ⟨rfl, rfl, rfl⟩

theorem allocStatement_eq_ok (catalog : ForeignKeyCatalog dbms) {s t : Session δ}
    (h : s.allocStatement dbms = .ok t) :
    catalog.constraints t.server = catalog.constraints s.server ∧ t.table = s.table ∧ t.newFK = s.newFK := by
  rw [Session.allocStatement] at h
  cases halloc : dbms.allocHandle s.server with
  | error err => simp [halloc, Except.map] at h
  | ok d =>
    rw [halloc, Except.map] at h
    obtain rfl := Except.ok.inj h
    exact ⟨catalog.allocHandle halloc, rfl, rfl⟩

theorem freeStatement_eq_zero (catalog : ForeignKeyCatalog dbms) {result : ℕ} {s t : Session δ}
    (h : s.freeStatement dbms result = (0, t)) :
    result = 0 ∧ catalog.constraints t.server = catalog.constraints s.server ∧ t.table = s.table ∧
      t.newFK = s.newFK := by
  rw [Session.freeStatement] at h
  cases hfree : dbms.freeHandle s.server with
  | error err => simp [hfree] at h
  | ok d =>
    rw [hfree] at h
    obtain ⟨rfl, rfl⟩ := Prod.mk.inj h
    exact ⟨rfl, catalog.freeHandle hfree, rfl, rfl⟩

structure Dropped (catalog : ForeignKeyCatalog dbms) (keyName : Text) (s t : Session δ) : Prop where
  foreignKeys : t.table.foreignKeys = removeForeignKeyField keyName s.table.foreignKeys
  constraints : ∃ c, c.name = keyName ∧ catalog.constraints s.server = c ::ₘ catalog.constraints t.server
  newFK : t.newFK = s.newFK

theorem dropForeignKey_dropped (catalog : ForeignKeyCatalog dbms) {b : Backend} {keyName : Text} {s t : Session δ}
    (h : b.dropForeignKey dbms keyName false s = (0, t)) : Dropped catalog keyName s t := by
  cases b with
  | postgres =>
    rw [Backend.dropForeignKey, Postgres.dropForeignKey] at h
    cases hexec : s.execute dbms (Postgres.dropStatement s.table keyName) with
    | error err => simp [hexec] at h
    | ok u =>
      obtain ⟨hu, htable, hnew⟩ := execute_eq_ok hexec
      obtain rfl : _ = t := by simpa [hexec] using h
      exact ⟨by rw [← htable]; rfl, catalog.drop hu rfl, hnew⟩
  | mySQL =>
    rw [Backend.dropForeignKey, MySQL.dropForeignKey] at h
    cases hexec : s.execute dbms (MySQL.dropStatement s.table keyName) with
    | error err => simp [hexec] at h
    | ok u =>
      obtain ⟨hu, htable, hnew⟩ := execute_eq_ok hexec
      obtain rfl : _ = t := by simpa [hexec] using h
      exact ⟨by rw [← htable]; rfl, catalog.drop hu rfl, hnew⟩
  | odbc subtype =>
    rw [Backend.dropForeignKey, Odbc.dropForeignKey] at h
    cases halloc : s.allocStatement dbms with
    | error err => simp [halloc] at h
    | ok u =>
      obtain ⟨hconstraints, hutable, hunew⟩ := allocStatement_eq_ok catalog halloc
      cases hexec : u.execute dbms (Odbc.dropStatement s.table keyName) with
      | error err =>
        simp only [halloc, hexec] at h
        exact absurd (freeStatement_eq_zero catalog h).1 (by decide)
      | ok v =>
        obtain ⟨hv, hvtable, hvnew⟩ := execute_eq_ok hexec
        simp only [halloc, hexec] at h
        obtain ⟨-, hfree, htable, hnew⟩ := freeStatement_eq_zero catalog h
        refine ⟨?_, ?_, ?_⟩
        · rw [htable, ← hutable, ← hvtable]
          rfl
        · rw [hfree, ← hconstraints]
          exact catalog.drop hv rfl
        · rw [hnew, ← hunew, ← hvnew]
          rfl

structure Added (catalog : ForeignKeyCatalog dbms) (key : ℕ) (c : ForeignKeyCall) (s t : Session δ) : Prop where
  nonempty : s.newFK ≠ []
  constraints : catalog.constraints t.server =
    newConstraint c.keyName s.newFK ::ₘ catalog.constraints s.server
  foreignKeys : c.columns ≠ [] → ∃ fields, fields.map (·.columns) = c.columns ∧
    (∀ fk ∈ fields, fk.fkName = c.keyName ∧ fk.refTable = c.refTableName) ∧
      t.table.foreignKeys = s.table.foreignKeys.upsert key fun old => old.getD [] ++ fields

theorem fields_columns (c : ForeignKeyCall) (tableName : Text) (newFK : List FKField) (updProp : FkOnUpdate)
    (delProp : FkOnDelete) (matchOption : ℤ) :
    (c.fields tableName newFK updProp delProp matchOption).map (·.columns) = c.columns := by
  rw [ForeignKeyCall.columns, ForeignKeyCall.fields]
  apply List.ext_getElem <;> simp [FKField.columns]

theorem fields_named {c : ForeignKeyCall} {tableName : Text} {newFK : List FKField} {updProp : FkOnUpdate}
    {delProp : FkOnDelete} {matchOption : ℤ} {fk : FKField}
    (h : fk ∈ c.fields tableName newFK updProp delProp matchOption) :
    fk.fkName = c.keyName ∧ fk.refTable = c.refTableName := by
  rw [ForeignKeyCall.fields, List.mem_mapIdx] at h
  obtain ⟨i, hi, rfl⟩ := h
  exact ⟨rfl, rfl⟩

theorem storeForeignKey_added (catalog : ForeignKeyCatalog dbms) {key code : ℕ} {c : ForeignKeyCall}
    {updProp : FkOnUpdate} {delProp : FkOnDelete} {matchOption : ℤ} {statement : Statement} {s t u : Session δ}
    (hexec : s.execute dbms statement = .ok t)
    (heffect : statement.effect = .addForeignKey (newConstraint c.keyName s.newFK))
    (h : storeForeignKey key c updProp delProp matchOption t = .returned code u) :
    Added catalog key c s u := by
  obtain ⟨hserver, htable, hnew⟩ := execute_eq_ok hexec
  obtain ⟨hcolumns, hconstraints⟩ := catalog.add hserver heffect
  rw [storeForeignKey] at h
  split_ifs at h with hlength
  obtain ⟨-, rfl⟩ := Outcome.returned.inj h
  refine ⟨?_, hconstraints, fun hne => ?_⟩
  · simpa [newConstraint] using hcolumns
  · have hcols := fields_columns c t.table.tableName t.newFK updProp delProp matchOption
    refine ⟨_, hcols, fun fk hfk => fields_named hfk, ?_⟩
    change pushForeignKeyFields key _ t.table.foreignKeys = _
    rw [← htable]
    refine pushForeignKeyFields_eq key _ fun hnil => hne ?_
    rw [← hcols, hnil, List.map_nil]

def Started (b : Backend) (dbms : Dbms δ) (c : ForeignKeyCall) (s u : Session δ) : Prop :=
  if c.isNew then u = s else b.dropForeignKey dbms c.keyName false s = (0, u)

theorem started_of_eq {b : Backend} {c : ForeignKeyCall} {s u : Session δ}
    (h : (if c.isNew then (0, s) else b.dropForeignKey dbms c.keyName false s) = (0, u)) :
    Started b dbms c s u := by
  rw [Started]
  split_ifs at h ⊢
  · exact (Prod.mk.inj h).2.symm
  · exact h

theorem postgres_added (catalog : ForeignKeyCatalog dbms) {c : ForeignKeyCall} {s t : Session δ}
    (hlog : c.logOnly = false) (hnew : c.isNew = true)
    (h : Postgres.applyForeignKey dbms c s = .returned 0 t) :
    Added catalog (s.table.foreignKeys.size + 1) c s t := by
  rw [Postgres.applyForeignKey, hlog, hnew] at h
  simp only [if_true, Bool.not_false, beq_self_eq_true, Bool.and_self] at h
  cases hexec : s.execute dbms (Postgres.addStatement s.table s.newFK c) with
  | error err => simp [hexec] at h
  | ok u =>
    simp only [hexec] at h
    rw [← (execute_eq_ok hexec).2.1]
    exact storeForeignKey_added catalog hexec rfl h

theorem started_table (catalog : ForeignKeyCatalog dbms) {b : Backend} {c : ForeignKeyCall} {s u : Session δ}
    (h : Started b dbms c s u) : u.newFK = s.newFK := by
  rw [Started] at h
  split_ifs at h
  · rw [h]
  · exact (dropForeignKey_dropped catalog h).newFK

theorem mySQL_added (catalog : ForeignKeyCatalog dbms) {c : ForeignKeyCall} {s t : Session δ}
    (hlog : c.logOnly = false) (h : MySQL.applyForeignKey dbms c s = .returned 0 t) :
    ∃ u, Started .mySQL dbms c s u ∧ Added catalog (u.table.foreignKeys.size + 1) c u t := by
  rcases hstart : (if c.isNew then (0, s) else MySQL.dropForeignKey dbms c.keyName false s) with ⟨result, u⟩
  simp only [MySQL.applyForeignKey, hlog, hstart] at h
  split_ifs at h with hempty hcond
  · obtain rfl : result = 0 := by simpa using hcond
    have hstarted := started_of_eq (b := .mySQL) hstart
    refine ⟨u, hstarted, ?_⟩
    have hnewFK := started_table catalog hstarted
    cases hexec : u.execute dbms (MySQL.addStatement s.table s.newFK c) with
    | error err => simp [hexec] at h
    | ok v =>
      simp only [hexec] at h
      obtain ⟨code, w, hstore, hreload⟩ := Outcome.bind_eq_returned h
      obtain ⟨-, rfl⟩ := Outcome.returned.inj hreload
      rw [← (execute_eq_ok hexec).2.1]
      have hadded := storeForeignKey_added catalog hexec (by rw [hnewFK]; rfl) hstore
      refine ⟨hadded.nonempty, hadded.constraints, fun hne => ?_⟩
      obtain ⟨fields, hcolumns, hnamed, hmap⟩ := hadded.foreignKeys hne
      refine ⟨fields, hcolumns, hnamed, ?_⟩
      change w.table.foreignKeys.upsert _ _ = _
      rw [hmap, (execute_eq_ok hexec).2.1, OrderedMap.upsert_upsert]
      rfl
  · obtain rfl : result = 0 := (Outcome.returned.inj h).1
    simp at hcond

theorem odbc_added (catalog : ForeignKeyCatalog dbms) {subtype : Text} {c : ForeignKeyCall} {s t : Session δ}
    (hlog : c.logOnly = false) (hfk : s.newFK ≠ [])
    (h : Odbc.applyForeignKey subtype dbms c s = .returned 0 t) :
    ∃ u, Started (.odbc subtype) dbms c s u ∧ Added catalog u.table.foreignKeys.size c u t := by
  rcases hstart : (if c.isNew then (0, s) else Odbc.dropForeignKey dbms c.keyName false s) with ⟨result, u⟩
  simp only [Odbc.applyForeignKey, hlog, hstart, Bool.false_eq_true, if_false] at h
  split_ifs at h with hzero hcond
  · obtain rfl : result = 0 := (Outcome.returned.inj h).1
    simp at hzero
  · obtain rfl : result = 0 := by simpa using hzero
    have hstarted := started_of_eq (b := .odbc subtype) hstart
    refine ⟨u, hstarted, ?_⟩
    have hnewFK := started_table catalog hstarted
    cases halloc : u.allocStatement dbms with
    | error err => simp [halloc] at h
    | ok v =>
      obtain ⟨hvconstraints, hvtable, hvnew⟩ := allocStatement_eq_ok catalog halloc
      simp only [halloc] at h
      obtain ⟨code, w, hstored, hfree⟩ := Outcome.bind_eq_returned h
      obtain ⟨hcode, rfl⟩ := Outcome.returned.inj hfree
      obtain ⟨rfl, hwconstraints, hwtable, -⟩ := freeStatement_eq_zero catalog (Prod.ext hcode rfl)
      cases hexec : v.execute dbms (Odbc.addStatement subtype s.table s.newFK c) with
      | error err => simp [hexec] at hstored
      | ok x =>
        simp only [hexec] at hstored
        have hadded := storeForeignKey_added catalog hexec (by rw [hvnew, hnewFK]; rfl) hstored
        rw [← hvtable, ← (execute_eq_ok hexec).2.1]
        refine ⟨by rw [← hvnew]; exact hadded.nonempty, ?_, fun hne => ?_⟩
        · rw [hwconstraints, hadded.constraints, hvconstraints, hvnew]
        · rw [hwtable, ← hvtable]
          exact hadded.foreignKeys hne
  · obtain rfl : result = 0 := by simpa using hzero
    have hnewFK := started_table catalog (started_of_eq (b := .odbc subtype) hstart)
    simp [hnewFK, hfk] at hcond

theorem newKey_added (catalog : ForeignKeyCatalog dbms) {b : Backend} {c : ForeignKeyCall} {s t : Session δ}
    (hlog : c.logOnly = false) (hnew : c.isNew = true) (h : b.applyForeignKey dbms c s = .returned 0 t) :
    (s.newFK = [] ∧ t = s) ∨ Added catalog (b.freshKey s.table.foreignKeys) c s t := by
  have hsame : ∀ {b : Backend} {u : Session δ}, Started b dbms c s u → u = s := by
    intro b u hu
    rwa [Started, if_pos hnew] at hu
  cases b with
  | postgres => exact .inr (postgres_added catalog hlog hnew h)
  | mySQL =>
    obtain ⟨u, hu, hadded⟩ := mySQL_added catalog hlog h
    rw [hsame hu] at hadded
    exact .inr hadded
  | odbc subtype =>
    by_cases hfk : s.newFK = []
    · refine .inl ⟨hfk, ?_⟩
      simpa [Backend.applyForeignKey, Odbc.applyForeignKey, hlog, hnew, hfk, eq_comm] using h
    · obtain ⟨u, hu, hadded⟩ := odbc_added catalog hlog hfk h
      rw [hsame hu] at hadded
      exact .inr hadded

theorem replaced_added (catalog : ForeignKeyCatalog dbms) {b : Backend} {c : ForeignKeyCall} {s t : Session δ}
    (hlog : c.logOnly = false) (hnew : c.isNew = false) (hb : b ≠ .postgres) (hfk : s.newFK ≠ [])
    (h : b.applyForeignKey dbms c s = .returned 0 t) :
    ∃ u, Dropped catalog c.keyName s u ∧ Added catalog (b.freshKey u.table.foreignKeys) c u t := by
  have hdropped : ∀ {b : Backend} {u : Session δ}, Started b dbms c s u → Dropped catalog c.keyName s u := by
    intro b u hu
    rw [Started, if_neg (by simp [hnew])] at hu
    exact dropForeignKey_dropped catalog hu
  cases b with
  | postgres => exact absurd rfl hb
  | mySQL =>
    obtain ⟨u, hu, hadded⟩ := mySQL_added catalog hlog h
    exact ⟨u, hdropped hu, hadded⟩
  | odbc subtype =>
    obtain ⟨u, hu, hadded⟩ := odbc_added catalog hlog hfk h
    exact ⟨u, hdropped hu, hadded⟩

theorem represents_newConstraint {keyName : Text} {newFK fields : List FKField} (hfk : newFK ≠ [])
    (hcolumns : fields.map (·.columns) = newFK.map (·.columns))
    (hnamed : ∀ fk ∈ fields, fk.fkName = keyName ∧ fk.refTable = newRefTable newFK) :
    Represents fields (newConstraint keyName newFK) := by
  refine ⟨?_, hnamed, hcolumns⟩
  rintro rfl
  exact hfk (List.map_eq_nil_iff.mp hcolumns.symm)

theorem added_keeps {catalog : ForeignKeyCatalog dbms} {key : ℕ} {c : ForeignKeyCall} {s t : Session δ}
    (hs : MapAgrees s.table.foreignKeys (catalog.constraints s.server)) (hadded : Added catalog key c s t)
    (hkey : key ∉ s.table.foreignKeys.keys) (hcolumns : c.columns = s.newFK.map (·.columns))
    (href : c.refTableName = newRefTable s.newFK) :
    MapAgrees t.table.foreignKeys (catalog.constraints t.server) ∧
      OthersKept c.keyName s.table.foreignKeys t.table.foreignKeys := by
  have hne : c.columns ≠ [] := by simpa [hcolumns] using hadded.nonempty
  obtain ⟨fields, hfields, hnamed, hmap⟩ := hadded.foreignKeys hne
  have hrep : Represents fields (newConstraint c.keyName s.newFK) :=
    represents_newConstraint hadded.nonempty (hfields.trans hcolumns) (by rwa [← href])
  rw [hmap, hadded.constraints]
  refine ⟨mapAgrees_upsert_fresh hs hkey hrep, othersKept_upsert_fresh hkey ?_⟩
  obtain ⟨fk, hfk⟩ := List.exists_mem_of_ne_nil _ hrep.nonempty
  exact ⟨fk, hfk, (hnamed fk hfk).1⟩

theorem replaced_keeps {catalog : ForeignKeyCatalog dbms} {key : ℕ} {c : ForeignKeyCall} {s u t : Session δ}
    {fk : FKField} {fields : List FKField}
    (hs : MapAgrees s.table.foreignKeys (catalog.constraints s.server)) (hdropped : Dropped catalog c.keyName s u)
    (hadded : Added catalog key c u t) (hentry : (key, fk :: fields) ∈ s.table.foreignKeys.entries)
    (hname : fk.fkName = c.keyName) (hfkref : fk.refTable = newRefTable s.newFK) (hne : c.columns ≠ [])
    (hcolumns : fields.map (·.columns) ++ c.columns = s.newFK.map (·.columns))
    (href : c.refTableName = newRefTable s.newFK) :
    MapAgrees t.table.foreignKeys (catalog.constraints t.server) ∧
      OthersKept c.keyName s.table.foreignKeys t.table.foreignKeys := by
  obtain ⟨before, after, hentries⟩ := List.append_of_mem hentry
  obtain ⟨old, others, hconstraints, hrep, hrel, hothers⟩ :=
    mapAgrees_split hs (catalog.names_nodup _) hentries
  have holdname : old.name = c.keyName := by rw [← (hrep.named fk (by simp)).1, hname]
  rw [holdname] at hothers
  -- the constraint that the server dropped is the one this entry held
  have hserver : catalog.constraints u.server = others := by
    obtain ⟨dropped, hdropname, hdrop⟩ := hdropped.constraints
    have hnodup := catalog.names_nodup s.server
    rw [hconstraints, Multiset.map_cons, Multiset.nodup_cons] at hnodup
    rw [hconstraints] at hdrop
    rcases Multiset.cons_eq_cons.mp hdrop with ⟨-, h⟩ | ⟨hne, rest, h, -⟩
    · exact h.symm
    · refine absurd (Multiset.mem_map.mpr ⟨dropped, ?_, hdropname.trans holdname.symm⟩) hnodup.1
      rw [h]
      exact Multiset.mem_cons_self _ _
  obtain ⟨added, hadd, hnamed, hmap⟩ := hadded.foreignKeys hne
  have hleft := removeForeignKeyField_entries hentries hname fun e he => hothers e (by simp [he])
  rw [← hdropped.foreignKeys] at hleft
  have hresult : t.table.foreignKeys.entries = before ++ (key, fields ++ added) :: after := by
    rw [hmap]
    exact OrderedMap.upsert_entries_of_append hleft
  have hnamedall : ∀ fk' ∈ fields ++ added, fk'.fkName = c.keyName ∧ fk'.refTable = newRefTable s.newFK := by
    intro fk' hfk'
    rcases List.mem_append.mp hfk' with h | h
    · obtain ⟨hn, hr⟩ := hrep.named fk' (List.mem_cons_of_mem _ h)
      exact ⟨hn.trans holdname, by rw [hr, ← (hrep.named fk (by simp)).2, hfkref]⟩
    · exact ⟨(hnamed fk' h).1, (hnamed fk' h).2.trans href⟩
  have hnew : Represents (fields ++ added) (newConstraint c.keyName s.newFK) := by
    refine represents_newConstraint (by rw [← hdropped.newFK]; exact hadded.nonempty) ?_ hnamedall
    rw [List.map_append, hadd, hcolumns]
  constructor
  · rw [hadded.constraints, hserver, hdropped.newFK]
    refine mapAgrees_of_perm (hresult ▸ List.perm_middle) ?_
    simpa using Multiset.Rel.cons hnew hrel
  · intro k v hv
    have hdiffers : ∀ w : List FKField, (∃ fk ∈ w, fk.fkName = c.keyName) → (k, v) ≠ (key, w) := by
      rintro w ⟨fk, hfk, hfkname⟩ heq
      obtain ⟨-, rfl⟩ := Prod.mk.inj heq
      exact hv fk hfk hfkname
    obtain ⟨fk', hfk'⟩ := List.exists_mem_of_ne_nil _ hnew.nonempty
    have hne₁ := hdiffers (fields ++ added) ⟨fk', hfk', (hnamedall fk' hfk').1⟩
    have hne₂ := hdiffers (fk :: fields) ⟨fk, by simp, hname⟩
    simp only [hresult, hentries, List.mem_append, List.mem_cons, hne₁, hne₂, false_or]

theorem dropped_disagrees {catalog : ForeignKeyCatalog dbms} {keyName : Text} {s t : Session δ}
    (hs : MapAgrees s.table.foreignKeys (catalog.constraints s.server)) (h : Dropped catalog keyName s t) :
    ¬ MapAgrees t.table.foreignKeys (catalog.constraints t.server) := by
  intro ht
  obtain ⟨c, -, hconstraints⟩ := h.constraints
  -- the key of the dropped constraint stays, so there is one key too many
  have hsize : t.table.foreignKeys.size = s.table.foreignKeys.size := by
    rw [h.foreignKeys]
    exact OrderedMap.updateFirst_size _ _
  have hcard := Multiset.card_eq_card_of_rel hs
  have hcard' := Multiset.card_eq_card_of_rel ht
  simp only [OrderedMap.values, Multiset.coe_card, List.length_map, hconstraints, Multiset.card_cons] at hcard hcard'
  simp only [OrderedMap.size] at hsize
  omega

theorem keyStep_keeps (catalog : ForeignKeyCatalog dbms) (b : Backend) (s : Session δ) (e : KeyEvent)
    (t : Session δ) (hs : MapAgrees s.table.foreignKeys (catalog.constraints s.server))
    (hstep : keyStep b dbms s e = some t) (hcond : KeyCondition b s.table.foreignKeys e) :
    KeyStepKeeps catalog s e t := by
  cases e with
  | drop keyName => exact hcond.elim
  | apply c newFK =>
    have h : b.applyForeignKey dbms { c with logOnly := false } { s with newFK := newFK } = .returned 0 t := by
      rw [keyStep] at hstep
      split at hstep
      · next heq => rw [heq, Option.some.inj hstep]
      · cases hstep
    cases hnew : c.isNew with
    | true =>
      rw [KeyCondition, if_pos hnew] at hcond
      rcases newKey_added catalog (c := { c with logOnly := false }) rfl hnew h with ⟨-, rfl⟩ | hadded
      · exact ⟨hs, fun _ _ _ => Iff.rfl⟩
      · rcases hcond with ⟨rfl, -⟩ | ⟨hkey, hcolumns, href⟩
        · exact absurd rfl hadded.nonempty
        · exact added_keeps (c := { c with logOnly := false }) (s := { s with newFK := newFK }) hs hadded hkey hcolumns href
    | false =>
      rw [KeyCondition, if_neg (by simp [hnew])] at hcond
      obtain ⟨hb, hfk, hne, href, fk, fields, hentry, hname, hfkref, hcolumns⟩ := hcond
      obtain ⟨u, hdropped, hadded⟩ :=
        replaced_added catalog (c := { c with logOnly := false }) (s := { s with newFK := newFK }) rfl hnew hb hfk h
      have hsize : b.freshKey u.table.foreignKeys = b.freshKey s.table.foreignKeys := by
        have hu := congrArg OrderedMap.size hdropped.foreignKeys
        rw [removeForeignKeyField, OrderedMap.updateFirst_size] at hu
        cases b <;> simp only [Backend.freshKey, hu]
      rw [hsize] at hadded
      exact replaced_keeps (c := { c with logOnly := false }) (s := { s with newFK := newFK })
        hs hdropped hadded hentry hname hfkref hne hcolumns href

theorem foreignKeyMap_follows_server (catalog : ForeignKeyCatalog dbms) (b : Backend) {s : Session δ}
    (hs : MapAgrees s.table.foreignKeys (catalog.constraints s.server)) (es : List KeyEvent)
    (hes : EachStep (keyStep b dbms) (fun t e _ => KeyCondition b t.table.foreignKeys e) s es) :
    Throughout (keyStep b dbms) (fun t => MapAgrees t.table.foreignKeys (catalog.constraints t.server)) s es ∧
      EachStep (keyStep b dbms) (KeyStepKeeps catalog) s es := by
  have hkeeps : EachStep (keyStep b dbms) (KeyStepKeeps catalog) s es :=
    eachStep_of_condition (P := fun t => MapAgrees t.table.foreignKeys (catalog.constraints t.server))
      (fun _ _ _ _ _ h => h.1) (keyStep_keeps catalog b) hs es hes
  refine ⟨(throughout_iff _ s es).mpr ⟨hs, ?_⟩, hkeeps⟩
  exact fun pre e hpre t u ht hu => (hkeeps pre e hpre t u ht hu).1

structure ServerTable where
  constraints : List Constraint
  names_nodup : (constraints.map (·.name)).Nodup

def ServerTable.exec (d : ServerTable) (statement : Statement) : Except Text ServerTable :=
  match statement.effect with
  | .addForeignKey c =>
    if h : c.columns ≠ [] ∧ c.name ∉ d.constraints.map (·.name) then
      .ok ⟨c :: d.constraints, List.nodup_cons.mpr ⟨h.2, d.names_nodup⟩⟩
    else .error "refused".toList
  | .dropForeignKey name =>
    if name ∈ d.constraints.map (·.name) then
      .ok ⟨d.constraints.eraseP (·.name = name), d.names_nodup.sublist (List.eraseP_sublist.map _)⟩
    else .error "refused".toList

def tableServer : Dbms ServerTable := ⟨ServerTable.exec, .ok, .ok⟩

def tableCatalog : ForeignKeyCatalog tableServer where
  constraints d := d.constraints
  names_nodup d := by simpa using d.names_nodup
  add {d d' statement c} h heffect := by
    simp only [tableServer, ServerTable.exec, heffect] at h
    split_ifs at h with hc
    obtain rfl := Except.ok.inj h
    exact ⟨hc.1, rfl⟩
  drop {d d' statement name} h heffect := by
    simp only [tableServer, ServerTable.exec, heffect] at h
    split_ifs at h with hname
    obtain rfl := Except.ok.inj h
    obtain ⟨c, hc, rfl⟩ := List.mem_map.mp hname
    obtain ⟨c', before, after, -, hc', heq, herase⟩ := List.exists_of_eraseP hc (p := (·.name = c.name)) (by simp)
    refine ⟨c', by simpa using hc', ?_⟩
    change (d.constraints : Multiset Constraint) = c' ::ₘ (d.constraints.eraseP (·.name = c.name) : List Constraint)
    rw [herase, heq, Multiset.cons_coe, Multiset.coe_eq_coe]
    exact List.perm_middle
  allocHandle h := by
    obtain rfl := Except.ok.inj h
    rfl
  freeHandle h := by
    obtain rfl := Except.ok.inj h
    rfl

def invoiceField (name column : Text) : FKField :=
  { fkId := 0, fkName := name, origSchema := [], tableName := "invoice".toList, originalField := column,
    refSchema := [], refTable := "client".toList, referencedField := column, origFields := [column],
    refFields := [column], updateConstraint := .noAction, deleteConstraint := .noAction }

def invoiceFK : List FKField := [invoiceField "fk_a".toList "a".toList]

def invoiceSession : Session ServerTable :=
  { server := ⟨[newConstraint "fk_a".toList invoiceFK], by simp⟩, executed := [], hstmt := false,
    table := { schemaName := "public".toList, tableName := "invoice".toList, foreignKeys := .ofEntries [(1, invoiceFK)] },
    command := [], newFK := [], errorMsg := [] }

theorem invoiceSession_agrees :
    MapAgrees invoiceSession.table.foreignKeys (tableCatalog.constraints invoiceSession.server) := by
  have hrep : Represents invoiceFK (newConstraint "fk_a".toList invoiceFK) :=
    represents_newConstraint (by simp [invoiceFK]) rfl (by decide)
  exact Multiset.Rel.cons hrep .zero

def addTwoColumns : KeyEvent :=
  .apply
    { keyName := "fk_bc".toList, foreignKeyFields := ["b".toList, "c".toList], refTableName := "client".toList,
      refKeyFields := ["b".toList, "c".toList], deleteProp := 0, updateProp := 2, logOnly := false,
      isNew := true, matchOption := 2 }
    [invoiceField "fk_bc".toList "b".toList, invoiceField "fk_bc".toList "c".toList]

theorem add_follows_server :
    Throughout (keyStep .postgres tableServer)
      (fun t => MapAgrees t.table.foreignKeys (tableCatalog.constraints t.server))
      invoiceSession [addTwoColumns] := by
  refine (foreignKeyMap_follows_server tableCatalog .postgres invoiceSession_agrees _ ?_).1
  rw [eachStep_cons]
  exact fun t ht => ⟨.inr (by decide), eachStep_nil _ _⟩

theorem drop_leaves_key :
    MapAgrees invoiceSession.table.foreignKeys (tableCatalog.constraints invoiceSession.server) ∧
      ¬ Throughout (keyStep .postgres tableServer)
        (fun t => MapAgrees t.table.foreignKeys (tableCatalog.constraints t.server))
        invoiceSession [.drop "fk_a".toList] := by
  refine ⟨invoiceSession_agrees, fun h => ?_⟩
  obtain ⟨t, ht⟩ : ∃ t, Backend.postgres.dropForeignKey tableServer "fk_a".toList false invoiceSession = (0, t) :=
    ⟨_, rfl⟩
  have hstep : keyStep .postgres tableServer invoiceSession (.drop "fk_a".toList) = some t := by
    simp only [keyStep, ht]
  have hagrees := h [.drop "fk_a".toList] (List.prefix_refl _) t (by rw [run_cons, hstep]; rfl)
  exact dropped_disagrees invoiceSession_agrees (dropForeignKey_dropped tableCatalog ht) hagrees

end DbHandler.AlterTable
