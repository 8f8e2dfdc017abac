import Mathlib.Data.Multiset.Filter
import Mathlib.Data.Multiset.MapFold
import DbHandler.AlterTable.KeyMap
import DbHandler.Foundation.Runs
import DbHandler.Sqlite.WrittenKeys

namespace DbHandler.Sqlite.ForeignKeys

open Foundation Foundation.Journal Foundation.Runs
open AlterTable (ForeignKeyCall pushForeignKeyFields pushForeignKeyFields_eq)

/-- The fields of one key of the map are the columns of one foreign key. -/
structure Represents (fields : List FKField) (key : TextKey) : Prop where
  nonempty : fields ≠ []
  refTable : ∀ fk ∈ fields, fk.refTable = key.refTable
  columns : fields.map FKField.originalField = key.columns
  refColumns : fields.map FKField.referencedField = key.refColumns

def Agrees (m : ForeignKeyMap) (keys : List TextKey) : Prop :=
  Multiset.Rel Represents (m.values : Multiset (List FKField)) (keys : Multiset TextKey)

def refersTo (refTableName : Text) (fields : List FKField) : Bool := fields.any fun fk => fk.refTable = refTableName

structure KeyCall where
  call : ForeignKeyCall
  newFK : List FKField

namespace KeyCall

/-- The entries of the map that the call does not drop. -/
def staying (e : KeyCall) (m : ForeignKeyMap) : List (ℕ × List FKField) :=
  m.entries.filter fun entry => e.call.isNew || !refersTo e.call.refTableName entry.2

def stays (e : KeyCall) (key : TextKey) : Bool := e.call.isNew || decide (key.refTable ≠ e.call.refTableName)

/-- The foreign key that the call adds. -/
def added (e : KeyCall) : List TextKey :=
  match e.newFK with
  | [] => []
  | fk :: fks =>
    [{ columns := (fk :: fks).map FKField.originalField, refTable := fk.refTable,
       refColumns := (fk :: fks).map FKField.referencedField }]

def addedFields (e : KeyCall) (tableName : Text) : List (List FKField) :=
  match e.newFK with
  | [] => []
  | fk :: fks => [keyFields e.call.keyName tableName (fk :: fks)]

end KeyCall

/-- A key is dropped from the statement and from the map alike: the statement can be rewritten, one key of the
map at most references the table, and no column does. -/
structure Droppable (refTableName : Text) (d : TableText) (m : ForeignKeyMap) : Prop where
  removable : d.Removable m.size refTableName
  inClauses : d.InClauses refTableName
  single : m.values.countP (refersTo refTableName) ≤ 1

/-- A key that is added is written as it is meant, and its number in the map is free. -/
structure Addable (e : KeyCall) (m : ForeignKeyMap) (fk : FKField) (fks : List FKField) : Prop where
  writable : Writable e.call fk fks
  fresh : (e.staying m).length ∉ (e.staying m).map Prod.fst

def KeyCondition (sql : Text) (m : ForeignKeyMap) (e : KeyCall) : Prop :=
  e.call.isNew = false ∨ e.newFK ≠ [] →
    ∃ d : TableText, d.text = sql ∧ d.Closed ∧ d.tail = [] ∧ (e.call.isNew = false → Droppable e.call.refTableName d m) ∧
      ∀ fk fks, e.newFK = fk :: fks → Addable e m fk fks

section Matching

variable {α β : Type*} {r : α → β → Prop} {p : α → Bool} {q : β → Bool}

theorem rel_filter {s : Multiset α} {t : Multiset β} (hpq : ∀ a b, r a b → p a = q b) (h : Multiset.Rel r s t) :
    Multiset.Rel r (s.filter (p ·)) (t.filter (q ·)) := by
  induction h with
  | zero => exact .zero
  | @cons a b s t hab h ih =>
    have hsame := hpq a b hab
    cases hp : p a with
    | true =>
      rw [Multiset.filter_cons_of_pos s hp, Multiset.filter_cons_of_pos t (hsame ▸ hp)]
      exact .cons hab ih
    | false =>
      rw [Multiset.filter_cons_of_neg s (by simp [hp]), Multiset.filter_cons_of_neg t (by simp [← hsame, hp])]
      exact ih

end Matching

section Map

variable {m : ForeignKeyMap} {keys : List TextKey} {e : KeyCall} {tableName : Text}

theorem Represents.refersTo_eq {fields : List FKField} {key : TextKey} (h : Represents fields key) (refTableName : Text) :
    refersTo refTableName fields = decide (key.refTable = refTableName) := by
  obtain ⟨fk, fks, rfl⟩ := List.exists_cons_of_ne_nil h.nonempty
  have hfirst := h.refTable fk List.mem_cons_self
  by_cases hkey : key.refTable = refTableName
  · rw [refersTo, List.any_cons, hfirst]
    simp [hkey]
  · rw [decide_eq_false hkey]
    apply List.any_eq_false.mpr
    intro fk' hfk'
    rw [h.refTable fk' hfk']
    simpa using hkey

theorem agrees_staying (e : KeyCall) (h : Agrees m keys) :
    Multiset.Rel Represents ((e.staying m).map Prod.snd : Multiset (List FKField)) (keys.filter e.stays : Multiset TextKey) := by
  have hstays (fields : List FKField) (key : TextKey) (hrep : Represents fields key) :
      (e.call.isNew || !refersTo e.call.refTableName fields) = e.stays key := by
    rw [hrep.refersTo_eq, KeyCall.stays, decide_not]
  have hfilter := rel_filter hstays h
  have hvalues : (e.staying m).map Prod.snd =
      m.values.filter fun fields => e.call.isNew || !refersTo e.call.refTableName fields := by
    rw [OrderedMap.values, List.filter_map]
    rfl
  rw [hvalues]
  simpa [Multiset.filter_coe] using hfilter

/-- The map after the drop of a call. -/
def afterDrop (e : KeyCall) (m : ForeignKeyMap) : ForeignKeyMap :=
  if e.call.isNew then m else eraseReferences e.call.refTableName m

theorem afterDrop_entries (h : e.call.isNew = false → m.values.countP (refersTo e.call.refTableName) ≤ 1) :
    (afterDrop e m).entries = e.staying m := by
  unfold afterDrop KeyCall.staying
  cases hnew : e.call.isNew with
  | true => simp
  | false =>
    have hfilter : (eraseReferences e.call.refTableName m).entries =
        m.entries.filter fun entry => !refersTo e.call.refTableName entry.2 := OrderedMap.eraseFirst_entries_filter (h hnew)
    simp only [Bool.false_eq_true, if_false, Bool.false_or, hfilter]

theorem keyFields_columns (keyName tableName : Text) (newFK : List FKField) :
    (keyFields keyName tableName newFK).map FKField.originalField = newFK.map FKField.originalField ∧
      (keyFields keyName tableName newFK).map FKField.referencedField = newFK.map FKField.referencedField := by
  constructor <;> apply List.ext_getElem <;> simp [keyFields]

theorem keyFields_represents {keyName tableName : Text} {fk : FKField} {fks : List FKField}
    (h : ∀ f ∈ fks, f.refTable = fk.refTable) :
    Represents (keyFields keyName tableName (fk :: fks))
      { columns := (fk :: fks).map FKField.originalField, refTable := fk.refTable,
        refColumns := (fk :: fks).map FKField.referencedField } where
  nonempty := by simp [keyFields]
  refTable f hf := by
    rw [keyFields, List.mem_mapIdx] at hf
    obtain ⟨i, hi, rfl⟩ := hf
    have hall : ∀ f ∈ fk :: fks, f.refTable = fk.refTable := List.forall_mem_cons.mpr ⟨rfl, h⟩
    exact hall (fk :: fks)[i] (List.getElem_mem hi)
  columns := (keyFields_columns keyName tableName (fk :: fks)).1
  refColumns := (keyFields_columns keyName tableName (fk :: fks)).2

theorem storeKey_values {keyName : Text} {newFK : List FKField} (hfresh : m.size ∉ m.keys) (hnew : newFK ≠ []) :
    (storeKey keyName tableName newFK m).values.Perm (keyFields keyName tableName newFK :: m.values) := by
  have hne : keyFields keyName tableName newFK ≠ [] := by
    intro hnil
    have hlength := congrArg List.length hnil
    rw [keyFields, List.length_mapIdx] at hlength
    exact hnew (List.eq_nil_of_length_eq_zero hlength)
  rw [storeKey, pushForeignKeyFields_eq _ _ hne]
  exact (OrderedMap.upsert_entries_perm hfresh).map Prod.snd

/-- What a call leaves in the map: what it did not drop, and the key that it added. -/
theorem values_afterCall (tableName : Text) (hsingle : e.call.isNew = false → m.values.countP (refersTo e.call.refTableName) ≤ 1)
    (hadd : ∀ fk fks, e.newFK = fk :: fks → Addable e m fk fks) :
    (storeKey e.call.keyName tableName e.newFK (afterDrop e m)).values.Perm
      ((e.staying m).map Prod.snd ++ e.addedFields tableName) := by
  have hentries := afterDrop_entries hsingle
  unfold KeyCall.addedFields
  cases hnew : e.newFK with
  | nil =>
    change (afterDrop e m).values.Perm _
    rw [OrderedMap.values, hentries, List.append_nil]
  | cons fk fks =>
    have hfresh : (afterDrop e m).size ∉ (afterDrop e m).keys := by
      rw [OrderedMap.size, OrderedMap.keys, hentries]
      exact (hadd fk fks hnew).fresh
    have hvalues : (afterDrop e m).values = (e.staying m).map Prod.snd := by rw [OrderedMap.values, hentries]
    rw [← hvalues]
    exact (storeKey_values hfresh (List.cons_ne_nil fk fks)).trans (List.perm_append_singleton _ _).symm

theorem agrees_afterCall (tableName : Text) (h : Agrees m keys) (hsingle : e.call.isNew = false → m.values.countP (refersTo e.call.refTableName) ≤ 1)
    (hadd : ∀ fk fks, e.newFK = fk :: fks → Addable e m fk fks) :
    Agrees (storeKey e.call.keyName tableName e.newFK (afterDrop e m)) (keys.filter e.stays ++ e.added) := by
  have hadded : Multiset.Rel Represents (e.addedFields tableName : Multiset (List FKField)) (e.added : Multiset TextKey) := by
    unfold KeyCall.addedFields KeyCall.added
    cases hnew : e.newFK with
    | nil => exact .zero
    | cons fk fks => exact .cons (keyFields_represents (hadd fk fks hnew).writable.same_table) .zero
  have hvalues := values_afterCall tableName hsingle hadd
  rw [Agrees, Multiset.coe_eq_coe.mpr hvalues, ← Multiset.coe_add, ← Multiset.coe_add]
  exact (agrees_staying e h).add hadded

end Map

section Text

variable {sql : Text} {m : ForeignKeyMap} {e : KeyCall}

/-- The drop of a call: what it leaves of the statement and of the map. -/
def dropPart (e : KeyCall) (sql : Text) (m : ForeignKeyMap) : Guarded (Text × ForeignKeyMap) :=
  if e.call.isNew then .ok (sql, m) else dropForeignKey e.call.refTableName sql m

theorem dropPart_eq {d : TableText} (hclosed : d.Closed) (htail : d.tail = [])
    (hdrop : e.call.isNew = false → Droppable e.call.refTableName d m) :
    ∃ d' : TableText, dropPart e d.text m = .ok (d'.text, afterDrop e m) ∧ d'.Closed ∧ d'.tail = [] ∧
      d'.keys = d.keys.filter e.stays := by
  cases hnew : e.call.isNew with
  | true =>
    refine ⟨d, ?_, hclosed, htail, ?_⟩
    · rw [dropPart, afterDrop, if_pos hnew, if_pos hnew]
    · rw [List.filter_eq_self.mpr]
      intro key _
      rw [KeyCall.stays, hnew]
      rfl
  | false =>
    have hdroppable := hdrop hnew
    have hfalse : ¬ e.call.isNew = true := by simp [hnew]
    refine ⟨d.without e.call.refTableName, ?_, closed_without hclosed _, htail, ?_⟩
    · rw [dropPart, afterDrop, if_neg hfalse, if_neg hfalse, dropForeignKey, rewriteSql_removable hdroppable.removable]
      rfl
    · rw [keys_without hdroppable.inClauses]
      congr 1
      funext key
      rw [KeyCall.stays, hnew, Bool.false_or]

theorem addClause_eq {d : TableText} (hclosed : d.Closed) (htail : d.tail = [])
    (hadd : ∀ fk fks, e.newFK = fk :: fks → Writable e.call fk fks) :
    ∃ d' : TableText, addClause e.call e.newFK d.text = .ok d'.text ∧ d'.Closed ∧ d'.keys = d.keys ++ e.added := by
  unfold KeyCall.added
  cases hnew : e.newFK with
  | nil => exact ⟨d, rfl, hclosed, (List.append_nil _).symm⟩
  | cons fk fks =>
    have hwritable := hadd fk fks hnew
    have hitem := closedFrom_clause hwritable
    have hne : d.text ≠ [] := List.append_ne_nil_of_right_ne_nil _ (List.cons_ne_nil _ _)
    refine ⟨d.add _ hitem, ?_, closed_add hitem hclosed, ?_⟩
    · rw [addClause, if_neg hne, constraintClause_eq, text_add hitem htail]
    · rw [keys_add, readKey_clause hwritable]
      rfl

theorem text_afterCall (h : KeyCondition sql m e) : ∃ text written, dropPart e sql m = .ok (text, afterDrop e m) ∧
    addClause e.call e.newFK text = .ok written ∧ keysOfText written = (keysOfText sql).filter e.stays ++ e.added := by
  by_cases hidle : e.call.isNew = true ∧ e.newFK = []
  · refine ⟨sql, sql, ?_, ?_, ?_⟩
    · rw [dropPart, afterDrop, if_pos hidle.1, if_pos hidle.1]
    · rw [hidle.2]
      rfl
    · rw [KeyCall.added, hidle.2, List.append_nil, List.filter_eq_self.mpr]
      intro key _
      rw [KeyCall.stays, hidle.1]
      rfl
  · have hcalled : e.call.isNew = false ∨ e.newFK ≠ [] := by
      rw [not_and_or, Bool.not_eq_true] at hidle
      exact hidle
    obtain ⟨d, rfl, hclosed, htail, hdrop, hadd⟩ := h hcalled
    obtain ⟨d', hdropped, hclosed', htail', hkeys'⟩ := dropPart_eq hclosed htail hdrop
    obtain ⟨d'', hadded, hclosed'', hkeys''⟩ := addClause_eq hclosed' htail' fun fk fks hnew => (hadd fk fks hnew).writable
    refine ⟨_, _, hdropped, hadded, ?_⟩
    rw [keysOfText_text hclosed'', keysOfText_text hclosed, hkeys'', hkeys']

end Text

variable {δ : Type} {client : Client δ}

/-- A client that keeps the statements of its tables and carries out every step: `sql` is the statement stored
under a name. -/
structure SchemaStore (client : Client δ) where
  sql : δ → Text → Text
  exec : ∀ d, ∀ statement ∈ [writableSchema, .begin, .commit, analyze],
    (client.exec d statement).1 = none ∧ sql (client.exec d statement).2 = sql d
  prepare : ∀ d query, (client.prepare d query).1 = none ∧ sql (client.prepare d query).2 = sql d
  bindText : ∀ d query position value,
    (client.bindText d query position value).1 = none ∧ sql (client.bindText d query position value).2 = sql d
  select : ∀ d name, (client.step d (.tableSql name) []).1 = ⟨[[.text (sql d name)]], none⟩ ∧
    sql (client.step d (.tableSql name) []).2 = sql d
  update : ∀ d text name, (client.step d .updateSchema [text, name]).1 = ⟨[], none⟩ ∧
    sql (client.step d .updateSchema [text, name]).2 = Function.update (sql d) name text

namespace SchemaStore

variable (store : SchemaStore client) {s : Session δ}

def tableSql (s : KeySession δ) : Text := store.sql s.session.server s.table.tableName

theorem exec_eq (statement : Statement) (hmem : statement ∈ [writableSchema, .begin, .commit, analyze])
    (hidle : statement.entry = .start → s.active = false) : ∃ t, s.exec client statement = (true, t) ∧
      store.sql t.server = store.sql s.server ∧ t.journal = s.journal ++ [statement.entry] := by
  obtain ⟨hanswer, hsql⟩ := store.exec s.server statement hmem
  have hnested : ¬(statement.entry = .start ∧ s.active = true) := fun h => by
    rw [hidle h.1] at h
    exact Bool.noConfusion h.2
  refine ⟨{ s with server := (client.exec s.server statement).2, journal := s.journal ++ [statement.entry] }, ?_, hsql, rfl⟩
  rw [Session.exec, if_neg hnested, Session.report, hanswer]

theorem prepare_eq (query : Query) : ∃ t, s.prepare client query = (true, t) ∧
    store.sql t.server = store.sql s.server ∧ t.journal = s.journal := by
  obtain ⟨hanswer, hsql⟩ := store.prepare s.server query
  refine ⟨{ s with server := (client.prepare s.server query).2, journal := s.journal ++ [] }, ?_, hsql, List.append_nil _⟩
  rw [Session.prepare, Session.report, hanswer]

theorem bindText_eq (query : Query) (position : ℕ) (value : Text) : ∃ t, s.bindText client query position value = (true, t) ∧
    store.sql t.server = store.sql s.server ∧ t.journal = s.journal := by
  obtain ⟨hanswer, hsql⟩ := store.bindText s.server query position value
  refine ⟨{ s with server := (client.bindText s.server query position value).2, journal := s.journal ++ [] }, ?_, hsql,
    List.append_nil _⟩
  rw [Session.bindText, Session.report, hanswer]

theorem update_eq (text name : Text) : ∃ t, s.run client .updateSchema [text, name] updateSchemaText = (true, t) ∧
    store.sql t.server = Function.update (store.sql s.server) name text ∧
      t.journal = s.journal ++ [.work updateSchemaText] := by
  obtain ⟨hanswer, hsql⟩ := store.update s.server text name
  refine ⟨({ s with server := (client.step s.server .updateSchema [text, name]).2 } : Session δ).perform updateSchemaText,
    ?_, hsql, rfl⟩
  rw [Session.run, Session.step]
  simp only [hanswer]

theorem openSchema_eq (hidle : s.active = false) : ∃ t, openSchema client false s = (true, t) ∧
    store.sql t.server = store.sql s.server ∧ t.active = true := by
  obtain ⟨t, ht, hsql, hjournal⟩ := store.exec_eq writableSchema (by simp) (s := s) nofun
  have hidle' : t.active = false := by
    rw [Session.active, hjournal, replay_append, replay_cons, replay_nil]
    exact (apply_work_active _ _).trans hidle
  obtain ⟨u, hu, hsql', hjournal'⟩ := store.exec_eq .begin (by simp) (s := t) fun _ => hidle'
  refine ⟨u, ?_, hsql'.trans hsql, ?_⟩
  · rw [openSchema, if_neg Bool.false_ne_true, ht]
    exact hu
  · rw [Session.active, hjournal', replay_append]
    rfl

theorem storeSql_eq (text name : Text) : ∃ t, storeSql client text name s = (true, t) ∧
    store.sql t.server = Function.update (store.sql s.server) name text ∧ t.active = false := by
  obtain ⟨t, ht, hsql, hjournal⟩ := store.prepare_eq (s := s) .updateSchema
  obtain ⟨u, hu, hsql', hjournal'⟩ := store.bindText_eq (s := t) .updateSchema 1 text
  obtain ⟨v, hv, hsql'', hjournal''⟩ := store.bindText_eq (s := u) .updateSchema 2 name
  obtain ⟨w, hw, hupdate, -⟩ := store.update_eq (s := v) text name
  obtain ⟨x, hx, hcommit, hended⟩ := store.exec_eq .commit (by simp) (s := w) nofun
  obtain ⟨y, hy, hanalyze, hlast⟩ := store.exec_eq analyze (by simp) (s := x) nofun
  refine ⟨y, ?_, ?_, ?_⟩
  · rw [storeSql, ht]
    dsimp only
    rw [if_pos rfl, hu]
    dsimp only
    rw [if_pos rfl, hv]
    dsimp only
    rw [if_pos rfl, hw]
    dsimp only
    rw [if_pos rfl, hx]
    exact hy
  · rw [hanalyze, hcommit, hupdate, hsql'', hsql', hsql]
  · rw [Session.active, hlast, hended, replay_append, replay_append, replay_cons, replay_nil, replay_cons, replay_nil]
    exact apply_work_active _ _

end SchemaStore

/-- A call that is carried out and reports success; any other call is no step of a run. -/
def keyStep (client : Client δ) (s : KeySession δ) (e : KeyCall) : Option (KeySession δ) :=
  match applyForeignKey client { e.call with logOnly := false } { s with newFK := e.newFK } with
  | .returned 0 t => some t
  | _ => none

/-- What a call does to the foreign keys of the statement, it does to the keys of the map. -/
def KeyStepFollows (store : SchemaStore client) (s : KeySession δ) (e : KeyCall) (t : KeySession δ) : Prop :=
  keysOfText (store.tableSql t) = (keysOfText (store.tableSql s)).filter e.stays ++ e.added ∧
    t.table.foreignKeys.values.Perm
      ((e.staying s.table.foreignKeys).map Prod.snd ++ e.addedFields s.table.tableName)

theorem rewriteSchema_eq (c : ForeignKeyCall) (hlog : c.logOnly = false) (store : SchemaStore client) {sql text written : Text}
    {m : ForeignKeyMap} {s : KeySession δ}
    (hdrop : dropPart ⟨c, s.newFK⟩ sql s.table.foreignKeys = .ok (text, m)) (hadd : addClause c s.newFK text = .ok written) :
    ∃ t, rewriteSchema client c sql s = .returned 0 t ∧ t.session.active = false ∧ store.tableSql t = written ∧
      t.table.foreignKeys = storeKey c.keyName s.table.tableName s.newFK m := by
  have hwrite (u : KeySession δ) (hname : u.table.tableName = s.table.tableName) (hmap : u.table.foreignKeys = m)
      (hfk : u.newFK = s.newFK) : ∃ t, writeSchema client c text u = .returned 0 t ∧ t.session.active = false ∧
        store.tableSql t = written ∧ t.table.foreignKeys = storeKey c.keyName s.table.tableName s.newFK m := by
    obtain ⟨v, hv, hsql, hidle⟩ := store.storeSql_eq (s := u.session) written u.table.tableName
    refine ⟨(u.withSession v).setForeignKeys (storeKey c.keyName u.table.tableName u.newFK u.table.foreignKeys), ?_, hidle,
      ?_, ?_⟩
    · rw [writeSchema, hfk, hadd]
      dsimp only
      rw [hlog, if_neg Bool.false_ne_true, hv]
      dsimp only
      rw [if_pos rfl, ← hfk]
      rfl
    · change store.sql v.server u.table.tableName = written
      rw [hsql, Function.update_self]
    · rw [← hname, ← hmap, ← hfk]
      rfl
  unfold dropPart at hdrop
  rw [rewriteSchema]
  split_ifs at hdrop ⊢ with hnew
  · obtain ⟨rfl, hmap⟩ := Prod.mk.inj (Except.ok.inj hdrop)
    exact hwrite s rfl hmap rfl
  · dsimp only at hdrop
    rw [hdrop]
    exact hwrite (s.setForeignKeys m) rfl rfl rfl

theorem applyForeignKey_eq (c : ForeignKeyCall) (hlog : c.logOnly = false) (store : SchemaStore client) {text written : Text}
    {m : ForeignKeyMap} {s : KeySession δ} (hidle : s.session.active = false)
    (hdrop : dropPart ⟨c, s.newFK⟩ (store.tableSql s) s.table.foreignKeys = .ok (text, m))
    (hadd : addClause c s.newFK text = .ok written) :
    ∃ t, applyForeignKey client c s = .returned 0 t ∧ t.session.active = false ∧ store.tableSql t = written ∧
      t.table.foreignKeys = storeKey c.keyName s.table.tableName s.newFK m := by
  obtain ⟨t, ht, hsql, -⟩ := store.openSchema_eq hidle
  obtain ⟨u, hu, hsql', -⟩ := store.prepare_eq (s := t) (.tableSql s.table.tableName)
  obtain ⟨hrows, -⟩ := store.select u.server s.table.tableName
  have hread : (store.sql u.server s.table.tableName) = store.tableSql s := by rw [hsql', hsql, SchemaStore.tableSql]
  rw [hread] at hrows
  have happly : applyForeignKey client c s =
      rewriteSchema client c (store.tableSql s) (s.withSession (u.step client (.tableSql s.table.tableName) []).2) := by
    rw [applyForeignKey, hlog, ht]
    dsimp only
    rw [if_pos rfl, hu]
    dsimp only
    rw [if_pos rfl, Session.step]
    dsimp only
    rw [hrows]
    rfl
  rw [happly]
  exact rewriteSchema_eq c hlog store hdrop hadd

theorem keyStep_eq (store : SchemaStore client) {s : KeySession δ} {e : KeyCall} {text written : Text} {m : ForeignKeyMap}
    (hidle : s.session.active = false) (hdrop : dropPart e (store.tableSql s) s.table.foreignKeys = .ok (text, m))
    (hadd : addClause e.call e.newFK text = .ok written) :
    ∃ t, keyStep client s e = some t ∧ t.session.active = false ∧ store.tableSql t = written ∧
      t.table.foreignKeys = storeKey e.call.keyName s.table.tableName e.newFK m := by
  obtain ⟨t, ht, hrest⟩ := applyForeignKey_eq (s := { s with newFK := e.newFK }) { e.call with logOnly := false } rfl store
    hidle hdrop hadd
  refine ⟨t, ?_, hrest⟩
  rw [keyStep, ht]
  rfl

theorem keyStep_follows (store : SchemaStore client) {s : KeySession δ} {e : KeyCall}
    (hs : s.session.active = false ∧ Agrees s.table.foreignKeys (keysOfText (store.tableSql s)))
    (hcond : KeyCondition (store.tableSql s) s.table.foreignKeys e) :
    ∃ t, keyStep client s e = some t ∧
      (t.session.active = false ∧ Agrees t.table.foreignKeys (keysOfText (store.tableSql t))) ∧ KeyStepFollows store s e t := by
  obtain ⟨text, written, hdrop, hadd, hkeys⟩ := text_afterCall hcond
  have hsingle : e.call.isNew = false → s.table.foreignKeys.values.countP (refersTo e.call.refTableName) ≤ 1 := by
    intro hnew
    obtain ⟨d, -, -, -, hdroppable, -⟩ := hcond (.inl hnew)
    exact (hdroppable hnew).single
  have haddable : ∀ fk fks, e.newFK = fk :: fks → Addable e s.table.foreignKeys fk fks := by
    intro fk fks hnew
    obtain ⟨d, -, -, -, -, haddable⟩ := hcond (.inr (by simp [hnew]))
    exact haddable fk fks hnew
  obtain ⟨t, ht, hidle, hsql, hmap⟩ := keyStep_eq store hs.1 hdrop hadd
  refine ⟨t, ht, ⟨hidle, ?_⟩, ?_, ?_⟩
  · rw [hsql, hkeys, hmap]
    exact agrees_afterCall s.table.tableName hs.2 hsingle haddable
  · rw [hsql, hkeys]
  · rw [hmap]
    exact values_afterCall s.table.tableName hsingle haddable

/-- Over a run whose calls meet the condition, the map has a key for each foreign key of the statement and no other. -/
theorem foreignKeys_follow_text (store : SchemaStore client) {s : KeySession δ} (hidle : s.session.active = false)
    (hs : Agrees s.table.foreignKeys (keysOfText (store.tableSql s))) (es : List KeyCall)
    (hes : Before (keyStep client) (fun t e => KeyCondition (store.tableSql t) t.table.foreignKeys e) s es) :
    (∃ t, run (keyStep client) s es = some t) ∧
      Throughout (keyStep client) (fun t => Agrees t.table.foreignKeys (keysOfText (store.tableSql t))) s es ∧
      EachStep (keyStep client) (KeyStepFollows store) s es := by
  obtain ⟨hend, hthrough, heach⟩ := run_of_before (fun t e => keyStep_follows store) ⟨hidle, hs⟩ es hes
  exact ⟨hend, fun pre hpre t ht => (hthrough pre hpre t ht).2, heach⟩

def textClient : Client (Text → Text) where
  exec d _ := (none, d)
  prepare d _ := (none, d)
  bindText d _ _ _ := (none, d)
  step d query values :=
    match query, values with
    | .tableSql name, [] => (⟨[[.text (d name)]], none⟩, d)
    | .updateSchema, [text, name] => (⟨[], none⟩, Function.update d name text)
    | _, _ => (⟨[], none⟩, d)

def textStore : SchemaStore textClient where
  sql d := d
  exec _ _ _ := ⟨rfl, rfl⟩
  prepare _ _ := ⟨rfl, rfl⟩
  bindText _ _ _ _ := ⟨rfl, rfl⟩
  select _ _ := ⟨rfl, rfl⟩
  update _ _ _ := ⟨rfl, rfl⟩

def keyToQ : FKField := { compositeKey ['b'] ['y'] with refTable := ['q'] }

def keySession (m : ForeignKeyMap) : KeySession (Text → Text) :=
  { session := ⟨fun _ => droppedLast.text, [], []⟩, table := ⟨[], ['t'], m, 0, [], []⟩, command := [], newFK := [] }

def dropKey : KeyCall := ⟨⟨[], [], ['r'], [], 0, 0, false, false, 0⟩, []⟩

def addKey : KeyCall :=
  ⟨⟨"fk".toList, [], ['z'], [], 2, 0, false, true, 0⟩,
    [{ compositeKey ['a'] ['x'] with refTable := ['z'] }, { compositeKey ['b'] ['y'] with refTable := ['z'] }]⟩

def lastKeyToR : ForeignKeyMap := .ofEntries [(0, [keyToQ]), (1, [compositeKey ['a'] ['x']])]

def firstKeyToR : ForeignKeyMap := .ofEntries [(0, [compositeKey ['a'] ['x']]), (1, [keyToQ])]

theorem keys_droppedLast : keysOfText droppedLast.text = [⟨[['b']], ['q'], [['y']]⟩, ⟨[['a']], ['r'], [['x']]⟩] := by
  decide +kernel

theorem agrees_lastKeyToR : Agrees lastKeyToR (keysOfText droppedLast.text) := by
  rw [keys_droppedLast]
  exact .cons ⟨by decide, by decide, rfl, rfl⟩ (.cons ⟨by decide, by decide, rfl, rfl⟩ .zero)

theorem agrees_firstKeyToR : Agrees firstKeyToR (keysOfText droppedLast.text) := by
  have hswap : (firstKeyToR.values : Multiset (List FKField)) = (lastKeyToR.values : List (List FKField)) :=
    Multiset.coe_eq_coe.mpr (List.Perm.swap _ _ [])
  rw [Agrees, hswap]
  exact agrees_lastKeyToR

theorem droppedLast_closed : droppedLast.Closed := List.all_eq_true.mp (by decide +kernel)

theorem droppable_droppedLast {m : ForeignKeyMap} (hsize : m.size = twoKeys.size)
    (hsingle : m.values.countP (refersTo ['r']) ≤ 1) : Droppable ['r'] droppedLast m where
  removable := hsize ▸ droppedLast_removable
  inClauses := by
    have hall : (droppedLast.definitions.all fun t => decide (Search.find foreignKey (towupper t) ≠ none) ||
        (readKey t).all fun key => decide (key.refTable ≠ ['r'])) = true := by decide +kernel
    intro t ht hnone key hkey
    have hone := List.all_eq_true.mp hall t ht
    rw [hnone] at hone
    have hkeys : (readKey t).all (fun key => decide (key.refTable ≠ ['r'])) = true := by simpa using hone
    rw [Option.mem_def.mp hkey] at hkeys
    simpa using hkeys
  single := hsingle

theorem writable_addKey (fk : FKField) (fks : List FKField) (h : addKey.newFK = fk :: fks) : Writable addKey.call fk fks := by
  obtain ⟨rfl, rfl⟩ := List.cons.inj h.symm
  exact ⟨by decide, by decide, by decide, by decide, by decide, by decide⟩

theorem keyStep_dropKey {m : ForeignKeyMap} (hdrop : Droppable ['r'] droppedLast m) :
    ∃ t, keyStep textClient (keySession m) dropKey = some t ∧ t.session.active = false ∧
      textStore.tableSql t = (droppedLast.without ['r']).text ∧ t.table.foreignKeys = eraseReferences ['r'] m := by
  have hpart : dropPart dropKey droppedLast.text m = .ok ((droppedLast.without ['r']).text, eraseReferences ['r'] m) := by
    change dropForeignKey ['r'] droppedLast.text m = _
    rw [dropForeignKey, rewriteSql_removable hdrop.removable]
    rfl
  exact keyStep_eq textStore (s := keySession m) rfl hpart rfl

theorem drop_then_add_follows :
    (∃ t, run (keyStep textClient) (keySession lastKeyToR) [dropKey, addKey] = some t) ∧
      Throughout (keyStep textClient) (fun t => Agrees t.table.foreignKeys (keysOfText (textStore.tableSql t)))
        (keySession lastKeyToR) [dropKey, addKey] ∧
      EachStep (keyStep textClient) (KeyStepFollows textStore) (keySession lastKeyToR) [dropKey, addKey] := by
  have hdroppable : Droppable ['r'] droppedLast lastKeyToR := droppable_droppedLast rfl (by decide)
  refine foreignKeys_follow_text textStore rfl agrees_lastKeyToR [dropKey, addKey] ?_
  rw [before_cons]
  refine ⟨fun _ => ⟨droppedLast, rfl, droppedLast_closed, rfl, fun _ => hdroppable, nofun⟩, fun t ht => ?_⟩
  obtain ⟨t', ht', -, hsql, hmap⟩ := keyStep_dropKey hdroppable
  obtain rfl := Option.some.inj (ht.symm.trans ht')
  rw [before_cons]
  refine ⟨fun _ => ⟨droppedLast.without ['r'], hsql.symm, closed_without droppedLast_closed _, rfl, nofun, ?_⟩,
    fun _ _ => before_nil _ _⟩
  intro fk fks hnew
  rw [hmap]
  exact ⟨writable_addKey fk fks hnew, by decide⟩

/-- The number of the keys is the number of a key that is left. -/
theorem drop_then_add_collides :
    ¬ ∀ (δ : Type) (client : Client δ) (store : SchemaStore client) (s : KeySession δ), s.session.active = false →
      Agrees s.table.foreignKeys (keysOfText (store.tableSql s)) → ∀ (es : List KeyCall) (t : KeySession δ),
        run (keyStep client) s es = some t → Agrees t.table.foreignKeys (keysOfText (store.tableSql t)) := by
  intro h
  have hdroppable : Droppable ['r'] droppedLast firstKeyToR := droppable_droppedLast rfl (by decide)
  obtain ⟨t, ht, hidle, hsql, hmap⟩ := keyStep_dropKey hdroppable
  have hpart : dropPart addKey (textStore.tableSql t) t.table.foreignKeys =
      .ok ((droppedLast.without ['r']).text, eraseReferences ['r'] firstKeyToR) := by
    rw [hsql, hmap]
    rfl
  obtain ⟨d, hadd, hclosed, hkeys⟩ := addClause_eq (e := addKey) (closed_without droppedLast_closed ['r']) rfl writable_addKey
  obtain ⟨u, hu, -, hsql', hmap'⟩ := keyStep_eq textStore hidle hpart hadd
  have hrun : run (keyStep textClient) (keySession firstKeyToR) [dropKey, addKey] = some u := by
    rw [run_cons, ht, Option.bind_some, run_cons, hu]
    rfl
  have hagrees := h _ textClient textStore (keySession firstKeyToR) rfl agrees_firstKeyToR _ u hrun
  rw [hsql', hmap', keysOfText_text hclosed, hkeys] at hagrees
  have hleft : ((droppedLast.without ['r']).keys ++ addKey.added).length = 2 := by decide +kernel
  have hcard := Multiset.card_eq_card_of_rel hagrees
  rw [Multiset.coe_card, Multiset.coe_card, hleft] at hcard
  cases hcard

end DbHandler.Sqlite.ForeignKeys
