import DbHandler.Foundation.Runs
import DbHandler.Sqlite.StatementOperations

namespace DbHandler.SqliteStatements

open Foundation.Resources Foundation.Runs

section Closing

def Finalisable (s : Store Member) : Prop :=
  Releasable s .stmt1 ∧ Releasable s .stmt2 ∧ Releasable s .stmt3

/-- `Disconnect` finalises three of the members, and closes the connection over the fourth. -/
def Closable (s : Store Member) : Prop :=
  Finalisable s ∧ ∀ n ∈ s.live, s.held .stmt = .handle n → n < s.base

theorem finaliseMembers_run (s : Store Member) : finaliseMembers s =
    releaseFrom .stmt3 (releaseFrom .stmt2 (releaseFrom .stmt1 s).2).2 := rfl

theorem grows_finaliseMembers : Grows finaliseMembers := fun s hs =>
  grows_releaseFrom Member.stmt3 _ (grows_releaseFrom Member.stmt2 _ (grows_releaseFrom Member.stmt1 s hs))

variable {s : Store Member}

theorem finaliseMembers_base (s : Store Member) : (finaliseMembers s).2.base = s.base := by
  rw [finaliseMembers_run, releaseFrom_base, releaseFrom_base, releaseFrom_base]

theorem finaliseMembers_next (s : Store Member) : s.next ≤ (finaliseMembers s).2.next := by
  rw [finaliseMembers_run, releaseFrom_next, releaseFrom_next, releaseFrom_next]

/-- After them only `m_stmt` can hold a statement. -/
theorem finaliseMembers_standing (hs : Standing s) (h : Finalisable s) :
    Standing (finaliseMembers s).2 ∧ Frame [.stmt1, .stmt2, .stmt3] s (finaliseMembers s).2 ∧
      ∀ v, v ≠ .stmt → ¬Loaded (finaliseMembers s).2 v := by
  rw [finaliseMembers_run]
  obtain ⟨h1, h2, h3⟩ := h
  obtain ⟨hs1, hframe1, hidle1⟩ := releaseFrom_standing hs h1
  generalize (releaseFrom Member.stmt1 s).2 = s1 at hs1 hframe1 hidle1
  rw [← hframe1.releasable (by simp)] at h2 h3
  obtain ⟨hs2, hframe2, hidle2⟩ := releaseFrom_standing hs1 h2
  generalize (releaseFrom Member.stmt2 s1).2 = s2 at hs2 hframe2 hidle2
  rw [← hframe2.releasable (by simp)] at h3
  obtain ⟨hs3, hframe3, hidle3⟩ := releaseFrom_standing hs2 h3
  refine ⟨hs3, ((hframe1.mono (by simp)).trans (hframe2.mono (by simp))).trans (hframe3.mono (by simp)), ?_⟩
  intro v hv
  cases v with
  | stmt1 => exact fun h => hidle1 ((hframe2 _ (by simp)).2.mp ((hframe3 _ (by simp)).2.mp h))
  | stmt2 => exact fun h => hidle2 ((hframe3 _ (by simp)).2.mp h)
  | stmt3 => exact hidle3
  | stmt => exact absurd rfl hv

theorem finaliseMembers_faulty (hs : Standing s) (h : ¬Finalisable s) :
    (finaliseMembers s).2.faults ≠ [] := by
  rw [finaliseMembers_run]
  by_cases h1 : Releasable s .stmt1
  · obtain ⟨hs1, hframe1, _⟩ := releaseFrom_standing hs h1
    generalize (releaseFrom Member.stmt1 s).2 = s1 at hs1 hframe1
    by_cases h2 : Releasable s1 .stmt2
    · obtain ⟨_, hframe2, _⟩ := releaseFrom_standing hs1 h2
      generalize (releaseFrom Member.stmt2 s1).2 = s2 at hframe2
      apply releaseFrom_faulty
      rw [hframe2.releasable (by simp), hframe1.releasable (by simp)]
      rw [hframe1.releasable (by simp)] at h2
      exact fun h3 => h ⟨h1, h2, h3⟩
    · exact grows_releaseFrom .stmt3 _ (releaseFrom_faulty h2)
  · exact grows_releaseFrom .stmt3 _ (grows_releaseFrom .stmt2 _ (releaseFrom_faulty h1))

theorem closes_iff (hs : Standing s) (h : Finalisable s) :
    (∀ n ∈ (finaliseMembers s).2.live, n < (finaliseMembers s).2.base) ↔
      ∀ n ∈ s.live, s.held .stmt = .handle n → n < s.base := by
  obtain ⟨ht, hframe, hidle⟩ := finaliseMembers_standing hs h
  obtain ⟨hheld, hloaded⟩ := hframe .stmt (by simp)
  rw [finaliseMembers_base]
  constructor
  · intro hclosed n hn hstmt
    obtain ⟨m, hm, hstmt'⟩ := hloaded.mpr ⟨n, hn, hstmt⟩
    rw [hheld, hstmt] at hstmt'
    obtain rfl := Pointer.handle.inj hstmt'
    exact hclosed n hm
  · intro hclosed n hn
    obtain ⟨v, hv⟩ := ht.owned n hn
    have hstmt : v = .stmt := by
      by_contra hne
      exact hidle v hne ⟨n, hn, hv⟩
    subst hstmt
    obtain ⟨m, hm, hstmt⟩ := hloaded.mp ⟨n, hn, hv⟩
    rw [hheld, hstmt] at hv
    obtain rfl := Pointer.handle.inj hv
    exact hclosed m hm hstmt

theorem disconnect_closable (hs : Standing s) (h : Closable s) :
    disconnect s = (.returned false, (finaliseMembers s).2) := by
  have hclosed := close_open ((closes_iff hs h.1).mpr h.2)
  show (Exit.returned (!(close (finaliseMembers s).2).1), (close (finaliseMembers s).2).2) = _
  rw [hclosed]
  rfl

theorem disconnect_faulty (hs : Standing s) (h : ¬Closable s) : (disconnect s).2.faults ≠ [] := by
  show (close (finaliseMembers s).2).2.faults ≠ []
  by_cases hmembers : Finalisable s
  · apply close_refused
    rw [closes_iff hs hmembers]
    exact fun hclosed => h ⟨hmembers, hclosed⟩
  · exact grows_close _ (finaliseMembers_faulty hs hmembers)

theorem decides_disconnect : Decides disconnect Closable where
  standing s hs h := by
    rw [disconnect_closable hs h]
    exact (finaliseMembers_standing hs h.1).1
  faulty _ := disconnect_faulty

/-- All statements of the connection have then been finalised once, so it is closed. -/
theorem disconnect_finalised (hs : Standing s) (ht : Standing (disconnect s).2) :
    (disconnect s).1 = .returned false ∧
      ∀ n, s.base ≤ n → n < s.next → (disconnect s).2.released.count n = 1 := by
  have hclosable := (decides_disconnect.iff hs).mp ht
  rw [disconnect_closable hs hclosable] at ht ⊢
  refine ⟨rfl, fun n hbase hn => ?_⟩
  have hcounts := ht.accounted n
  have hdead : n ∉ (finaliseMembers s).2.live := by
    intro hlive
    have hlt := (closes_iff hs hclosable.1).mpr hclosable.2 n hlive
    rw [finaliseMembers_base] at hlt
    omega
  rw [List.count_eq_zero_of_not_mem hdead, if_pos (Nat.lt_of_lt_of_le hn (finaliseMembers_next s))] at hcounts
  exact hcounts

end Closing

section Conditions

theorem decides_connect (quiet : Bool) (o : Opening) : Decides (connect quiet o) fun _ => o.Finalised quiet where
  standing _ hs h := (balanced_loadOpened quiet o).decides.standing _ hs.reopen h
  faulty _ hs h := (balanced_loadOpened quiet o).decides.faulty _ hs.reopen h

theorem grows_connect (quiet : Bool) (o : Opening) : Grows (connect quiet o) := fun s hs =>
  (balanced_loadOpened quiet o).grows _ (grows_reopen s hs)

theorem decides_createDatabase (quiet : Bool) (o : Opening) :
    Decides (createDatabase quiet o) fun s => Closable s ∧ o.Finalised quiet := by
  have hrun : ∀ s, createDatabase quiet o s = (disconnect s).1.andThen (connect quiet o) (disconnect s).2 :=
    fun _ => rfl
  constructor
  · intro s hs h
    have ht := decides_disconnect.standing s hs h.1
    rw [hrun]
    rw [disconnect_closable hs h.1] at ht ⊢
    exact (decides_connect quiet o).standing _ ht h.2
  · intro s hs h
    rw [hrun]
    by_cases hclosable : Closable s
    · have ht := decides_disconnect.standing s hs hclosable
      rw [disconnect_closable hs hclosable] at ht ⊢
      exact (decides_connect quiet o).faulty _ ht fun ho => h ⟨hclosable, ho⟩
    · exact (grows_connect quiet o).guarded _ _ _ (disconnect_faulty hs hclosable)

theorem decides_dropDatabase (current : Bool) :
    Decides (dropDatabase current) fun s => current = true → Closable s := by
  cases current with
  | false => exact ⟨fun _ hs _ => hs, fun _ _ h => absurd (fun hc => Bool.noConfusion hc) h⟩
  | true =>
    exact ⟨fun s hs h => decides_disconnect.standing s hs (h rfl),
      fun s hs h => decides_disconnect.faulty s hs fun hc => h fun _ => hc⟩

theorem decides_setFieldProperties (begun prepared : Bool) :
    Decides (setFieldProperties begun prepared) fun s => begun = true → ¬Loaded s .stmt1 := by
  have h := ((Keeps.acquireInto Member.stmt1 prepared).guarded begun ()).decides
  constructor
  · intro s hs hidle
    apply h.standing s hs
    cases begun with
    | false => simp
    | true => simpa using hidle
  · intro s hs hidle
    apply h.faulty s hs
    cases begun with
    | false => simp at hidle
    | true => simpa using hidle

theorem decides_getTableCreationSyntax (prepared bound converted : Bool) :
    Decides (getTableCreationSyntax prepared bound converted) fun s => ¬Loaded s .stmt := by
  have hrun : ∀ s, getTableCreationSyntax prepared bound converted s =
      guarded (prepared && bound && converted) () (releaseFrom Member.stmt) (acquireInto .stmt prepared s).2 :=
    fun _ => rfl
  constructor
  · intro s hs hidle
    obtain ⟨ht, _, hloaded⟩ := acquireInto_standing hs hidle prepared
    rw [hrun]
    cases hfinished : prepared && bound && converted
    · exact ht
    · have hprepared : prepared = true := by simp at hfinished; exact hfinished.1.1
      rw [if_pos hprepared] at hloaded
      exact (releaseFrom_standing ht (.inr hloaded)).1
  · intro s hs hloaded
    rw [hrun]
    exact (grows_releaseFrom Member.stmt).guarded _ _ _ (acquireInto_loaded hs (not_not.mp hloaded) prepared)

end Conditions

section Runs

/-- A call of the class with what the calls of `sqlite3` in it answer. -/
inductive Operation where
  | connect (quiet : Bool) (o : Opening)
  | createDatabase (quiet : Bool) (o : Opening)
  | dropDatabase (current : Bool)
  | disconnect
  | createIndex (o : Indexing)
  | getTableProperties (o : Reading)
  | setTableProperties (o : PropertiesChange)
  | getFieldProperties (o : Reading)
  | setFieldProperties (begun prepared : Bool)
  | getFieldHeader (prepared : Bool)
  | applyForeignKey (o : KeyChange)
  | getAttachedDBList (o : Reading)
  | newTableCreation (quiet : Bool) (o : Poll)
  | prepareStatement (prepared : Bool)
  | finalizeStatement
  | getTableCreationSyntax (prepared bound converted : Bool)
  deriving DecidableEq, Repr

/-- `connected`: `pimpl` is not NULL. -/
structure State where
  connected : Bool
  store : Store Member

/-- The constructor sets three of the members to NULL. -/
def start : State where
  connected := false
  store :=
    { next := 0, base := 0, live := [], released := [], faults := [],
      held := fun v => if v = .stmt then .indeterminate else .null }

def effect (s : Store Member) : Operation → Store Member
  | .connect quiet o => (connect quiet o s).2
  | .createDatabase quiet o => (createDatabase quiet o s).2
  | .dropDatabase current => (dropDatabase current s).2
  | .disconnect => (disconnect s).2
  | .createIndex o => (createIndex o s).2
  | .getTableProperties o => (getTableProperties o s).2
  | .setTableProperties o => (setTableProperties o s).2
  | .getFieldProperties o => (getFieldProperties o s).2
  | .setFieldProperties begun prepared => (setFieldProperties begun prepared s).2
  | .getFieldHeader prepared => (getFieldHeader prepared s).2
  | .applyForeignKey o => (applyForeignKey o s).2
  | .getAttachedDBList o => (getAttachedDBList o s).2
  | .newTableCreation quiet o => (newTableCreation quiet o s).2
  | .prepareStatement prepared => (prepareStatement prepared s).2
  | .finalizeStatement => (finalizeStatement s).2
  | .getTableCreationSyntax prepared bound converted => (getTableCreationSyntax prepared bound converted s).2

/-- `Disconnect` deletes `pimpl`, and `Connect` makes it. -/
def connects (s : State) : Operation → Bool
  | .connect _ _ => true
  | .createDatabase _ _ => (disconnect s.store).1 = .returned false
  | .dropDatabase current => s.connected && !current
  | .disconnect => false
  | _ => s.connected

/-- Without `pimpl` only these two do not run into a null or closed pointer. -/
def callable (s : State) : Operation → Bool
  | .connect _ _ => true
  | .finalizeStatement => true
  | _ => s.connected

def step (s : State) (e : Operation) : Option State :=
  if callable s e then some ⟨connects s e, effect s.store e⟩ else none

/-- The condition of each call: on what its statements meet, and on the members before it. -/
def Operation.Finalises (s : Store Member) : Operation → Prop
  | .connect quiet o => o.Finalised quiet
  | .createDatabase quiet o => Closable s ∧ o.Finalised quiet
  | .dropDatabase current => current = true → Closable s
  | .disconnect => Closable s
  | .createIndex o => o.begun = true → o.existence ≠ .thrown
  | .getTableProperties o => o ≠ .thrown
  | .setTableProperties _ => True
  | .getFieldProperties o => o ≠ .thrown
  | .setFieldProperties begun _ => begun = true → ¬Loaded s .stmt1
  | .getFieldHeader prepared => prepared = false
  | .applyForeignKey o => o.logOnly = true ∨ o.begun = true → o.sql ≠ .thrown
  | .getAttachedDBList o => o ≠ .thrown
  | .newTableCreation quiet o => o.Finalised quiet ∧ ∀ v ∈ o.members, ¬Loaded s v
  | .prepareStatement _ => ¬Loaded s .stmt
  | .finalizeStatement => Releasable s .stmt
  | .getTableCreationSyntax _ _ _ => ¬Loaded s .stmt

theorem standing_start : Standing start.store where
  accounted n := by simp [start]
  faultless := rfl
  owned n hn := by simp [start] at hn
  single n hn := by simp [start] at hn
  valid v n hv := by
    cases v <;> simp [start] at hv

theorem effect_standing_iff (e : Operation) {s : Store Member} (hs : Standing s) :
    Standing (effect s e) ↔ e.Finalises s := by
  cases e with
  | connect quiet o => exact (decides_connect quiet o).iff hs
  | createDatabase quiet o => exact (decides_createDatabase quiet o).iff hs
  | dropDatabase current => exact (decides_dropDatabase current).iff hs
  | disconnect => exact decides_disconnect.iff hs
  | createIndex o => exact (balanced_createIndex o).decides.iff hs
  | getTableProperties o => exact (balanced_reading o true).decides.iff hs
  | setTableProperties o => exact (balanced_setTableProperties o).decides.iff hs
  | getFieldProperties o => exact (balanced_reading o true).decides.iff hs
  | setFieldProperties begun prepared => exact (decides_setFieldProperties begun prepared).iff hs
  | getFieldHeader prepared => exact (balanced_getFieldHeader prepared).decides.iff hs
  | applyForeignKey o => exact (balanced_applyForeignKey o).decides.iff hs
  | getAttachedDBList o => exact (balanced_reading o true).decides.iff hs
  | newTableCreation quiet o => exact (keeps_newTableCreation quiet o).decides.iff hs
  | prepareStatement prepared =>
    have h := (Keeps.acquireInto Member.stmt prepared).decides.iff hs
    simp only [List.mem_singleton, forall_eq, true_and] at h
    exact h
  | finalizeStatement => exact (decides_releaseFrom Member.stmt).iff hs
  | getTableCreationSyntax prepared bound converted =>
    exact (decides_getTableCreationSyntax prepared bound converted).iff hs

theorem step_standing_iff {s t : State} {e : Operation} (hs : Standing s.store) (h : step s e = some t) :
    Standing t.store ↔ e.Finalises s.store := by
  unfold step at h
  split at h
  · cases h
    exact effect_standing_iff e hs
  · cases h

/-- In every run: nothing is leaked, overwritten, finalised twice or closed over at any of its calls
exactly if each call meets its condition. -/
theorem statements_finalised_iff (es : List Operation) :
    EachStep step (fun _ _ t => Standing t.store) start es ↔
      EachStep step (fun s e _ => e.Finalises s.store) start es :=
  eachStep_iff (P := fun s => Standing s.store) (fun _ _ _ _ _ h => h)
    (fun _ _ _ hs h => step_standing_iff hs h) standing_start es

end Runs

section Session

/-- Opening a database without tables. -/
def opening : Opening where
  opened := true
  created := true
  list := { prepared := true, tables := [], complete := true }
  foreignKeys := true
  prepared := true
  answered := true

def twoColumns : List Operation :=
  [.connect true opening, .setFieldProperties true true, .setFieldProperties true true]

/-- The second column's properties overwrite `m_stmt1`, which holds the statement of the first. -/
theorem twoColumns_not_finalised :
    ¬∀ es, EachStep step (fun _ _ t => Standing t.store) start es := by
  intro h
  have hlast := h twoColumns [.connect true opening, .setFieldProperties true true]
    (.setFieldProperties true true) (List.prefix_refl _) _ _ rfl rfl
  exact List.cons_ne_nil _ _ hlast.faultless

end Session

end DbHandler.SqliteStatements
