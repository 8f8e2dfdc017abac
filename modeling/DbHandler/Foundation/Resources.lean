import Mathlib.Data.List.Count
import Mathlib.Logic.Function.Basic

namespace Foundation.Resources

inductive Pointer where
  | indeterminate
  | null
  | handle (n : ℕ)
  deriving DecidableEq, Repr

inductive Fault where
  | lost (n : ℕ)
  | released (n : ℕ)
  | indeterminate
  | busy
  deriving DecidableEq, Repr

/-- Resources are numbered in the order they are acquired. The ones from `base` on belong to the
arena that is open now; `held` are the pointers that outlive a call. -/
structure Store (V : Type) where
  next : ℕ
  base : ℕ
  live : List ℕ
  released : List ℕ
  faults : List Fault
  held : V → Pointer

variable {V α β : Type}

section Operations

def acquire (done : Bool) : StateM (Store V) Pointer := fun s =>
  if done then (.handle s.next, { s with next := s.next + 1, live := s.next :: s.live }) else (.null, s)

def release (p : Pointer) : StateM (Store V) Unit := fun s =>
  match p with
  | .indeterminate => ((), { s with faults := .indeterminate :: s.faults })
  | .null => ((), s)
  | .handle n =>
    if n ∈ s.live then ((), { s with live := s.live.erase n, released := n :: s.released })
    else ((), { s with released := n :: s.released, faults := .released n :: s.faults })

/-- The pointer is overwritten or goes out of scope. -/
def lose (p : Pointer) : StateM (Store V) Unit := fun s =>
  match p with
  | .handle n => if n ∈ s.live then ((), { s with faults := .lost n :: s.faults }) else ((), s)
  | _ => ((), s)

def reopen : StateM (Store V) Unit := fun s => ((), { s with base := s.next })

/-- Closing the arena is refused while a resource of it is live. -/
def close : StateM (Store V) Bool := fun s =>
  if s.live.any (s.base ≤ ·) then (false, { s with faults := .busy :: s.faults }) else (true, s)

def guarded (done : Bool) (refused : α) (f : StateM (Store V) α) : StateM (Store V) α :=
  if done then f else pure refused

def leave (passed : Bool) (p : Pointer) : StateM (Store V) Unit :=
  if passed then lose p else release p

/-- A pointer of the call: the resource is released at the end of the scope, unless the scope is
left in a way that passes the release over. -/
def scope (done : Bool) (refused : α) (leaves : α → Bool) (body : Pointer → StateM (Store V) α) :
    StateM (Store V) α := do
  let p ← acquire done
  let a ← guarded done refused (body p)
  leave (leaves a) p
  return a

variable [DecidableEq V]

def assign (v : V) (p : Pointer) : StateM (Store V) Unit := do
  lose ((← get).held v)
  modify fun s => { s with held := Function.update s.held v p }

def acquireInto (v : V) (done : Bool) : StateM (Store V) Unit := do
  assign v (← acquire done)

def releaseFrom (v : V) : StateM (Store V) Unit := do
  release ((← get).held v)

def clear (v : V) : StateM (Store V) Unit := do
  releaseFrom v
  assign v .null

/-- A held pointer, cleared at the end of the scope. -/
def heldScope (v : V) (done : Bool) (refused : α) (leaves : α → Bool) (body : StateM (Store V) α) :
    StateM (Store V) α := do
  acquireInto v done
  let a ← guarded done refused body
  guarded (!leaves a) () (clear v)
  return a

end Operations

section Accounts

/-- Every resource that was acquired is live and not released, or released once. -/
def Accounted (s : Store V) : Prop :=
  ∀ n, s.released.count n + s.live.count n = if n < s.next then 1 else 0

structure Same (s t : Store V) : Prop where
  live : t.live = s.live
  faults : t.faults = s.faults
  base : t.base = s.base
  held : t.held = s.held
  next : s.next ≤ t.next

theorem Same.refl (s : Store V) : Same s s := ⟨rfl, rfl, rfl, rfl, Nat.le_refl _⟩

theorem Same.trans {s t u : Store V} (h : Same s t) (k : Same t u) : Same s u where
  live := k.live.trans h.live
  faults := k.faults.trans h.faults
  base := k.base.trans h.base
  held := k.held.trans h.held
  next := Nat.le_trans h.next k.next

variable {s : Store V}

theorem Accounted.lt (h : Accounted s) {n : ℕ} (hn : n ∈ s.live) : n < s.next := by
  have hcount := h n
  have hpos := List.count_pos_iff.mpr hn
  by_contra hlt
  rw [if_neg hlt] at hcount
  omega

theorem Accounted.erased (h : Accounted s) (n : ℕ) : n ∉ s.live.erase n := by
  intro hmem
  have hcount := h n
  have hpos := List.count_pos_iff.mpr hmem
  rw [List.count_erase_self] at hpos
  split at hcount <;> omega

theorem Accounted.acquire (h : Accounted s) :
    Accounted { s with next := s.next + 1, live := s.next :: s.live } := by
  intro n
  have hcount := h n
  show s.released.count n + (s.next :: s.live).count n = if n < s.next + 1 then 1 else 0
  rw [List.count_cons]
  simp only [beq_iff_eq]
  split_ifs at hcount ⊢ <;> omega

theorem Accounted.release (h : Accounted s) {n : ℕ} (hn : n ∈ s.live) :
    Accounted { s with live := s.live.erase n, released := n :: s.released } := by
  intro m
  have hcount := h m
  show (n :: s.released).count m + (s.live.erase n).count m = if m < s.next then 1 else 0
  rw [← hcount, List.count_cons, List.count_erase]
  by_cases hmn : n = m
  · subst hmn
    have hpos := List.count_pos_iff.mpr hn
    simp only [beq_self_eq_true, if_true]
    omega
  · have hnm : (n == m) = false := by simpa using hmn
    simp [hnm]

end Accounts

section Growth

variable {a : α}

/-- No operation takes a fault back. -/
def Grows (f : StateM (Store V) α) : Prop :=
  ∀ s, s.faults ≠ [] → (f s).2.faults ≠ []

theorem grows_pure (a : α) : Grows (pure a : StateM (Store V) α) := fun _ h => h

theorem Grows.bind {f : StateM (Store V) α} {g : α → StateM (Store V) β} (hf : Grows f) (hg : ∀ a, Grows (g a)) :
    Grows (f >>= g) := fun s h => hg (f s).1 _ (hf s h)

theorem Grows.guarded {f : StateM (Store V) α} (hf : Grows f) (done : Bool) (refused : α) :
    Grows (guarded done refused f) := by
  cases done
  · exact grows_pure refused
  · exact hf

theorem grows_acquire (done : Bool) : Grows (acquire done : StateM (Store V) Pointer) := by
  intro s h
  cases done <;> exact h

theorem grows_release (p : Pointer) : Grows (release p : StateM (Store V) Unit) := by
  intro s h
  unfold release
  cases p with
  | indeterminate => simp
  | null => exact h
  | handle n => by_cases hn : n ∈ s.live <;> simp [hn, h]

theorem grows_lose (p : Pointer) : Grows (lose p : StateM (Store V) Unit) := by
  intro s h
  unfold lose
  cases p with
  | handle n => by_cases hn : n ∈ s.live <;> simp [hn, h]
  | _ => exact h

theorem grows_reopen : Grows (reopen : StateM (Store V) Unit) := fun _ h => h

theorem grows_close : Grows (close : StateM (Store V) Bool) := by
  intro s h
  unfold close
  by_cases hb : s.live.any (s.base ≤ ·) <;> simp [hb, h]

theorem grows_leave (passed : Bool) (p : Pointer) : Grows (leave passed p : StateM (Store V) Unit) := by
  cases passed
  · exact grows_release p
  · exact grows_lose p

theorem grows_scope (done : Bool) (refused : α) (leaves : α → Bool) {body : Pointer → StateM (Store V) α}
    (h : ∀ p, Grows (body p)) : Grows (scope done refused leaves body) := by
  apply (grows_acquire done).bind
  intro p
  apply ((h p).guarded done refused).bind
  intro a
  exact (grows_leave (leaves a) p).bind fun _ => grows_pure a

theorem grows_releaseFrom (v : V) : Grows (releaseFrom v) := by
  intro s h
  exact grows_release (s.held v) s h

variable [DecidableEq V]

theorem grows_assign (v : V) (p : Pointer) : Grows (assign v p) := by
  intro s h
  exact grows_lose (s.held v) s h

theorem grows_acquireInto (v : V) (done : Bool) : Grows (acquireInto v done) :=
  (grows_acquire done).bind fun p => grows_assign v p

theorem grows_clear (v : V) : Grows (clear v) :=
  (grows_releaseFrom v).bind fun _ => grows_assign v .null

theorem grows_heldScope (v : V) (done : Bool) (refused : α) (leaves : α → Bool) {body : StateM (Store V) α}
    (h : Grows body) : Grows (heldScope v done refused leaves body) := by
  apply (grows_acquireInto v done).bind
  intro _
  apply (h.guarded done refused).bind
  intro a
  exact ((grows_clear v).guarded (!leaves a) ()).bind fun _ => grows_pure a

end Growth

section Balance

variable {f : StateM (Store V) α} {a : α} {b : β} {C D : Prop}

/-- `f` returns `a` and takes back what it acquires exactly where `C`. -/
structure Balanced (f : StateM (Store V) α) (a : α) (C : Prop) : Prop where
  result : ∀ s, (f s).1 = a
  same : C → ∀ s, Accounted s → Same s (f s).2 ∧ Accounted (f s).2
  faulty : ¬C → ∀ s, Accounted s → (f s).2.faults ≠ []
  grows : Grows f

theorem Balanced.congr (h : Balanced f a C) (hCD : C ↔ D) : Balanced f a D := by
  rwa [← propext hCD]

theorem balanced_pure (a : α) : Balanced (pure a : StateM (Store V) α) a True where
  result _ := rfl
  same _ s hs := ⟨.refl s, hs⟩
  faulty h := absurd trivial h
  grows _ h := h

theorem Balanced.bind {g : α → StateM (Store V) β} (hf : Balanced f a C) (hg : Balanced (g a) b D) :
    Balanced (f >>= g) b (C ∧ D) := by
  have hrun : ∀ s, (f >>= g) s = g a (f s).2 := fun s => by
    rw [← hf.result s]
    rfl
  constructor
  · intro s
    rw [hrun]
    exact hg.result _
  · intro h s hs
    rw [hrun]
    obtain ⟨hsame, hcounts⟩ := hf.same h.1 s hs
    obtain ⟨hsame', hcounts'⟩ := hg.same h.2 _ hcounts
    exact ⟨hsame.trans hsame', hcounts'⟩
  · intro h s hs
    rw [hrun]
    by_cases hC : C
    · exact hg.faulty (fun hD => h ⟨hC, hD⟩) _ (hf.same hC s hs).2
    · exact hg.grows _ (hf.faulty hC s hs)
  · intro s hs
    rw [hrun]
    exact hg.grows _ (hf.grows s hs)

theorem Balanced.guarded (h : Balanced f a C) (done : Bool) (refused : α) :
    Balanced (guarded done refused f) (if done then a else refused) (done = true → C) := by
  cases done
  · exact (balanced_pure refused).congr (by simp)
  · exact h.congr (by simp)

theorem scope_refused (refused : α) (leaves : α → Bool) (body : Pointer → StateM (Store V) α) :
    scope false refused leaves body = pure refused := by
  funext s
  show (refused, (leave (leaves refused) .null s).2) = (refused, s)
  cases leaves refused <;> rfl

theorem leave_kept (p : Pointer) : (leave false p : StateM (Store V) Unit) = release p := rfl

theorem release_live {n : ℕ} {s : Store V} (h : n ∈ s.live) :
    release (.handle n) s = ((), { s with live := s.live.erase n, released := n :: s.released }) := by
  simp [release, h]

theorem release_dead {n : ℕ} {s : Store V} (h : n ∉ s.live) : (release (.handle n) s).2.faults ≠ [] := by
  simp [release, h]

theorem lose_live {n : ℕ} {s : Store V} (h : n ∈ s.live) : (lose (.handle n) s).2.faults ≠ [] := by
  simp [lose, h]

theorem balanced_scope {body : Pointer → StateM (Store V) α} {leaves : α → Bool}
    (hresult : ∀ p s, (body p s).1 = a)
    (hsame : C → ∀ p s, Accounted s → Same s (body p s).2 ∧ Accounted (body p s).2)
    (hkept : C → leaves a = false)
    (hfaulty : ¬C → ∀ n s, Accounted s → n ∈ s.live →
      (leave (leaves a) (.handle n) (body (.handle n) s).2).2.faults ≠ [])
    (hgrows : ∀ p, Grows (body p)) (done : Bool) (refused : α) :
    Balanced (scope done refused leaves body) (if done then a else refused) (done = true → C) := by
  cases done
  · rw [scope_refused]
    exact (balanced_pure refused).congr (by simp)
  have hstate : ∀ s, (scope true refused leaves body s).2 = (leave (leaves a) (.handle s.next)
      (body (.handle s.next) { s with next := s.next + 1, live := s.next :: s.live }).2).2 := by
    intro s
    rw [← hresult (.handle s.next) { s with next := s.next + 1, live := s.next :: s.live }]
    rfl
  constructor
  · intro s
    exact hresult (.handle s.next) { s with next := s.next + 1, live := s.next :: s.live }
  · intro hC s hs
    obtain ⟨hsame, hcounts⟩ := hsame (hC rfl) (.handle s.next) _ hs.acquire
    have hlive : s.next ∈ (body (.handle s.next)
        { s with next := s.next + 1, live := s.next :: s.live }).2.live := by
      rw [hsame.live]
      exact List.mem_cons_self
    rw [hstate, hkept (hC rfl), leave_kept, release_live hlive]
    refine ⟨⟨?_, hsame.faults, hsame.base, hsame.held, ?_⟩, hcounts.release hlive⟩
    · show List.erase _ _ = _
      rw [hsame.live]
      exact List.erase_cons_head _ _
    · exact Nat.le_trans (Nat.le_succ _) hsame.next
  · intro hC s hs
    rw [hstate]
    exact hfaulty (fun h => hC fun _ => h) _ _ hs.acquire List.mem_cons_self
  · exact grows_scope true refused leaves hgrows

/-- A scope whose body leaves the pointer alone. -/
theorem Balanced.scope (h : Balanced f a C) (leaves : α → Bool) (done : Bool) (refused : α) :
    Balanced (scope done refused leaves fun _ => f) (if done then a else refused)
      (done = true → C ∧ leaves a = false) := by
  apply balanced_scope
  · exact fun _ => h.result
  · exact fun hC _ => h.same hC.1
  · exact fun hC => hC.2
  · intro hC n s hs hn
    by_cases hbody : C
    · have hleaves : leaves a = true := by simpa [hbody] using hC
      rw [hleaves]
      apply lose_live
      rw [(h.same hbody s hs).1.live]
      exact hn
    · exact grows_leave _ _ _ (h.faulty hbody s hs)
  · exact fun _ => h.grows

/-- A resource that is acquired for a pointer of the call and never released. -/
theorem balanced_dropped (a : α) (done : Bool) (refused : α) :
    Balanced (scope done refused (fun _ => true) fun _ => (pure a : StateM (Store V) α))
      (if done then a else refused) (done = false) :=
  ((balanced_pure a).scope (fun _ => true) done refused).congr (by simp)

end Balance

section Owners

/-- The resource that the pointer holds is live. -/
def Loaded (s : Store V) (v : V) : Prop := ∃ n ∈ s.live, s.held v = .handle n

/-- Between two calls: nothing went wrong, and every live resource is held by exactly one pointer. -/
structure Standing (s : Store V) : Prop where
  accounted : Accounted s
  faultless : s.faults = []
  owned : ∀ n ∈ s.live, ∃ v, s.held v = .handle n
  single : ∀ n ∈ s.live, ∀ v w, s.held v = .handle n → s.held w = .handle n → v = w
  valid : ∀ v n, s.held v = .handle n → n < s.next

def Frame (S : List V) (s t : Store V) : Prop :=
  ∀ v, v ∉ S → t.held v = s.held v ∧ (Loaded t v ↔ Loaded s v)

variable {s t u : Store V} {S T : List V} {v : V}

theorem Frame.refl (S : List V) (s : Store V) : Frame S s s := fun _ _ => ⟨rfl, Iff.rfl⟩

theorem Frame.trans (h : Frame S s t) (k : Frame S t u) : Frame S s u := fun v hv =>
  ⟨(k v hv).1.trans (h v hv).1, (k v hv).2.trans (h v hv).2⟩

theorem Frame.mono (h : Frame S s t) (hS : S ⊆ T) : Frame T s t := fun v hv =>
  h v fun hmem => hv (hS hmem)

theorem Same.frame (h : Same s t) : Frame S s t := by
  intro v _
  unfold Loaded
  rw [h.held, h.live]
  exact ⟨rfl, Iff.rfl⟩

theorem Same.standing (h : Same s t) (hs : Standing s) (ht : Accounted t) : Standing t where
  accounted := ht
  faultless := h.faults.trans hs.faultless
  owned := by
    rw [h.live, h.held]
    exact hs.owned
  single := by
    rw [h.live, h.held]
    exact hs.single
  valid := by
    rw [h.held]
    exact fun v n hv => Nat.lt_of_lt_of_le (hs.valid v n hv) h.next

theorem lose_idle (h : ¬Loaded s v) : lose (s.held v) s = ((), s) := by
  cases hv : s.held v with
  | handle n =>
    have hn : n ∉ s.live := fun hn => h ⟨n, hn, hv⟩
    simp [lose, hn]
  | _ => rfl

theorem Standing.loaded_acquired (hs : Standing s) (v : V) :
    Loaded { s with next := s.next + 1, live := s.next :: s.live } v ↔ Loaded s v := by
  unfold Loaded
  constructor
  · rintro ⟨n, hn, hv⟩
    have hlt := hs.valid v n hv
    rcases List.mem_cons.mp hn with rfl | hn
    · omega
    · exact ⟨n, hn, hv⟩
  · rintro ⟨n, hn, hv⟩
    exact ⟨n, List.mem_cons_of_mem _ hn, hv⟩

def Releasable (s : Store V) (v : V) : Prop := s.held v = .null ∨ Loaded s v

theorem Standing.release_held (hs : Standing s) {n : ℕ} :
    let t : Store V := { s with live := s.live.erase n, released := n :: s.released }
    s.held v = .handle n → n ∈ s.live → Standing t ∧ Frame [v] s t ∧ ¬Loaded t v := by
  intro t hv hn
  refine ⟨⟨hs.accounted.release hn, hs.faultless, ?_, ?_, hs.valid⟩, ?_, ?_⟩
  · exact fun m hm => hs.owned m (List.mem_of_mem_erase hm)
  · exact fun m hm => hs.single m (List.mem_of_mem_erase hm)
  · intro w hw
    refine ⟨rfl, ?_, ?_⟩
    · rintro ⟨m, hm, hwm⟩
      exact ⟨m, List.mem_of_mem_erase hm, hwm⟩
    · rintro ⟨m, hm, hwm⟩
      have hmn : m ≠ n := by
        rintro rfl
        exact hw (List.mem_singleton.mpr (hs.single m hm w v hwm hv))
      exact ⟨m, (List.mem_erase_of_ne hmn).mpr hm, hwm⟩
  · rintro ⟨m, hm, hvm⟩
    obtain rfl : n = m := Pointer.handle.inj (hv.symm.trans hvm)
    exact hs.accounted.erased n hm

theorem releaseFrom_standing (hs : Standing s) (h : Releasable s v) :
    Standing (releaseFrom v s).2 ∧ Frame [v] s (releaseFrom v s).2 ∧ ¬Loaded (releaseFrom v s).2 v := by
  show Standing (release (s.held v) s).2 ∧ Frame [v] s (release (s.held v) s).2 ∧
    ¬Loaded (release (s.held v) s).2 v
  rcases h with hnull | ⟨n, hn, hv⟩
  · rw [hnull]
    refine ⟨hs, .refl [v] s, ?_⟩
    rintro ⟨n, _, hv⟩
    exact Pointer.noConfusion (hnull.symm.trans hv)
  · rw [hv, release_live hn]
    exact hs.release_held hv hn

theorem releaseFrom_faulty (h : ¬Releasable s v) : (releaseFrom v s).2.faults ≠ [] := by
  show (release (s.held v) s).2.faults ≠ []
  cases hv : s.held v with
  | indeterminate => simp [release]
  | null => exact absurd (.inl hv) h
  | handle n => exact release_dead fun hn => h (.inr ⟨n, hn, hv⟩)

theorem Standing.reopen (hs : Standing s) : Standing (reopen s).2 :=
  ⟨hs.accounted, hs.faultless, hs.owned, hs.single, hs.valid⟩

theorem close_open (h : ∀ n ∈ s.live, n < s.base) : close s = (true, s) := by
  have hnone : s.live.any (s.base ≤ ·) = false := by
    rw [List.any_eq_false]
    intro n hn
    have hlt := h n hn
    simpa using hlt
  simp [close, hnone]

theorem close_refused (h : ¬∀ n ∈ s.live, n < s.base) : (close s).2.faults ≠ [] := by
  have hsome : s.live.any (s.base ≤ ·) = true := by
    push Not at h
    obtain ⟨n, hn, hbase⟩ := h
    exact List.any_eq_true.mpr ⟨n, hn, by simpa using hbase⟩
  simp [close, hsome]

variable {f : StateM (Store V) α} {a : α} {b : β} {C P Q : Prop}

/-- `f` returns `a` and acquires for the pointers `S`; what they hold at the end is their own. -/
structure Keeps (S : List V) (f : StateM (Store V) α) (a : α) (P : Prop) : Prop where
  result : ∀ s, (f s).1 = a
  standing : P → ∀ s, Standing s → (∀ v ∈ S, ¬Loaded s v) → Standing (f s).2 ∧ Frame S s (f s).2
  faulty : ∀ s, Standing s → ¬(P ∧ ∀ v ∈ S, ¬Loaded s v) → (f s).2.faults ≠ []
  grows : Grows f

theorem Keeps.congr (h : Keeps S f a P) (hPQ : P ↔ Q) : Keeps S f a Q := by
  rwa [← propext hPQ]

theorem Balanced.keeps (h : Balanced f a C) : Keeps [] f a C where
  result := h.result
  standing hC s hs _ := by
    obtain ⟨hsame, hcounts⟩ := h.same hC s hs.accounted
    exact ⟨hsame.standing hs hcounts, hsame.frame⟩
  faulty s hs hC := h.faulty (fun hC' => hC ⟨hC', by simp⟩) s hs.accounted
  grows := h.grows

theorem Keeps.bind {g : α → StateM (Store V) β} (hf : Keeps S f a P) (hg : Balanced (g a) b Q) :
    Keeps S (f >>= g) b (P ∧ Q) := by
  have hrun : ∀ s, (f >>= g) s = g a (f s).2 := fun s => by
    rw [← hf.result s]
    rfl
  constructor
  · intro s
    rw [hrun]
    exact hg.result _
  · intro h s hs hidle
    rw [hrun]
    obtain ⟨hstanding, hframe⟩ := hf.standing h.1 s hs hidle
    obtain ⟨hsame, hcounts⟩ := hg.same h.2 _ hstanding.accounted
    exact ⟨hsame.standing hstanding hcounts, hframe.trans hsame.frame⟩
  · intro s hs h
    rw [hrun]
    by_cases hP : P ∧ ∀ v ∈ S, ¬Loaded s v
    · have hstanding := (hf.standing hP.1 s hs hP.2).1
      exact hg.faulty (fun hQ => h ⟨⟨hP.1, hQ⟩, hP.2⟩) _ hstanding.accounted
    · exact hg.grows _ (hf.faulty s hs hP)
  · intro s hs
    rw [hrun]
    exact hg.grows _ (hf.grows s hs)

theorem Keeps.guarded (h : Keeps S f a P) (done : Bool) (refused : α) :
    Keeps (if done then S else []) (guarded done refused f) (if done then a else refused) (done = true → P) := by
  cases done
  · exact (balanced_pure refused).keeps.congr (by simp)
  · exact h.congr (by simp)

/-- The condition under which a call between two others leaves nothing wrong. -/
structure Decides (f : StateM (Store V) α) (C : Store V → Prop) : Prop where
  standing : ∀ s, Standing s → C s → Standing (f s).2
  faulty : ∀ s, Standing s → ¬C s → (f s).2.faults ≠ []

theorem Decides.iff {C : Store V → Prop} (h : Decides f C) (hs : Standing s) : Standing (f s).2 ↔ C s := by
  constructor
  · intro ht
    by_contra hC
    exact h.faulty s hs hC ht.faultless
  · exact h.standing s hs

theorem Balanced.decides (h : Balanced f a C) : Decides f fun _ => C where
  standing s hs hC := by
    obtain ⟨hsame, hcounts⟩ := h.same hC s hs.accounted
    exact hsame.standing hs hcounts
  faulty s hs hC := h.faulty hC s hs.accounted

theorem Keeps.decides (h : Keeps S f a P) : Decides f fun s => P ∧ ∀ v ∈ S, ¬Loaded s v where
  standing s hs hC := (h.standing hC.1 s hs hC.2).1
  faulty := h.faulty

theorem decides_releaseFrom (v : V) : Decides (releaseFrom v) fun s => Releasable s v where
  standing _ hs h := (releaseFrom_standing hs h).1
  faulty _ _ := releaseFrom_faulty

theorem Frame.releasable (h : Frame S s t) (hv : v ∉ S) : Releasable t v ↔ Releasable s v := by
  unfold Releasable
  rw [(h v hv).1, (h v hv).2]

theorem releaseFrom_next (v : V) (s : Store V) : (releaseFrom v s).2.next = s.next := by
  show (release (s.held v) s).2.next = s.next
  cases s.held v with
  | handle n => by_cases hn : n ∈ s.live <;> simp [release, hn]
  | _ => rfl

theorem releaseFrom_base (v : V) (s : Store V) : (releaseFrom v s).2.base = s.base := by
  show (release (s.held v) s).2.base = s.base
  cases s.held v with
  | handle n => by_cases hn : n ∈ s.live <;> simp [release, hn]
  | _ => rfl

variable [DecidableEq V]

theorem assign_idle (h : ¬Loaded s v) (p : Pointer) :
    assign v p s = ((), { s with held := Function.update s.held v p }) := by
  show ((), { (lose (s.held v) s).2 with held := Function.update (lose (s.held v) s).2.held v p }) = _
  rw [lose_idle h]

theorem assign_loaded (h : Loaded s v) (p : Pointer) : (assign v p s).2.faults ≠ [] := by
  obtain ⟨n, hn, hv⟩ := h
  show (lose (s.held v) s).2.faults ≠ []
  rw [hv]
  exact lose_live hn

theorem Standing.assign_null (hs : Standing s) (h : ¬Loaded s v) :
    Standing (assign v .null s).2 ∧ Frame [v] s (assign v .null s).2 := by
  rw [assign_idle h]
  have hother : ∀ w, w ≠ v → Function.update s.held v Pointer.null w = s.held w :=
    fun w hw => Function.update_of_ne hw _ _
  have hback : ∀ w n, Function.update s.held v Pointer.null w = .handle n → s.held w = .handle n := by
    intro w n hw
    by_cases hwv : w = v
    · subst hwv
      simp at hw
    · rwa [hother w hwv] at hw
  constructor
  · refine ⟨hs.accounted, hs.faultless, ?_, ?_, fun w n hw => hs.valid w n (hback w n hw)⟩
    · intro n hn
      obtain ⟨w, hw⟩ := hs.owned n hn
      refine ⟨w, (hother w ?_).trans hw⟩
      rintro rfl
      exact h ⟨n, hn, hw⟩
    · exact fun n hn w w' hw hw' => hs.single n hn w w' (hback w n hw) (hback w' n hw')
  · intro w hw
    have hwv : w ≠ v := by simpa using hw
    refine ⟨hother w hwv, ?_⟩
    unfold Loaded
    simp only [hother w hwv]

theorem Standing.assign_fresh (hs : Standing s) :
    let t : Store V := { s with
      next := s.next + 1, live := s.next :: s.live, held := Function.update s.held v (.handle s.next) }
    ¬Loaded s v → Standing t ∧ Frame [v] s t ∧ Loaded t v := by
  intro t h
  have hself : t.held v = .handle s.next := Function.update_self _ _ _
  have hother : ∀ w, w ≠ v → t.held w = s.held w := fun w hw => Function.update_of_ne hw _ _
  have hback : ∀ w n, n ≠ s.next → t.held w = .handle n → s.held w = .handle n := by
    intro w n hn hw
    by_cases hwv : w = v
    · subst hwv
      rw [hself] at hw
      exact absurd (Pointer.handle.inj hw).symm hn
    · rwa [hother w hwv] at hw
  have hnew : ∀ w, t.held w = .handle s.next → w = v := by
    intro w hw
    by_contra hwv
    rw [hother w hwv] at hw
    have hlt := hs.valid w s.next hw
    omega
  refine ⟨⟨hs.accounted.acquire, hs.faultless, ?_, ?_, ?_⟩, ?_, s.next, List.mem_cons_self, hself⟩
  · intro n hn
    rcases List.mem_cons.mp hn with rfl | hlive
    · exact ⟨v, hself⟩
    obtain ⟨w, hw⟩ := hs.owned n hlive
    refine ⟨w, (hother w ?_).trans hw⟩
    rintro rfl
    exact h ⟨n, hlive, hw⟩
  · intro n hn w w' hw hw'
    rcases List.mem_cons.mp hn with rfl | hlive
    · exact (hnew w hw).trans (hnew w' hw').symm
    · have hne : n ≠ s.next := Nat.ne_of_lt (hs.accounted.lt hlive)
      exact hs.single n hlive w w' (hback w n hne hw) (hback w' n hne hw')
  · intro w n hw
    by_cases hn : n = s.next
    · exact hn ▸ Nat.lt_succ_self _
    · exact Nat.lt_succ_of_lt (hs.valid w n (hback w n hn hw))
  · intro w hw
    have hwv : w ≠ v := by simpa using hw
    refine ⟨hother w hwv, ?_⟩
    rw [← hs.loaded_acquired w]
    unfold Loaded
    rw [hother w hwv]

theorem acquireInto_standing (hs : Standing s) (h : ¬Loaded s v) (done : Bool) :
    Standing (acquireInto v done s).2 ∧ Frame [v] s (acquireInto v done s).2 ∧
      (if done then Loaded (acquireInto v done s).2 v else (acquireInto v done s).2.held v = .null) := by
  cases done
  · obtain ⟨hstanding, hframe⟩ := hs.assign_null h
    refine ⟨hstanding, hframe, ?_⟩
    show (assign v .null s).2.held v = .null
    rw [assign_idle h]
    exact Function.update_self _ _ _
  · have hidle := mt (hs.loaded_acquired v).mp h
    show Standing (assign v (.handle s.next) _).2 ∧ Frame [v] s (assign v (.handle s.next) _).2 ∧
      Loaded (assign v (.handle s.next) _).2 v
    rw [assign_idle hidle]
    exact hs.assign_fresh h

theorem acquireInto_loaded (hs : Standing s) (h : Loaded s v) (done : Bool) :
    (acquireInto v done s).2.faults ≠ [] := by
  cases done
  · exact assign_loaded h .null
  · exact assign_loaded ((hs.loaded_acquired v).mpr h) (.handle s.next)

theorem clear_standing (hs : Standing s) (h : Releasable s v) :
    Standing (clear v s).2 ∧ Frame [v] s (clear v s).2 := by
  obtain ⟨hreleased, hframe, hidle⟩ := releaseFrom_standing hs h
  obtain ⟨hcleared, hframe'⟩ := hreleased.assign_null hidle
  exact ⟨hcleared, hframe.trans hframe'⟩

theorem Keeps.acquireInto (v : V) (done : Bool) : Keeps [v] (acquireInto v done) () True where
  result _ := rfl
  standing _ s hs hidle := by
    obtain ⟨hstanding, hframe, _⟩ := acquireInto_standing hs (hidle v (by simp)) done
    exact ⟨hstanding, hframe⟩
  faulty s hs h := acquireInto_loaded hs (by simpa using h) done
  grows := grows_acquireInto v done

/-- The held pointer's own scope is around that of the pointers that are acquired for inside it. -/
theorem Keeps.heldScope {body : StateM (Store V) α} (h : Keeps S body a P) (hv : v ∉ S)
    (leaves : α → Bool) (done : Bool) (refused : α) :
    Keeps (v :: if done then S else []) (heldScope v done refused leaves body)
      (if done then a else refused) (done = true → P) := by
  have hbody := h.guarded done refused
  have hv' : v ∉ if done then S else [] := by cases done <;> simp [hv]
  generalize (if done then S else []) = T at hbody hv'
  generalize (if done then a else refused) = c at hbody
  have hstate : ∀ s, Resources.heldScope v done refused leaves body s =
      (c, (Resources.guarded (!leaves c) () (clear v)
        (Resources.guarded done refused body (Resources.acquireInto v done s).2).2).2) := by
    intro s
    rw [← hbody.result (Resources.acquireInto v done s).2]
    rfl
  constructor
  · intro s
    rw [hstate]
  · intro hP s hs hidle
    rw [hstate]
    obtain ⟨hstanding, hframe, hheld⟩ := acquireInto_standing hs (hidle v List.mem_cons_self) done
    have hidle' : ∀ w ∈ T, ¬Loaded (Resources.acquireInto v done s).2 w := by
      intro w hw
      have hwv : w ∉ [v] := by
        rintro hmem
        exact hv' (List.mem_singleton.mp hmem ▸ hw)
      rw [(hframe w hwv).2]
      exact hidle w (List.mem_cons_of_mem _ hw)
    obtain ⟨hkept, hframe'⟩ := hbody.standing hP _ hstanding hidle'
    have houter := (hframe.mono (by simp)).trans (hframe'.mono (List.subset_cons_self v T))
    cases leaves c with
    | true => exact ⟨hkept, houter⟩
    | false =>
      have hreleasable : Releasable (Resources.guarded done refused body
          (Resources.acquireInto v done s).2).2 v := by
        cases done with
        | false => exact .inl (((hframe' v hv').1).trans hheld)
        | true => exact .inr ((hframe' v hv').2.mpr hheld)
      obtain ⟨hcleared, hframe''⟩ := clear_standing hkept hreleasable
      exact ⟨hcleared, houter.trans (hframe''.mono (by simp))⟩
  · intro s hs hnot
    rw [hstate]
    apply (grows_clear v).guarded
    by_cases hloaded : Loaded s v
    · exact hbody.grows _ (acquireInto_loaded hs hloaded done)
    · obtain ⟨hstanding, hframe, _⟩ := acquireInto_standing hs hloaded done
      apply hbody.faulty _ hstanding
      rintro ⟨hP, hidle⟩
      refine hnot ⟨hP, fun w hw => ?_⟩
      rcases List.mem_cons.mp hw with rfl | hmem
      · exact hloaded
      · have hwv : w ∉ [v] := by
          rintro hsingle
          exact hv' (List.mem_singleton.mp hsingle ▸ hmem)
        rw [← (hframe w hwv).2]
        exact hidle w hmem
  · exact grows_heldScope v done refused leaves h.grows

end Owners

end Foundation.Resources
