import Mathlib.Data.List.Infix

namespace Foundation.Runs

variable {σ ε : Type*} {step : σ → ε → Option σ}

/-- The state after a list of events; a refused event ends the run. -/
def run (step : σ → ε → Option σ) : σ → List ε → Option σ
  | s, [] => some s
  | s, e :: es => (step s e).bind fun t => run step t es

/-- `P` holds in every state that a prefix of the events reaches. -/
def Throughout (step : σ → ε → Option σ) (P : σ → Prop) (s : σ) (es : List ε) : Prop :=
  ∀ pre, pre <+: es → ∀ t, run step s pre = some t → P t

/-- Every event that is carried out relates the states before and after it by `Q`. -/
def EachStep (step : σ → ε → Option σ) (Q : σ → ε → σ → Prop) (s : σ) (es : List ε) : Prop :=
  ∀ pre e, pre ++ [e] <+: es → ∀ t u, run step s pre = some t → step t e = some u → Q t e u

@[simp] theorem run_nil (s : σ) : run step s [] = some s := rfl

theorem run_cons (s : σ) (e : ε) (es : List ε) :
    run step s (e :: es) = (step s e).bind fun t => run step t es := rfl

theorem run_append (s : σ) (es fs : List ε) :
    run step s (es ++ fs) = (run step s es).bind fun t => run step t fs := by
  induction es generalizing s with
  | nil => rfl
  | cons e es ih => cases h : step s e <;> simp [run_cons, h, ih]

theorem run_concat (s : σ) (es : List ε) (e : ε) :
    run step s (es ++ [e]) = (run step s es).bind fun t => step t e := by
  simp [run_append, run_cons]

theorem eachStep_nil (Q : σ → ε → σ → Prop) (s : σ) : EachStep step Q s [] := by
  intro pre e h
  simp at h

theorem eachStep_cons (Q : σ → ε → σ → Prop) (s : σ) (e : ε) (es : List ε) :
    EachStep step Q s (e :: es) ↔ ∀ t, step s e = some t → Q s e t ∧ EachStep step Q t es := by
  constructor
  · intro h t ht
    refine ⟨h [] e (by simp) s t rfl ht, fun pre f hpre u v hu hv => ?_⟩
    exact h (e :: pre) f (by simpa using hpre) u v (by simpa [run_cons, ht] using hu) hv
  · intro h pre f hpre u v hu hv
    cases pre with
    | nil =>
      obtain rfl : f = e := by simpa using hpre
      obtain rfl : s = u := by simpa using hu
      exact (h v hv).1
    | cons g pre =>
      obtain ⟨rfl, hrest⟩ : g = e ∧ pre ++ [f] <+: es := by simpa using hpre
      obtain ⟨t, ht, hu⟩ := Option.bind_eq_some_iff.mp hu
      exact (h t ht).2 pre f hrest u v hu hv

theorem throughout_iff (P : σ → Prop) (s : σ) (es : List ε) :
    Throughout step P s es ↔ P s ∧ EachStep step (fun _ _ t => P t) s es := by
  constructor
  · intro h
    refine ⟨h [] (by simp) s rfl, fun pre e hpre t u ht hu => ?_⟩
    exact h _ hpre u (by simp [run_concat, ht, hu])
  · rintro ⟨hs, h⟩ pre hpre t ht
    rcases List.eq_nil_or_concat pre with rfl | ⟨pre, e, rfl⟩
    · obtain rfl : s = t := by simpa using ht
      exact hs
    · rw [List.concat_eq_append, run_concat] at ht
      obtain ⟨u, hu, ht⟩ := Option.bind_eq_some_iff.mp ht
      exact h pre e (by simpa using hpre) u t hu ht

theorem throughout_cons (P : σ → Prop) (s : σ) (e : ε) (es : List ε) :
    Throughout step P s (e :: es) ↔ P s ∧ ∀ t, step s e = some t → Throughout step P t es := by
  rw [throughout_iff, eachStep_cons]
  refine and_congr_right fun _ => forall_congr' fun t => imp_congr_right fun _ => ?_
  rw [throughout_iff]

theorem throughout_append (P : σ → Prop) (s : σ) (es fs : List ε) :
    Throughout step P s (es ++ fs) ↔
      Throughout step P s es ∧ ∀ t, run step s es = some t → Throughout step P t fs := by
  induction es generalizing s with
  | nil =>
    constructor
    · intro h
      refine ⟨(throughout_iff P s []).mpr ⟨((throughout_iff P s fs).mp h).1, eachStep_nil _ s⟩, fun t ht => ?_⟩
      obtain rfl : s = t := by simpa using ht
      exact h
    · rintro ⟨-, h⟩
      exact h s rfl
  | cons e es ih =>
    rw [List.cons_append, throughout_cons, throughout_cons]
    constructor
    · rintro ⟨hs, h⟩
      refine ⟨⟨hs, fun t ht => ((ih t).mp (h t ht)).1⟩, fun u hu => ?_⟩
      obtain ⟨t, ht, hu⟩ := Option.bind_eq_some_iff.mp hu
      exact ((ih t).mp (h t ht)).2 u hu
    · rintro ⟨⟨hs, h⟩, hrest⟩
      refine ⟨hs, fun t ht => (ih t).mpr ⟨h t ht, fun u hu => hrest u ?_⟩⟩
      rw [run_cons, ht]
      exact hu

theorem run_relabel {δ : Type*} (g : δ → ε) (s : σ) (es : List δ) :
    run step s (es.map g) = run (fun s e => step s (g e)) s es := by
  induction es generalizing s with
  | nil => rfl
  | cons e es ih => exact congrArg (Option.bind _) (funext fun t => ih t)

theorem throughout_relabel {δ : Type*} (g : δ → ε) (P : σ → Prop) (s : σ) (es : List δ) :
    Throughout step P s (es.map g) ↔ Throughout (fun s e => step s (g e)) P s es := by
  induction es generalizing s with
  | nil => rw [List.map_nil, throughout_iff, throughout_iff]; simp only [eachStep_nil]
  | cons e es ih =>
    rw [List.map_cons, throughout_cons, throughout_cons]
    exact and_congr_right fun _ => forall_congr' fun t => imp_congr_right fun _ => ih t

section Projection

variable {τ : Type*} {step' : τ → ε → Option τ} {f : σ → τ}

/-- Where the steps of one system are those of another seen through `f`, so are its runs. -/
theorem run_map (h : ∀ s e, (step s e).map f = step' (f s) e) (s : σ) (es : List ε) :
    (run step s es).map f = run step' (f s) es := by
  induction es generalizing s with
  | nil => rfl
  | cons e es ih =>
    rw [run_cons, run_cons, ← h s e]
    cases step s e with
    | none => rfl
    | some t => exact ih t

theorem throughout_map (h : ∀ s e, (step s e).map f = step' (f s) e) (P : τ → Prop) (s : σ) (es : List ε) :
    Throughout step (fun t => P (f t)) s es ↔ Throughout step' P (f s) es := by
  refine forall_congr' fun pre => imp_congr_right fun _ => ?_
  rw [← run_map h s pre]
  constructor
  · intro hall t ht
    obtain ⟨u, hu, rfl⟩ := Option.map_eq_some_iff.mp ht
    exact hall u hu
  · intro hall t ht
    exact hall (f t) (by rw [ht]; rfl)

end Projection

/-- The step lemma: where `Q` of a single step is decided by a condition `C` on the state before
it, `Q` holds at each step of a run exactly when `C` does. -/
theorem eachStep_iff {P : σ → Prop} {Q : σ → ε → σ → Prop} {C : σ → ε → Prop}
    (keep : ∀ s e t, P s → step s e = some t → Q s e t → P t)
    (decided : ∀ s e t, P s → step s e = some t → (Q s e t ↔ C s e))
    {s : σ} (hs : P s) (es : List ε) :
    EachStep step Q s es ↔ EachStep step (fun t e _ => C t e) s es := by
  induction es generalizing s with
  | nil => simp [eachStep_nil]
  | cons e es ih =>
    rw [eachStep_cons, eachStep_cons]
    refine forall_congr' fun t => imp_congr_right fun ht => ?_
    rw [decided s e t hs ht]
    constructor
    · rintro ⟨hc, h⟩
      exact ⟨hc, (ih (keep s e t hs ht ((decided s e t hs ht).mpr hc))).mp h⟩
    · rintro ⟨hc, h⟩
      exact ⟨hc, (ih (keep s e t hs ht ((decided s e t hs ht).mpr hc))).mpr h⟩

theorem eachStep_of_condition {P : σ → Prop} {Q : σ → ε → σ → Prop} {C : σ → ε → Prop}
    (keep : ∀ s e t, P s → step s e = some t → Q s e t → P t)
    (sound : ∀ s e t, P s → step s e = some t → C s e → Q s e t)
    {s : σ} (hs : P s) (es : List ε) (h : EachStep step (fun t e _ => C t e) s es) :
    EachStep step Q s es := by
  induction es generalizing s with
  | nil => exact eachStep_nil Q s
  | cons e es ih =>
    rw [eachStep_cons] at h ⊢
    intro t ht
    have hq := sound s e t hs ht (h t ht).1
    exact ⟨hq, ih (keep s e t hs ht hq) (h t ht).2⟩

/-- `C` holds before every event that is reached, whether or not it is carried out. -/
def Before (step : σ → ε → Option σ) (C : σ → ε → Prop) (s : σ) (es : List ε) : Prop :=
  ∀ pre e, pre ++ [e] <+: es → ∀ t, run step s pre = some t → C t e

theorem before_nil (C : σ → ε → Prop) (s : σ) : Before step C s [] := by
  intro pre e h
  simp at h

theorem before_cons (C : σ → ε → Prop) (s : σ) (e : ε) (es : List ε) :
    Before step C s (e :: es) ↔ C s e ∧ ∀ t, step s e = some t → Before step C t es := by
  constructor
  · intro h
    refine ⟨h [] e (by simp) s rfl, fun t ht pre f hpre u hu => ?_⟩
    exact h (e :: pre) f (by simpa using hpre) u (by simpa [run_cons, ht] using hu)
  · rintro ⟨hfirst, hrest⟩ pre f hpre u hu
    cases pre with
    | nil =>
      obtain rfl : f = e := by simpa using hpre
      obtain rfl : s = u := by simpa using hu
      exact hfirst
    | cons g pre =>
      obtain ⟨rfl, hes⟩ : g = e ∧ pre ++ [f] <+: es := by simpa using hpre
      obtain ⟨t, ht, hu⟩ := Option.bind_eq_some_iff.mp hu
      exact hrest t ht pre f hes u hu

instance decidableBefore (C : σ → ε → Prop) [∀ s e, Decidable (C s e)] :
    ∀ (s : σ) (es : List ε), Decidable (Before step C s es)
  | s, [] => .isTrue (before_nil C s)
  | s, e :: es =>
    have : Decidable (∀ t, step s e = some t → Before step C t es) :=
      match step s e with
      | none => .isTrue fun _ h => by cases h
      | some t =>
        have := decidableBefore C t es
        decidable_of_iff (Before step C t es) ⟨fun h _ hu => Option.some.inj hu ▸ h, fun h => h t rfl⟩
    decidable_of_iff _ (before_cons C s e es).symm

theorem eachStep_of_before {C : σ → ε → Prop} {s : σ} {es : List ε} (h : Before step C s es) :
    EachStep step (fun s e _ => C s e) s es :=
  fun pre e hpre t _ ht _ => h pre e hpre t ht

/-- A run whose events all meet the condition is carried out to its end. -/
theorem run_of_before {P : σ → Prop} {Q : σ → ε → σ → Prop} {C : σ → ε → Prop}
    (progress : ∀ s e, P s → C s e → ∃ t, step s e = some t ∧ P t ∧ Q s e t) {s : σ} (hs : P s) (es : List ε)
    (h : Before step C s es) :
    (∃ t, run step s es = some t) ∧ Throughout step P s es ∧ EachStep step Q s es := by
  induction es generalizing s with
  | nil => exact ⟨⟨s, rfl⟩, (throughout_iff P s []).mpr ⟨hs, eachStep_nil _ s⟩, eachStep_nil Q s⟩
  | cons e es ih =>
    obtain ⟨hcond, hrest⟩ := (before_cons C s e es).mp h
    obtain ⟨t, ht, hP, hQ⟩ := progress s e hs hcond
    obtain ⟨⟨u, hu⟩, hthrough, heach⟩ := ih hP (hrest t ht)
    have honly : ∀ t', step s e = some t' → t' = t := fun t' ht' => Option.some.inj (ht'.symm.trans ht)
    refine ⟨⟨u, by rw [run_cons, ht]; exact hu⟩, (throughout_iff P s _).mpr ⟨hs, ?_⟩, ?_⟩
    · rw [eachStep_cons]
      intro t' ht'
      rw [honly t' ht']
      exact ⟨hP, ((throughout_iff P t es).mp hthrough).2⟩
    · rw [eachStep_cons]
      intro t' ht'
      rw [honly t' ht']
      exact ⟨hQ, heach⟩

/-- Where `C` decides whether an event is carried out with `P` and `Q`, it decides over a run whether
all of it is carried out, with `P` in every state and `Q` at every event. -/
theorem upheld_iff {P : σ → Prop} {Q : σ → ε → σ → Prop} {C : σ → ε → Prop}
    (decided : ∀ s e, P s → ((∃ t, step s e = some t ∧ P t ∧ Q s e t) ↔ C s e)) {s : σ} (hs : P s) (es : List ε) :
    ((run step s es).isSome ∧ Throughout step P s es ∧ EachStep step Q s es) ↔ Before step C s es := by
  constructor
  · rintro ⟨hrun, hthrough, heach⟩ pre e hpre t ht
    obtain ⟨rest, rfl⟩ := hpre
    have hP : P t := hthrough pre ⟨[e] ++ rest, by simp⟩ t ht
    rw [List.append_assoc, run_append, ht, Option.bind_some, List.singleton_append, run_cons, Option.isSome_iff_exists] at hrun
    obtain ⟨v, hv⟩ := hrun
    obtain ⟨u, hu, -⟩ := Option.bind_eq_some_iff.mp hv
    have hrun_u : run step s (pre ++ [e]) = some u := by rw [run_concat, ht, Option.bind_some, hu]
    exact (decided t e hP).mp ⟨u, hu, hthrough _ (List.prefix_append _ _) u hrun_u,
      heach pre e (List.prefix_append _ _) t u ht hu⟩
  · intro h
    obtain ⟨hrun, hthrough, heach⟩ := run_of_before (fun s e hP hC => (decided s e hP).mpr hC) hs es h
    exact ⟨Option.isSome_iff_exists.mpr hrun, hthrough, heach⟩

/-- The same where only the states matter. -/
theorem kept_run_iff {P : σ → Prop} {C : σ → ε → Prop}
    (decided : ∀ s e, P s → ((∃ t, step s e = some t ∧ P t) ↔ C s e)) {s : σ} (hs : P s) (es : List ε) :
    ((run step s es).isSome ∧ Throughout step P s es) ↔ Before step C s es := by
  have hdecided (s : σ) (e : ε) (hs : P s) : (∃ t, step s e = some t ∧ P t ∧ True) ↔ C s e := by
    simpa using decided s e hs
  rw [← upheld_iff hdecided hs es, and_congr_right_iff]
  intro _
  exact (and_iff_left fun _ _ _ _ _ _ _ => trivial).symm

theorem throughout_of_kept {I : σ → Prop} (keep : ∀ s e t, I s → step s e = some t → I t) {s : σ} (hs : I s)
    (es : List ε) : Throughout step I s es := by
  induction es generalizing s with
  | nil => exact (throughout_iff I s []).mpr ⟨hs, eachStep_nil _ s⟩
  | cons e es ih =>
    rw [throughout_cons]
    exact ⟨hs, fun t ht => ih (keep s e t hs ht)⟩

/-- The same beside an invariant that every event keeps. -/
theorem kept_run_beside_iff {I P : σ → Prop} {C : σ → ε → Prop} (keep : ∀ s e t, I s → step s e = some t → I t)
    (decided : ∀ s e, I s → P s → ((∃ t, step s e = some t ∧ P t) ↔ C s e)) {s : σ} (hI : I s) (hs : P s) (es : List ε) :
    ((run step s es).isSome ∧ Throughout step P s es) ↔ Before step C s es := by
  have hkept := throughout_of_kept keep hI es
  have hdecided (s : σ) (e : ε) (h : I s ∧ P s) : (∃ t, step s e = some t ∧ I t ∧ P t) ↔ C s e := by
    rw [← decided s e h.1 h.2]
    exact exists_congr fun t => and_congr_right fun ht => and_iff_right (keep s e t h.1 ht)
  rw [← kept_run_iff hdecided ⟨hI, hs⟩ es]
  refine and_congr_right fun _ => ?_
  refine forall_congr' fun pre => imp_congr_right fun hpre => forall_congr' fun t => imp_congr_right fun ht => ?_
  exact (and_iff_right (hkept pre hpre t ht)).symm

theorem run_total (on : σ → ε → σ) (s : σ) (es : List ε) :
    run (fun s e => some (on s e)) s es = some (es.foldl on s) := by
  induction es generalizing s with
  | nil => rfl
  | cons e es ih => exact ih (on s e)

/-- The same where every event is carried out. -/
theorem kept_run_total_iff {on : σ → ε → σ} {P : σ → Prop} {C : σ → ε → Prop}
    (decided : ∀ s e, P s → (P (on s e) ↔ C s e)) {s : σ} (hs : P s) (es : List ε) :
    (∀ pre, pre <+: es → P (pre.foldl on s)) ↔ ∀ pre e, pre ++ [e] <+: es → C (pre.foldl on s) e := by
  have hdecided (s : σ) (e : ε) (hs : P s) : (∃ t, some (on s e) = some t ∧ P t) ↔ C s e := by
    simpa using decided s e hs
  have hrun := kept_run_iff hdecided hs es
  simp only [Throughout, Before, run_total, Option.isSome_some, Option.some.injEq, forall_eq', true_and] at hrun
  exact hrun

end Foundation.Runs
