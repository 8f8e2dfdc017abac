import Mathlib.Logic.Basic
import Mathlib.Tactic.ByContra

namespace Foundation.Faults

universe u

variable {ε : Type u} {α β : Type u}

def Returns (x : Except ε α) (Q : α → Prop) : Prop := ∃ a, x = .ok a ∧ Q a

def Aborts (x : Except ε α) : Prop := ∃ fault, x = .error fault

/-- `C` decides between a return with `Q` and a fault. -/
structure Decides (C : Prop) (x : Except ε α) (Q : α → Prop) : Prop where
  returns : C → Returns x Q
  aborts : ¬ C → Aborts x

@[simp] theorem returns_ok (a : α) (Q : α → Prop) : Returns (.ok a : Except ε α) Q ↔ Q a := by
  simp [Returns]

@[simp] theorem returns_pure (a : α) (Q : α → Prop) : Returns (pure a : Except ε α) Q ↔ Q a :=
  returns_ok a Q

@[simp] theorem returns_error (fault : ε) (Q : α → Prop) : ¬ Returns (.error fault : Except ε α) Q := by
  simp [Returns]

@[simp] theorem returns_bind (x : Except ε α) (f : α → Except ε β) (Q : β → Prop) :
    Returns (x >>= f) Q ↔ Returns x fun a => Returns (f a) Q := by
  cases x with
  | error fault => exact iff_of_false (returns_error fault Q) (returns_error fault _)
  | ok a => exact (returns_ok a fun a => Returns (f a) Q).symm

@[simp] theorem returns_map (f : α → β) (x : Except ε α) (Q : β → Prop) :
    Returns (f <$> x) Q ↔ Returns x fun a => Q (f a) := by
  cases x with
  | error fault => exact iff_of_false (returns_error fault Q) (returns_error fault _)
  | ok a => exact (returns_ok (f a) Q).trans (returns_ok a fun a => Q (f a)).symm

@[simp] theorem returns_ite (c : Prop) [Decidable c] (x y : Except ε α) (Q : α → Prop) :
    Returns (if c then x else y) Q ↔ (c → Returns x Q) ∧ (¬ c → Returns y Q) := by
  by_cases hc : c <;> simp [hc]

theorem Returns.mono {x : Except ε α} {Q R : α → Prop} (h : Returns x Q) (hQR : ∀ a, Q a → R a) :
    Returns x R := by
  obtain ⟨a, ha, hq⟩ := h
  exact ⟨a, ha, hQR a hq⟩

theorem ok_bind (a : α) (f : α → Except ε β) : (Except.ok a >>= f) = f a := rfl

theorem map_bind (f : α → β) (x : Except ε α) {γ : Type u} (g : β → Except ε γ) :
    (x.map f >>= g) = (x >>= fun a => g (f a)) := by
  cases x <;> rfl

theorem ite_bind (c : Prop) [Decidable c] (x y : Except ε α) (f : α → Except ε β) :
    ((if c then x else y) >>= f) = if c then x >>= f else y >>= f := by
  by_cases hc : c <;> simp [hc]

theorem bind_map (x : Except ε α) {γ : Type u} (f : α → Except ε β) (g : β → γ) :
    (x >>= f).map g = (x >>= fun a => (f a).map g) := by
  cases x <;> rfl

theorem bind_ok {x : Except ε α} {f : α → Except ε β} {b : β} (h : (x >>= f) = .ok b) :
    ∃ a, x = .ok a ∧ f a = .ok b := by
  cases x with
  | error fault => cases h
  | ok a => exact ⟨a, rfl, h⟩

theorem foldlM_invariant {P : β → Prop} {f : β → α → Except ε β} (hstep : ∀ b a c, P b → f b a = .ok c → P c)
    {xs : List α} {b c : β} (hb : P b) (h : xs.foldlM f b = .ok c) : P c := by
  induction xs generalizing b with
  | nil =>
    obtain rfl : b = c := Except.ok.inj h
    exact hb
  | cons a xs ih =>
    rw [List.foldlM_cons] at h
    obtain ⟨next, hnext, hrest⟩ := bind_ok h
    exact ih (hstep b a next hb hnext) hrest

def Avoids (fault : ε) (x : Except ε α) : Prop := x ≠ .error fault

theorem Avoids.ok (fault : ε) (a : α) : Avoids fault (.ok a : Except ε α) := by simp [Avoids]

theorem Avoids.bind {fault : ε} {x : Except ε α} {f : α → Except ε β} (hx : Avoids fault x)
    (hf : ∀ a, Avoids fault (f a)) : Avoids fault (x >>= f) := by
  cases x with
  | error e => exact fun h => hx (congrArg Except.error (Except.error.inj h))
  | ok a => exact hf a

theorem Avoids.foldlM_mem {fault : ε} {f : β → α → Except ε β} {xs : List α} (hf : ∀ b, ∀ a ∈ xs, Avoids fault (f b a))
    (b : β) : Avoids fault (xs.foldlM f b) := by
  induction xs generalizing b with
  | nil => exact Avoids.ok fault b
  | cons a xs ih =>
    rw [List.foldlM_cons]
    exact (hf b a List.mem_cons_self).bind (ih fun b c hc => hf b c (List.mem_cons_of_mem _ hc))

theorem Avoids.foldlM {fault : ε} {f : β → α → Except ε β} (hf : ∀ b a, Avoids fault (f b a)) (xs : List α) (b : β) :
    Avoids fault (xs.foldlM f b) := Avoids.foldlM_mem (fun b a _ => hf b a) b

theorem aborts_iff (x : Except ε α) : Aborts x ↔ ¬ Returns x fun _ => True := by
  cases x with
  | error fault => exact iff_of_true ⟨fault, rfl⟩ (returns_error fault _)
  | ok a => simp [Aborts]

theorem Decides.of_iff {C : Prop} {x : Except ε α} {Q : α → Prop} (hiff : Returns x (fun _ => True) ↔ C)
    (h : C → Returns x Q) : Decides C x Q :=
  ⟨h, fun hc => (aborts_iff x).mpr fun hx => hc (hiff.mp hx)⟩

theorem Decides.congr {C D : Prop} {x : Except ε α} {Q : α → Prop} (h : Decides C x Q) (hCD : C ↔ D) :
    Decides D x Q := ⟨fun hd => h.returns (hCD.mpr hd), fun hd => h.aborts fun hc => hd (hCD.mp hc)⟩

theorem Decides.of_returns {C : Prop} {x : Except ε α} {Q : α → Prop} (hc : C) (h : Returns x Q) :
    Decides C x Q := ⟨fun _ => h, fun hn => absurd hc hn⟩

theorem Decides.of_aborts {C : Prop} {x : Except ε α} {Q : α → Prop} (hc : ¬ C) (h : Aborts x) :
    Decides C x Q := ⟨fun hp => absurd hp hc, fun _ => h⟩

theorem Decides.map {C : Prop} {x : Except ε α} {Q : α → Prop} {R : β → Prop} (f : α → β) (h : Decides C x Q)
    (hf : ∀ a, Q a → R (f a)) : Decides C (f <$> x) R := by
  refine ⟨fun hc => (returns_map f x R).mpr ((h.returns hc).mono hf), fun hc => ?_⟩
  obtain ⟨fault, rfl⟩ := h.aborts hc
  exact ⟨fault, rfl⟩

theorem Decides.bind {C D : Prop} {x : Except ε α} {f : α → Except ε β} {Q : α → Prop} {R : β → Prop}
    (h : Decides C x Q) (hf : ∀ a, Q a → Decides D (f a) R) : Decides (C ∧ D) (x >>= f) R := by
  constructor
  · rintro ⟨hc, hd⟩
    obtain ⟨a, rfl, ha⟩ := h.returns hc
    exact (hf a ha).returns hd
  · intro hn
    by_cases hc : C
    · obtain ⟨a, rfl, ha⟩ := h.returns hc
      exact (hf a ha).aborts fun hd => hn ⟨hc, hd⟩
    · obtain ⟨fault, rfl⟩ := h.aborts hc
      exact ⟨fault, rfl⟩

theorem Decides.returns_iff {C : Prop} {x : Except ε α} {Q : α → Prop} (h : Decides C x Q) :
    Returns x (fun _ => True) ↔ C := by
  constructor
  · intro hx
    by_contra hc
    exact (aborts_iff x).mp (h.aborts hc) hx
  · intro hc
    exact (h.returns hc).mono fun _ _ => trivial

end Foundation.Faults
