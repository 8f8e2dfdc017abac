import DbHandler.Foundation.Faults

namespace Foundation.Tolerance

variable {φ σ α β : Type}

/-- A computation that records its faults and goes on. -/
def Tolerant (φ σ α : Type) : Type := σ → (α × σ) × List φ

instance : Monad (Tolerant φ σ) where
  pure a := fun s => ((a, s), [])
  bind x f := fun s => ((f (x s).1.1 (x s).1.2).1, (x s).2 ++ (f (x s).1.1 (x s).1.2).2)

/-- A call that is refused: the state stays as it is, and the caller is given `refused`. -/
def tolerate (refused : α) (f : σ → Except φ (α × σ)) : Tolerant φ σ α := fun s =>
  match f s with
  | .ok r => (r, [])
  | .error fault => ((refused, s), [fault])

def modify (f : σ → σ) : Tolerant φ σ Unit := fun s => (((), f s), [])

def get : Tolerant φ σ σ := fun s => ((s, s), [])

def firstFault (x : Tolerant φ σ α) (s : σ) : Except φ (α × σ) :=
  match (x s).2 with
  | [] => .ok (x s).1
  | fault :: _ => .error fault

def Keeps (R : σ → σ → Prop) (x : Tolerant φ σ α) : Prop := ∀ s, R s (x s).1.2

theorem bind_apply (x : Tolerant φ σ α) (f : α → Tolerant φ σ β) (s : σ) :
    (x >>= f) s = ((f (x s).1.1 (x s).1.2).1, (x s).2 ++ (f (x s).1.1 (x s).1.2).2) := rfl

namespace Keeps

variable {R : σ → σ → Prop}

theorem pure (hrefl : ∀ s, R s s) (a : α) : Keeps R (Pure.pure a : Tolerant φ σ α) := hrefl

theorem bind (htrans : ∀ {s t u}, R s t → R t u → R s u) {x : Tolerant φ σ α} {f : α → Tolerant φ σ β}
    (hx : Keeps R x) (hf : ∀ a, Keeps R (f a)) : Keeps R (x >>= f) := fun s =>
  htrans (hx s) (hf _ _)

theorem ite {c : Prop} [Decidable c] {x y : Tolerant φ σ α} (hx : c → Keeps R x) (hy : ¬ c → Keeps R y) :
    Keeps R (if c then x else y) := by
  by_cases h : c
  · rw [if_pos h]
    exact hx h
  · rw [if_neg h]
    exact hy h

theorem tolerate (hrefl : ∀ s, R s s) {refused : α} {f : σ → Except φ (α × σ)}
    (hf : ∀ s a t, f s = .ok (a, t) → R s t) : Keeps R (tolerate refused f) := by
  intro s
  rw [Tolerance.tolerate]
  cases h : f s with
  | error fault => exact hrefl s
  | ok r => exact hf s r.1 r.2 h

end Keeps

section FirstFault

theorem firstFault_pure (a : α) (s : σ) : firstFault (pure a : Tolerant φ σ α) s = .ok (a, s) := rfl

theorem firstFault_tolerate (refused : α) (f : σ → Except φ (α × σ)) (s : σ) :
    firstFault (tolerate refused f) s = f s := by
  rw [firstFault, tolerate]
  cases f s <;> rfl

theorem firstFault_bind (x : Tolerant φ σ α) (f : α → Tolerant φ σ β) (s : σ) :
    firstFault (x >>= f) s = (firstFault x s >>= fun r => firstFault (f r.1) r.2) := by
  rw [firstFault, firstFault, bind_apply]
  cases (x s).2 <;> rfl

theorem firstFault_ite {c : Prop} [Decidable c] (x y : Tolerant φ σ α) (s : σ) :
    firstFault (if c then x else y) s = if c then firstFault x s else firstFault y s := by
  by_cases h : c <;> simp [h]

end FirstFault

end Foundation.Tolerance
