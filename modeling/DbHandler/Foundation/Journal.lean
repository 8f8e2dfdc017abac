import Mathlib.Data.List.Basic

namespace Foundation.Journal

variable {σ : Type*}

/-- What an accepted statement does to the transaction of its connection. -/
inductive Entry (σ : Type*)
  | start
  | commit
  | rollback
  | work (s : σ)
  deriving DecidableEq, Repr

structure Store (σ : Type*) where
  active : Bool
  pending : List σ
  durable : List σ

def Store.idle : Store σ := ⟨false, [], []⟩

/-- Work outside a transaction is durable at once; a second start changes nothing. -/
def Store.apply (st : Store σ) : Entry σ → Store σ
  | .start => { st with active := true }
  | .commit => ⟨false, [], st.durable ++ st.pending⟩
  | .rollback => ⟨false, [], st.durable⟩
  | .work s => if st.active then { st with pending := st.pending ++ [s] } else { st with durable := st.durable ++ [s] }

def replay (st : Store σ) (journal : List (Entry σ)) : Store σ := journal.foldl Store.apply st

@[simp] theorem replay_nil (st : Store σ) : replay st [] = st := rfl

@[simp] theorem replay_cons (st : Store σ) (e : Entry σ) (journal : List (Entry σ)) :
    replay st (e :: journal) = replay (st.apply e) journal := rfl

@[simp] theorem replay_append (st : Store σ) (journal rest : List (Entry σ)) :
    replay st (journal ++ rest) = replay (replay st journal) rest := List.foldl_append ..

@[simp] theorem apply_start_active (st : Store σ) : (st.apply .start).active = true := rfl

@[simp] theorem apply_commit_active (st : Store σ) : (st.apply .commit).active = false := rfl

@[simp] theorem apply_rollback_active (st : Store σ) : (st.apply .rollback).active = false := rfl

@[simp] theorem apply_work_active (st : Store σ) (s : σ) : (st.apply (.work s)).active = st.active := by
  cases hactive : st.active <;> simp [Store.apply, hactive]

theorem replay_work {st : Store σ} (h : st.active = true) (objects : List σ) :
    replay st (objects.map .work) = { st with pending := st.pending ++ objects } := by
  induction objects generalizing st with
  | nil => simp
  | cons s objects ih =>
    rw [List.map_cons, replay_cons, ih (by simpa using h)]
    simp [Store.apply, h]

theorem replay_transaction (objects : List σ) :
    replay .idle (.start :: objects.map .work) = ⟨true, objects, []⟩ := by
  rw [replay_cons, replay_work rfl]
  rfl

def Quiet (before after : List (Entry σ)) : Prop := ∃ rest, after = before ++ rest ∧ ∀ s, Entry.work s ∉ rest

namespace Quiet

variable {journal before after later : List (Entry σ)}

@[refl] theorem refl (journal : List (Entry σ)) : Quiet journal journal := ⟨[], by simp, by simp⟩

theorem of_eq (h : after = before) : Quiet before after := ⟨[], by simp [h], by simp⟩

theorem append {rest : List (Entry σ)} (h : ∀ s, Entry.work s ∉ rest) : Quiet journal (journal ++ rest) := ⟨rest, rfl, h⟩

@[trans] theorem trans (h : Quiet before after) (h' : Quiet after later) : Quiet before later := by
  obtain ⟨rest, rfl, hrest⟩ := h
  obtain ⟨rest', rfl, hrest'⟩ := h'
  refine ⟨rest ++ rest', List.append_assoc .., fun s hs => ?_⟩
  rcases List.mem_append.mp hs with hs | hs
  · exact hrest s hs
  · exact hrest' s hs

end Quiet

end Foundation.Journal
