import Mathlib.Data.List.Basic
import Mathlib.Logic.Function.Iterate
import Mathlib.Tactic.Tauto

namespace Foundation

/-- Versions with a place among them: the ones before it and the ones after it, both nearest first, or no place at all. -/
inductive Timeline (δ : Type*)
  | off (kept : List δ)
  | here (older : List δ) (now : δ) (newer : List δ)
  deriving DecidableEq, Repr

namespace Timeline

variable {δ : Type*}

/-- The oldest version goes where there would be more than `depth` with the new one. -/
def bounded (depth : ℕ) (older : List δ) : List δ := if depth ≤ older.length then older.dropLast else older

def save (depth : ℕ) (d : δ) : Timeline δ → Timeline δ
  | off kept => .here (bounded depth kept.reverse) d []
  | .here older now _ => .here (bounded depth (now :: older)) d []

def undo : Timeline δ → Timeline δ
  | .here (d :: older) now newer => .here older d (now :: newer)
  | .here [] now newer => off (now :: newer)
  | off kept => off kept

def redo : Timeline δ → Timeline δ
  | .here older now (d :: newer) => .here (now :: older) d newer
  | .here older now [] => off (older.reverse ++ [now])
  | off kept => off kept

def present : Timeline δ → Option δ
  | .here _ now _ => some now
  | off _ => none

def canUndo : Timeline δ → Bool
  | .here older _ _ => !older.isEmpty
  | off _ => false

def canRedo : Timeline δ → Bool
  | .here _ _ newer => !newer.isEmpty
  | off _ => false

variable {t : Timeline δ} {depth : ℕ}

theorem redo_undo (h : t.canUndo = true) : t.undo.redo = t := by
  cases t with
  | off kept => cases h
  | here older now newer =>
    cases older with
    | nil => cases h
    | cons d older => rfl

theorem present_undo : t.undo.present.isSome = t.canUndo := by
  cases t with
  | off kept => rfl
  | here older now newer => cases older <;> rfl

theorem present_save (d : δ) : (t.save depth d).present = some d := by
  cases t <;> rfl

/-- As many versions as are older can be gone back. -/
theorem undo_iterate (older : List δ) (now : δ) (newer : List δ) {k : ℕ} (h : k < (now :: older).length) :
    ((undo^[k]) (.here older now newer)).present = some (now :: older)[k] := by
  induction k generalizing older now newer with
  | zero => rfl
  | succ k ih =>
    cases older with
    | nil => simp at h
    | cons d older =>
      rw [Function.iterate_succ_apply]
      exact ih older d (now :: newer) (by simpa using h)

/-- Going forward takes back as many steps as were gone back. -/
theorem redo_undo_iterate (older : List δ) (now : δ) (newer : List δ) {j k : ℕ} (hj : j ≤ k)
    (hk : k < (now :: older).length) :
    (redo^[j]) ((undo^[k]) (.here older now newer)) = (undo^[k - j]) (.here older now newer) := by
  induction j generalizing k with
  | zero => rfl
  | succ j ih =>
    obtain ⟨i, rfl⟩ : ∃ i, k = i + 1 := ⟨k - 1, by omega⟩
    have hback : ((undo^[i]) (.here older now newer)).canUndo = true := by
      have hpresent := undo_iterate older now newer hk
      rw [Function.iterate_succ_apply'] at hpresent
      rw [← present_undo, hpresent]
      rfl
    rw [Function.iterate_succ_apply, Function.iterate_succ_apply', redo_undo hback, Nat.add_sub_add_right]
    exact ih (by omega) (by omega)

/-- Where there is room for them, all versions that are saved are kept. -/
theorem saveAll (older : List δ) (now : δ) (newer docs : List δ) (h : older.length + docs.length < depth) :
    ∃ older' now' newer', docs.foldl (fun t d => save depth d t) (.here older now newer) = .here older' now' newer' ∧
      now' :: older' = docs.reverse ++ now :: older := by
  induction docs generalizing older now newer with
  | nil => exact ⟨older, now, newer, rfl, rfl⟩
  | cons d docs ih =>
    rw [List.length_cons] at h
    have hkept : bounded depth (now :: older) = now :: older := by
      apply if_neg
      rw [List.length_cons]
      omega
    obtain ⟨older', now', newer', hfold, hall⟩ := ih (now :: older) d [] (by rw [List.length_cons]; omega)
    refine ⟨older', now', newer', ?_, ?_⟩
    · rw [List.foldl_cons, save, hkept, hfold]
    · rw [hall, List.reverse_cons, List.append_assoc, List.singleton_append]

section Mapping

variable {ε : Type*} (f : δ → ε)

def map : Timeline δ → Timeline ε
  | off kept => off (kept.map f)
  | here older now newer => here (older.map f) (f now) (newer.map f)

theorem bounded_map (older : List δ) : bounded depth (older.map f) = (bounded depth older).map f := by
  rw [bounded, bounded, List.length_map]
  split
  · exact (List.map_dropLast ..).symm
  · rfl

theorem map_save (d : δ) (t : Timeline δ) : (t.save depth d).map f = (t.map f).save depth (f d) := by
  cases t with
  | off kept => rw [save, map, map, save, ← List.map_reverse, bounded_map, List.map_nil]
  | here older now newer => rw [save, map, map, save, ← List.map_cons, bounded_map, List.map_nil]

theorem map_undo (t : Timeline δ) : t.undo.map f = (t.map f).undo := by
  cases t with
  | off kept => rfl
  | here older now newer => cases older <;> rfl

theorem map_redo (t : Timeline δ) : t.redo.map f = (t.map f).redo := by
  cases t with
  | off kept => rfl
  | here older now newer =>
    cases newer with
    | nil => simp [redo, map]
    | cons d newer => rfl

theorem present_map (t : Timeline δ) : (t.map f).present = t.present.map f := by
  cases t <;> rfl

theorem canUndo_map (t : Timeline δ) : (t.map f).canUndo = t.canUndo := by
  cases t with
  | off kept => rfl
  | here older now newer => cases older <;> rfl

theorem canRedo_map (t : Timeline δ) : (t.map f).canRedo = t.canRedo := by
  cases t with
  | off kept => rfl
  | here older now newer => cases newer <;> rfl

end Mapping

section Versions

/-- All versions that are kept, wherever they stand. -/
def versions : Timeline δ → List δ
  | off kept => kept
  | here older now newer => older ++ now :: newer

theorem mem_bounded {older : List δ} {d : δ} (h : d ∈ bounded depth older) : d ∈ older := by
  rw [bounded] at h
  split at h
  · exact (List.dropLast_sublist older).subset h
  · exact h

theorem mem_save {d e : δ} (h : e ∈ (t.save depth d).versions) : e = d ∨ e ∈ t.versions := by
  cases t with
  | off kept =>
    rcases List.mem_append.mp h with h | h
    · exact .inr (List.mem_reverse.mp (mem_bounded h))
    · exact .inl (List.mem_singleton.mp h)
  | here older now newer =>
    rcases List.mem_append.mp h with h | h
    · right
      rcases List.mem_cons.mp (mem_bounded h) with rfl | h
      · exact List.mem_append_right _ List.mem_cons_self
      · exact List.mem_append_left _ h
    · exact .inl (List.mem_singleton.mp h)

theorem mem_undo {d : δ} : d ∈ t.undo.versions ↔ d ∈ t.versions := by
  cases t with
  | off kept => rfl
  | here older now newer =>
    cases older with
    | nil => rfl
    | cons e older =>
      simp only [undo, versions, List.mem_append, List.mem_cons]
      tauto

theorem mem_redo {d : δ} : d ∈ t.redo.versions ↔ d ∈ t.versions := by
  cases t with
  | off kept => rfl
  | here older now newer =>
    cases newer with
    | nil =>
      simp only [redo, versions, List.mem_append, List.mem_reverse]
    | cons e newer =>
      simp only [redo, versions, List.mem_append, List.mem_cons]
      tauto

theorem present_mem {d : δ} (h : t.present = some d) : d ∈ t.versions := by
  cases t with
  | off kept => cases h
  | here older now newer =>
    obtain rfl := Option.some.inj h
    exact List.mem_append_right _ List.mem_cons_self

end Versions

end Timeline

end Foundation
