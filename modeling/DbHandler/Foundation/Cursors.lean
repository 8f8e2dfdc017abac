import DbHandler.Foundation.Separators
import Mathlib.Tactic.Common

namespace Foundation.Cursors

open Separators

/-- A pointer into a memory: the cells in front of it, the nearest first, and those from it on. -/
structure MemoryCursor (α : Type*) where
  behind : List α
  ahead : List α
  deriving DecidableEq, Repr

variable {α β : Type*}

namespace MemoryCursor

def memory (c : MemoryCursor α) : List α := c.behind.reverse ++ c.ahead

/-- `*c = x`; `none` outside the memory. -/
def store (x : α) (c : MemoryCursor α) : Option (MemoryCursor α) :=
  match c.ahead with
  | [] => none
  | _ :: ahead => some ⟨c.behind, x :: ahead⟩

/-- `*c++ = x`. -/
def put (x : α) (c : MemoryCursor α) : Option (MemoryCursor α) :=
  match c.ahead with
  | [] => none
  | _ :: ahead => some ⟨x :: c.behind, ahead⟩

def putAll (c : MemoryCursor α) (xs : List α) : Option (MemoryCursor α) := xs.foldlM (fun c x => c.put x) c

end MemoryCursor

section Loops

variable [DecidableEq α] (nul : α)

/-- `while( *c ) c++`. -/
def seek (behind : List α) : List α → Option (MemoryCursor α)
  | [] => none
  | x :: ahead => if x = nul then some ⟨behind, x :: ahead⟩ else seek (x :: behind) ahead

/-- `while( *src ) *c++ = *src++`. -/
def copy (convert : α → β) : List α → MemoryCursor β → Option (MemoryCursor β)
  | [], _ => none
  | x :: src, c => if x = nul then some c else (c.put (convert x)).bind (copy convert src)

/-- `while( *src ) dest += *src++`. -/
def read (convert : α → β) (dest : List β) : List α → Option (List β)
  | [] => none
  | x :: src => if x = nul then some dest else read convert (dest ++ [convert x]) src

/-- `while( *src++ ) n++`. -/
def count (n : ℕ) : List α → Option ℕ
  | [] => none
  | x :: src => if x = nul then some n else count (n + 1) src

end Loops

section Terminated

variable [DecidableEq α] {nul : α} {text rest : List α}

theorem seek_terminated (h : nul ∉ text) (behind rest : List α) :
    seek nul behind (text ++ nul :: rest) = some ⟨text.reverse ++ behind, nul :: rest⟩ := by
  induction text generalizing behind with
  | nil => rw [List.nil_append, seek, if_pos rfl, List.reverse_nil, List.nil_append]
  | cons x text ih =>
    obtain ⟨hx, htext⟩ := List.ne_and_not_mem_of_not_mem_cons h
    rw [List.cons_append, seek, if_neg (Ne.symm hx), ih htext, List.reverse_cons, List.append_assoc]
    rfl

theorem seek_unterminated {memory : List α} (h : nul ∉ memory) (behind : List α) : seek nul behind memory = none := by
  induction memory generalizing behind with
  | nil => rfl
  | cons x memory ih =>
    obtain ⟨hx, hmemory⟩ := List.ne_and_not_mem_of_not_mem_cons h
    rw [seek, if_neg (Ne.symm hx), ih hmemory]

theorem copy_terminated (h : nul ∉ text) (convert : α → β) (rest : List α) (c : MemoryCursor β) :
    copy nul convert (text ++ nul :: rest) c = c.putAll (text.map convert) := by
  induction text generalizing c with
  | nil =>
    rw [List.nil_append, copy, if_pos rfl]
    rfl
  | cons x text ih =>
    obtain ⟨hx, htext⟩ := List.ne_and_not_mem_of_not_mem_cons h
    rw [List.cons_append, copy, if_neg (Ne.symm hx), List.map_cons, MemoryCursor.putAll, List.foldlM_cons]
    congr 1
    funext c
    exact ih htext c

theorem copy_of_mem {src : List α} (h : nul ∈ src) (convert : α → β) (c : MemoryCursor β) :
    copy nul convert src c = c.putAll ((before nul src).map convert) := by
  conv_lhs => rw [← before_append_after h]
  exact copy_terminated (not_mem_before nul src) convert _ c

theorem read_terminated (h : nul ∉ text) (convert : α → β) (dest : List β) (rest : List α) :
    read nul convert dest (text ++ nul :: rest) = some (dest ++ text.map convert) := by
  induction text generalizing dest with
  | nil => rw [List.nil_append, read, if_pos rfl, List.map_nil, List.append_nil]
  | cons x text ih =>
    obtain ⟨hx, htext⟩ := List.ne_and_not_mem_of_not_mem_cons h
    rw [List.cons_append, read, if_neg (Ne.symm hx), ih htext, List.append_assoc]
    rfl

theorem count_terminated (h : nul ∉ text) (n : ℕ) (rest : List α) :
    count nul n (text ++ nul :: rest) = some (n + text.length) := by
  induction text generalizing n with
  | nil => rw [List.nil_append, count, if_pos rfl, List.length_nil, Nat.add_zero]
  | cons x text ih =>
    obtain ⟨hx, htext⟩ := List.ne_and_not_mem_of_not_mem_cons h
    rw [List.cons_append, count, if_neg (Ne.symm hx), ih htext, List.length_cons, Nat.add_right_comm]
    rfl

end Terminated

namespace MemoryCursor

theorem putAll_singleton (c : MemoryCursor α) (x : α) : c.putAll [x] = c.put x := by
  simp only [putAll, List.foldlM_cons, List.foldlM_nil, bind_pure]

theorem putAll_append (c : MemoryCursor α) (xs ys : List α) :
    c.putAll (xs ++ ys) = (c.putAll xs).bind fun c => c.putAll ys := by
  simp only [putAll, List.foldlM_append, Option.bind_eq_bind]

/-- Cells are written one after the other as long as there is room for them. -/
theorem putAll_eq (xs : List α) (c : MemoryCursor α) : c.putAll xs =
    if xs.length ≤ c.ahead.length then some ⟨xs.reverse ++ c.behind, c.ahead.drop xs.length⟩ else none := by
  induction xs generalizing c with
  | nil => simp [putAll]
  | cons x xs ih =>
    obtain ⟨behind, ahead⟩ := c
    rw [putAll, List.foldlM_cons, put]
    cases ahead with
    | nil => simp
    | cons y ahead =>
      have hrest := ih ⟨x :: behind, ahead⟩
      rw [putAll] at hrest
      simp only [Option.bind_eq_bind, Option.bind_some, hrest, List.length_cons, Nat.add_le_add_iff_right,
        List.drop_succ_cons, List.reverse_cons, List.append_assoc, List.singleton_append]

/-- A last cell that is stored without going on leaves the memory as one that is put. -/
theorem store_memory (x : α) (c : MemoryCursor α) : (c.store x).map memory = (c.putAll [x]).map memory := by
  obtain ⟨behind, ahead⟩ := c
  cases ahead with
  | nil => rfl
  | cons y ahead =>
    simp only [store, putAll_singleton, put, Option.map_some, memory, List.reverse_cons, List.append_assoc,
      List.singleton_append]

theorem putAll_store_memory (c : MemoryCursor α) (xs : List α) (x : α) :
    ((c.putAll xs).bind fun c => (c.store x).map memory) = (c.putAll (xs ++ [x])).map memory := by
  rw [putAll_append, Option.map_bind]
  congr 1
  funext c
  exact store_memory x c

end MemoryCursor

end Foundation.Cursors
