import Mathlib.Data.List.Nodup
import DbHandler.Foundation.Separators

namespace Foundation.Neighbours

variable {α : Type*} [DecidableEq α] {x y : α} {a b l : List α}

theorem not_mem_of_split {c d : List α} (ha : x ∉ a) (hb : x ∉ b) (h : c ++ x :: d = a ++ x :: b) : c = a ∧ d = b := by
  apply Separators.append_inj_of_not_mem _ ha h
  intro hc
  have hcount := congrArg (List.count x) h
  have hpos : 0 < c.count x := List.count_pos_iff.mpr hc
  simp only [List.count_append, List.count_cons_self, List.count_eq_zero_of_not_mem ha,
    List.count_eq_zero_of_not_mem hb] at hcount
  omega

/-- What stands directly behind the only `x`. -/
theorem before_iff (ha : x ∉ a) (hb : x ∉ b) : [x, y] <:+: a ++ x :: b ↔ b.head? = some y := by
  constructor
  · rintro ⟨c, d, h⟩
    obtain ⟨-, hd⟩ := not_mem_of_split (c := c) (d := y :: d) ha hb (by simpa using h)
    rw [← hd]
    rfl
  · intro h
    obtain ⟨d, rfl⟩ : ∃ d, b = y :: d := List.head?_eq_some_iff.mp h
    exact ⟨a, d, by simp⟩

/-- What stands directly before the only `x`. -/
theorem behind_iff (ha : x ∉ a) (hb : x ∉ b) : [y, x] <:+: a ++ x :: b ↔ a.getLast? = some y := by
  constructor
  · rintro ⟨c, d, h⟩
    obtain ⟨hc, -⟩ := not_mem_of_split (c := c ++ [y]) (d := d) ha hb (by simpa using h)
    rw [← hc, List.getLast?_append]
    rfl
  · intro h
    obtain ⟨c, rfl⟩ : ∃ c, a = c ++ [y] := List.getLast?_eq_some_iff.mp h
    exact ⟨c, b, by simp⟩

theorem filter_ne_insert (hx : x ∉ a ++ b) : (a ++ x :: b).filter (· ≠ x) = a ++ b := by
  obtain ⟨ha, hb⟩ : x ∉ a ∧ x ∉ b := by simpa using hx
  have hkeep (l : List α) (hl : x ∉ l) : l.filter (· ≠ x) = l :=
    List.filter_eq_self.mpr fun z hz => decide_eq_true fun heq => hl (heq ▸ hz)
  rw [List.filter_append, List.filter_cons_of_neg (by simp), hkeep a ha, hkeep b hb]

/-- A list without repetition falls apart at each of its elements, and `idxOf` says where. -/
theorem split_at {β : Type*} [BEq β] [LawfulBEq β] {x : β} {l : List β} (hl : l.Nodup) (hx : x ∈ l) :
    ∃ c d, l = c ++ x :: d ∧ c.length = l.idxOf x ∧ x ∉ c ∧ x ∉ d := by
  obtain ⟨c, d, rfl⟩ := List.append_of_mem hx
  obtain ⟨-, hd, hcd⟩ := List.nodup_append.mp hl
  have hc : x ∉ c := fun hmem => hcd x hmem x (List.mem_cons_self ..) rfl
  exact ⟨c, d, rfl, by rw [List.idxOf_append_of_notMem hc]; simp, hc, (List.nodup_cons.mp hd).1⟩

theorem split_at_key {β : Type*} {f : β → α} {l : List β} (hl : (l.map f).Nodup) (hx : x ∈ l.map f) :
    ∃ c y d, l = c ++ y :: d ∧ f y = x ∧ x ∉ c.map f ∧ x ∉ d.map f := by
  obtain ⟨c, d, hcd, -, hc, hd⟩ := split_at hl hx
  obtain ⟨c, rest, rfl, rfl, hrest⟩ := List.map_eq_append_iff.mp hcd
  obtain ⟨y, d, rfl, hy, rfl⟩ := List.map_eq_cons_iff.mp hrest
  exact ⟨c, y, d, rfl, hy, hc, hd⟩

theorem find_key {β : Type*} {f : β → α} {l : List β} (hl : (l.map f).Nodup) {y : β} (hy : y ∈ l) :
    l.find? (fun z => f z = f y) = some y := by
  obtain ⟨z, hz⟩ : ∃ z, l.find? (fun z => f z = f y) = some z := by
    apply Option.isSome_iff_exists.mp
    rw [List.find?_isSome]
    exact ⟨y, hy, decide_eq_true rfl⟩
  have hkey : f z = f y := by simpa using List.find?_some hz
  rw [hz, List.inj_on_of_nodup_map hl (List.mem_of_find?_eq_some hz) hy hkey]

theorem filter_key_ne {β : Type*} {f : β → α} {l : List β} (hx : x ∉ l.map f) : l.filter (f · ≠ x) = l :=
  List.filter_eq_self.mpr fun _ hy => decide_eq_true fun heq => hx (heq ▸ List.mem_map_of_mem hy)

theorem split_at_index {β : Type*} {y : β} {l : List β} {i : ℕ} (h : l[i]? = some y) :
    ∃ c d, l = c ++ y :: d ∧ c.length = i ∧ ∀ z, l.set i z = c ++ z :: d := by
  obtain ⟨hi, rfl⟩ := List.getElem?_eq_some_iff.mp h
  have hsplit : l = l.take i ++ l[i] :: l.drop (i + 1) := by simp
  have hlength : (l.take i).length = i := by
    rw [List.length_take]
    omega
  refine ⟨_, _, hsplit, hlength, fun z => ?_⟩
  rw [List.set_eq_take_append_cons_drop, if_pos hi]

theorem erase_eq_filter_ne (hl : l.Nodup) (x : α) : l.erase x = l.filter (· ≠ x) := by
  rw [hl.erase_eq_filter]
  exact List.filter_congr fun y _ => by by_cases hy : y = x <;> simp [hy]

theorem length_filter_ne (hl : l.Nodup) (hx : x ∈ l) : (l.filter (· ≠ x)).length + 1 = l.length := by
  rw [← erase_eq_filter_ne hl, List.length_erase_add_one hx]

theorem perm_insert (hl : l.Nodup) (hx : x ∈ l) (h : l.filter (· ≠ x) = a ++ b) : (a ++ x :: b).Perm l := by
  have hmiddle : (a ++ x :: b).Perm (x :: l.erase x) := by
    rw [erase_eq_filter_ne hl, h]
    exact List.perm_middle
  exact hmiddle.trans (List.perm_cons_erase hx).symm

end Foundation.Neighbours
