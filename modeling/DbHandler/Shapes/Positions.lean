import DbHandler.Shapes.Connections

namespace DbHandler.Shapes

open Foundation Foundation.Runs

inductive SearchMode
  | searchSelected
  | searchUnselected
  | searchBoth
  deriving DecidableEq, Repr

namespace DiagramManager

section Definitions

/-- One turn of the sorting loop: lines go to the front, other shapes right behind the lines. -/
def sortShape (sorted : ℕ × List Shape) (s : Shape) : ℕ × List Shape :=
  if s.isLine then (sorted.1 + 1, s :: sorted.2) else (sorted.1, sorted.2.insertIdx sorted.1 s)

def sortShapes (m : DiagramManager) : List Shape := (m.children.levels.foldl sortShape (0, [])).2

def pick (p : Shape → Bool) (zorder : ℤ) : ℤ → List Shape → Option Shape
  | _, [] => none
  | counter, s :: shapes =>
    if p s then if counter = zorder then some s else pick p zorder (counter + 1) shapes
    else pick p zorder counter shapes

variable (visible active selected contains : Shape → Bool)

def hit (s : Shape) : Bool := visible s && active s && contains s

def searched (mode : SearchMode) (s : Shape) : Bool :=
  match mode with
  | .searchSelected => selected s
  | .searchUnselected => !selected s
  | .searchBoth => true

/-- `contains` is what the `Contains` of a shape says of the position. -/
def getShapeAtPosition (m : DiagramManager) (zorder : ℤ) (mode : SearchMode) : Option Shape :=
  pick (fun s => hit visible active contains s && searched selected mode s) zorder 1 m.sortShapes

def getShapesAtPosition (m : DiagramManager) : List Shape := m.children.levels.filter (hit visible active contains)

end Definitions

section Order

theorem insertIdx_behind {α : Type*} (front behind : List α) (x : α) :
    (front ++ behind).insertIdx front.length x = front ++ x :: behind := by
  induction front with
  | nil => rfl
  | cons y front ih => exact congrArg (y :: ·) ih

theorem foldl_sortShape (shapes : List Shape) : shapes.foldl sortShape (0, []) =
    ((shapes.filter (·.isLine)).length, (shapes.filter (·.isLine)).reverse ++ (shapes.filter (!·.isLine)).reverse) := by
  induction shapes using List.reverseRecOn with
  | nil => rfl
  | append_singleton shapes s ih =>
    rw [List.foldl_concat, ih, sortShape, List.filter_append, List.filter_append]
    split
    · rename_i hline
      simp [hline]
    · rename_i hline
      rw [← List.length_reverse, insertIdx_behind]
      simp [hline]

theorem sortShapes_eq (m : DiagramManager) : m.sortShapes =
    (m.children.levels.filter (·.isLine)).reverse ++ (m.children.levels.filter (!·.isLine)).reverse := by
  rw [sortShapes, foldl_sortShape]

theorem sortShapes_perm (m : DiagramManager) : m.sortShapes.Perm m.children.levels := by
  rw [sortShapes_eq]
  exact ((List.reverse_perm _).append (List.reverse_perm _)).trans (List.filter_append_perm _ _)

theorem pick_eq (p : Shape → Bool) (k : ℕ) (counter : ℤ) (shapes : List Shape) :
    pick p (counter + k) counter shapes = (shapes.filter p)[k]? := by
  induction shapes generalizing k counter with
  | nil => rfl
  | cons s shapes ih =>
    rw [pick, List.filter_cons]
    split
    · rename_i hp
      cases k with
      | zero => simp
      | succ k =>
        rw [if_neg (by omega), List.getElem?_cons_succ, ← ih k (counter + 1)]
        congr 1
        omega
    · exact ih k counter

theorem lines_first (m : DiagramManager) : m.sortShapes.Pairwise fun a b => b.isLine = true → a.isLine = true := by
  rw [sortShapes_eq, List.pairwise_append]
  refine ⟨?_, ?_, ?_⟩
  · apply List.pairwise_of_forall_mem_list
    intro a ha b _ _
    simpa using (List.mem_filter.mp (List.mem_reverse.mp ha)).2
  · apply List.pairwise_of_forall_mem_list
    intro a _ b hb hline
    simpa [hline] using (List.mem_filter.mp (List.mem_reverse.mp hb)).2
  · intro a ha b _ _
    simpa using (List.mem_filter.mp (List.mem_reverse.mp ha)).2

theorem mem_front {α : Type*} {front behind : List α} {c s : α} (hnodup : (front ++ s :: behind).Nodup)
    (h : [c, s].Sublist (front ++ s :: behind)) : c ∈ front := by
  have hout : s ∉ behind := (List.nodup_cons.mp (List.nodup_append.mp hnodup).2.1).1
  obtain ⟨x, y, hsplit, hx, hy⟩ := List.sublist_append_iff.mp h
  cases x with
  | nil =>
    obtain rfl : y = [c, s] := by simpa using hsplit.symm
    cases hy with
    | cons _ hy => exact absurd (hy.subset (by simp)) hout
    | cons_cons _ hy => exact absurd (hy.subset (by simp)) hout
  | cons z x =>
    obtain rfl : z = c := by simpa using (List.cons.inj hsplit).1.symm
    exact hx.subset List.mem_cons_self

/-- Among shapes that are no lines, one under another stands before it. -/
theorem under_before {m : DiagramManager} {s c : Shape} {below : Forest Shape} {q : Shape → Bool}
    (hfind : m.children.find q = some (s, below)) (hc : c ∈ below.items) (hs : s.isLine = false)
    (hkind : c.isLine = false) : [c, s].Sublist m.sortShapes := by
  rw [sortShapes_eq]
  refine List.Sublist.trans ?_ (List.sublist_append_right _ _)
  have hpair := ((Forest.pair_sublist_levels hfind hc).filter (!·.isLine)).reverse
  simpa [hs, hkind] using hpair

end Order

section Reached

variable (visible active selected contains : Shape → Bool)

/-- In every diagram, the shapes that the z-orders from 1 on give are the ones at the position, each of them once. -/
theorem getShapeAtPosition_enumerates (m : DiagramManager) (mode : SearchMode) :
    ∃ found : List Shape, found.Perm ((m.getShapesAtPosition visible active contains).filter (searched selected mode)) ∧
      ∀ k : ℕ, m.getShapeAtPosition visible active selected contains (k + 1) mode = found[k]? := by
  refine ⟨m.sortShapes.filter fun s => hit visible active contains s && searched selected mode s, ?_, fun k => ?_⟩
  · rw [getShapesAtPosition, List.filter_filter]
    refine ((sortShapes_perm m).filter _).trans (List.Perm.of_eq ?_)
    exact List.filter_congr fun s _ => Bool.and_comm _ _
  · rw [getShapeAtPosition, add_comm]
    exact pick_eq _ k 1 _

/-- In every state that calls reach, the topmost shape at a position is a line where there is one, and no shape that
lies under it in the tree is at the position. -/
theorem getShapeAtPosition_topmost (es : List Event) (m : DiagramManager) (hm : run step new es = some m) (s : Shape)
    (hs : m.getShapeAtPosition visible active selected contains 1 .searchBoth = some s) (hkind : s.isLine = false) :
    hit visible active contains s = true ∧ (∀ line ∈ m.items, line.isLine = true →
      hit visible active contains line = false) ∧ ∃ below, m.children.find (located s.address) = some (s, below) ∧
        ∀ c ∈ below.items, c.isLine = false → hit visible active contains c = false := by
  have hfirst : (m.sortShapes.filter (hit visible active contains)).head? = some s := by
    have hpick := pick_eq (fun s => hit visible active contains s && searched selected .searchBoth s) 0 1 m.sortShapes
    rw [getShapeAtPosition] at hs
    simp only [Nat.cast_zero, add_zero] at hpick
    rw [hpick, ← List.head?_eq_getElem?] at hs
    simpa [searched] using hs
  rw [List.head?_filter] at hfirst
  obtain ⟨hhit, front, behind, hsorted, hfront⟩ := List.find?_eq_some_iff_append.mp hfirst
  have hmem : ∀ t, t ∈ m.items → t ∈ front ∨ t ∈ s :: behind := by
    intro t ht
    rw [← List.mem_append, ← hsorted, (sortShapes_perm m).mem_iff]
    exact Forest.mem_levels.mpr ht
  have hnot : ∀ t ∈ front, hit visible active contains t = false := fun t ht => by simpa using hfront t ht
  refine ⟨hhit, fun line hline hisline => ?_, ?_⟩
  · rcases hmem line hline with h | h
    · exact hnot line h
    · have hpairs := lines_first m
      rw [hsorted, List.pairwise_append, List.pairwise_cons] at hpairs
      rcases List.mem_cons.mp h with rfl | h
      · rw [hisline] at hkind
        cases hkind
      · have hs := hpairs.2.1.1 line h hisline
        rw [hs] at hkind
        cases hkind
  · have hd := distinct_run hm
    have hsmem : s ∈ m.items := by
      apply Forest.mem_levels.mp
      rw [← (sortShapes_perm m).mem_iff, hsorted]
      simp
    obtain ⟨below, hfind⟩ := find_of_mem hd hsmem
    refine ⟨below, hfind, fun c hc hcline => hnot c ?_⟩
    have hnodup : m.sortShapes.Nodup := by
      apply (sortShapes_perm m).nodup_iff.mpr
      exact m.children.levels_perm.nodup_iff.mpr (List.Nodup.of_map _ hd)
    have hpair := under_before hfind hc hkind hcline
    rw [hsorted] at hnodup hpair
    exact mem_front hnodup hpair

def beside (a : ℕ) (s : Shape) : Bool := s.address != a

theorem getShapeAtPosition_topmost_someCalls : ∃ m s, run step new (someCalls.take 3) = some m ∧
    hit (beside 0) (beside 0) (beside 4) s = true ∧
    (∀ line ∈ m.items, line.isLine = true → hit (beside 0) (beside 0) (beside 4) line = false) ∧
    ∃ below, m.children.find (located s.address) = some (s, below) ∧
      ∀ c ∈ below.items, c.isLine = false → hit (beside 0) (beside 0) (beside 4) c = false := by
  have hproper : Before step Proper new (someCalls.take 3) := by decide
  obtain ⟨⟨m, hm⟩, -⟩ := attached_run hproper
  have htop : ∀ t ∈ run step new (someCalls.take 3), (t.getShapeAtPosition (beside 0) (beside 0) (beside 0) (beside 4) 1
      .searchBoth).any (fun s => s.isLine == false) = true := by decide
  obtain ⟨s, hs, hkind⟩ := (Option.any_eq_true _ _).mp (htop m hm)
  exact ⟨m, s, hm, getShapeAtPosition_topmost (beside 0) (beside 0) (beside 0) (beside 4) (someCalls.take 3) m hm s hs
    (by simpa using hkind)⟩

end Reached

end DiagramManager

end DbHandler.Shapes
