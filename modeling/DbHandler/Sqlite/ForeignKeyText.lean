import DbHandler.Sqlite.ForeignKeys

namespace DbHandler.Sqlite.ForeignKeys

open Foundation Foundation.Search

def Blank (t : Text) : Prop := ∀ c ∈ t, c = ' '

/-- A piece with `FOREIGN KEY` behind its blanks, in either case. -/
def IsKey (p : Text) : Prop := find foreignKey ((towupper p).dropWhile (· = ' ')) ≠ none

/-- What `substr` finds from the end of `REFERENCES ` at `i` up to the parenthesis. -/
def behind (i : ℕ) (q : Text) : Text := (q.drop (i + references.length)).takeWhile (· ≠ '(')

def Named (i : ℕ) (q : Text) : Prop := i + references.length ≤ q.length ∧ ¬ Blank (behind i q)

def nameAt (i : ℕ) (q : Text) : Text := ((behind i q).dropWhile (· = ' ')).rdropWhile (· = ' ')

instance (t : Text) : Decidable (Blank t) := List.decidableBAll (fun c => c = ' ') t

instance (p : Text) : Decidable (IsKey p) := inferInstanceAs (Decidable (_ ≠ _))

instance (i : ℕ) (q : Text) : Decidable (Named i q) := inferInstanceAs (Decidable (_ ∧ _))

/-- The first of the pieces that has `REFERENCES ` together with the one before it: the place in the gathered text,
in which every piece stands twice, the piece, and those behind it. -/
def seek : ℕ → Text → List Text → Option (ℕ × Text × List Text)
  | _, _, [] => none
  | offset, previous, q :: rest =>
    match find references (previous ++ q) with
    | some i => some (offset + i, q, rest)
    | none => seek (offset + previous.length + q.length + 1) q rest

/-- The first of the pieces with a closing parenthesis, where all before it have something to read. -/
def closeIn : List Text → Option (Bool × List Text)
  | [] => none
  | q :: rest => if Blank q then none else if ')' ∈ q then some (q.getLast? = some ')', rest) else closeIn rest

/-- The end of a key whose table is named in the piece `q`: whether the gathered text ends with a parenthesis. -/
def closing (keys : ℕ) (name q : Text) : List Text → Option (Bool × List Text)
  | rest =>
    if ')' ∈ q.drop ((find name q).getD 0) then some (beforeLast (terminated keys q) = some ')', rest)
    else if rest = [] then if ')' ∈ q then some (q.getLast? = some ')', []) else none
    else closeIn rest

/-- One key that starts in the piece `p`; `pos` is the place of `REFERENCES ` in what an unfinished key has left. -/
def clause (keys : ℕ) (refTableName : Text) (pos : Option ℕ) (p : Text) (rest : List Text) :
    Option (Option ℕ × Bool × List Text) :=
  match pos <|> find references p with
  | some i =>
    if Named i p then
      if p.getLast? = some ')' then some (none, nameAt i p != refTableName, rest) else some (some i, false, rest)
    else none
  | none =>
    match seek (p.length + 1) [] rest with
    | none => none
    | some (i, q, rest) =>
      if Named i q then
        match closing keys (nameAt i q) q rest with
        | none => none
        | some (true, rest) => some (none, nameAt i q != refTableName, rest)
        | some (false, rest) => some (some i, false, rest)
      else none

/-- The pieces of a statement that the loop reads to its end; `filled` says that something of it is kept. -/
inductive Rewritable (keys : ℕ) (refTableName : Text) : Option ℕ → Bool → List Text → Prop
  | done (pos : Option ℕ) : Rewritable keys refTableName pos true []
  | trailing (pos : Option ℕ) : Rewritable keys refTableName pos true [[]]
  | plain {pos : Option ℕ} {filled : Bool} {p : Text} {rest : List Text} (hblank : ¬ Blank p) (hkey : ¬ IsKey p)
      (hrest : Rewritable keys refTableName pos true rest) : Rewritable keys refTableName pos filled (p :: rest)
  | key {pos pos' : Option ℕ} {filled kept : Bool} {p : Text} {rest rest' : List Text} (hblank : ¬ Blank p)
      (hkey : IsKey p) (hclause : clause keys refTableName pos p rest = some (pos', kept, rest'))
      (hrest : Rewritable keys refTableName pos' (filled || kept) rest') :
      Rewritable keys refTableName pos filled (p :: rest)

theorem references_ne_nil : references ≠ [] := by decide

theorem comma_not_mem_references : ',' ∉ references := by decide

theorem length_towupper (t : Text) : (towupper t).length = t.length := List.length_map _

theorem firstNotBlank_eq_none {t : Text} : firstNotBlank t = none ↔ Blank t := by
  simp [firstNotBlank, Blank, List.findIdx?_eq_none_iff]

theorem substr_firstNotBlank {t : Text} (h : ¬ Blank t) :
    substr (firstNotBlank t) t = .ok (t.dropWhile (· = ' ')) := by
  cases hfind : firstNotBlank t with
  | none => exact absurd (firstNotBlank_eq_none.mp hfind) h
  | some n =>
    have hn : n ≤ t.length := by
      have hlt := (List.findIdx?_eq_some_iff_findIdx_eq.mp hfind).1
      omega
    have hnot : (fun c : Char => decide (c ≠ ' ')) = fun c => !decide (c = ' ') := by
      funext c
      simp
    have hdrop : t.dropWhile (· = ' ') = t.drop n := by
      rw [List.dropWhile_eq_drop_findIdx_not, ← hnot, (List.findIdx?_eq_some_iff_findIdx_eq.mp hfind).2]
    rw [substr, if_pos hn, hdrop]

theorem substr_blank {t : Text} (h : Blank t) : substr (firstNotBlank t) t = .error .outOfRange := by
  rw [firstNotBlank_eq_none.mpr h]
  rfl

/-- Nothing below the capital letters is the capital of anything else. -/
theorem toUpper_eq_iff {c d : Char} (hd : d.val < 65) : c.toUpper = d ↔ c = d := by
  unfold Char.toUpper
  split
  · rename_i h
    have hlimit := UInt32.lt_iff_toNat_lt.mp hd
    have hlow := UInt32.le_iff_toNat_le.mp h.1
    have ha : ('a'.val : UInt32).toNat = 97 := rfl
    have hlimit' : (65 : UInt32).toNat = 65 := rfl
    have hshift : ('A'.val - 'a'.val : UInt32).toNat = 4294967264 := rfl
    have hhigh := UInt32.le_iff_toNat_le.mp h.2
    have hz : ('z'.val : UInt32).toNat = 122 := rfl
    refine iff_of_false (fun heq => ?_) (fun heq => ?_)
    · have hval := congrArg (fun x : Char => x.val.toNat) heq
      simp only [UInt32.toNat_add, hshift] at hval
      omega
    · subst heq
      omega
  · rfl

theorem blank_towupper {t : Text} : Blank (towupper t) ↔ Blank t := by
  have hone : ∀ c : Char, c.toUpper = ' ' ↔ c = ' ' := fun c => toUpper_eq_iff (by decide)
  simp only [Blank, towupper, List.mem_map, forall_exists_index, and_imp, forall_apply_eq_imp_iff₂, hone]

theorem mem_towupper_closing {t : Text} : ')' ∈ towupper t ↔ ')' ∈ t := by
  have hone : ∀ c : Char, c.toUpper = ')' ↔ c = ')' := fun c => toUpper_eq_iff (by decide)
  simp only [towupper, List.mem_map, hone, exists_eq_right]

theorem referencedName_named {i : ℕ} {q : Text} (h : Named i q) : referencedName i q = .ok (nameAt i q) := by
  have hstart : substr (some (i + references.length)) q = .ok (q.drop (i + references.length)) := if_pos h.1
  rw [referencedName, hstart]
  change (substr (firstNotBlank (behind i q)) (behind i q) >>= fun t => .ok (t.rdropWhile (· = ' '))) = _
  rw [substr_firstNotBlank h.2]
  rfl

theorem referencedName_error {i : ℕ} {q : Text} (h : ¬ Named i q) (name : Text) : referencedName i q ≠ .ok name := by
  rw [referencedName]
  by_cases hlength : i + references.length ≤ q.length
  · have hstart : substr (some (i + references.length)) q = .ok (q.drop (i + references.length)) := if_pos hlength
    rw [hstart]
    change (substr (firstNotBlank (behind i q)) (behind i q) >>= fun t => .ok (t.rdropWhile (· = ' '))) ≠ _
    rw [substr_blank (not_not.mp fun hblank => h ⟨hlength, hblank⟩)]
    intro heq
    cases heq
  · have hstart : substr (some (i + references.length)) q = .error .outOfRange := if_neg hlength
    rw [hstart]
    intro heq
    cases heq

/-- The name stands in the piece, so that `find` has a place for it. -/
theorem find_nameAt (i : ℕ) (q : Text) : find (nameAt i q) q = some ((find (nameAt i q) q).getD 0) := by
  have hinfix : nameAt i q <:+: q := by
    refine ((List.rdropWhile_prefix _ _).isInfix.trans (List.dropWhile_suffix _).isInfix).trans ?_
    exact (List.takeWhile_prefix _).isInfix.trans (List.drop_suffix _ _).isInfix
  cases hfind : find (nameAt i q) q with
  | some n => rfl
  | none =>
    by_cases hnil : nameAt i q = []
    · rw [hnil] at hfind
      rw [find_at_start List.nil_prefix] at hfind
      cases hfind
    · exact absurd hinfix ((find_eq_none_iff hnil).mp hfind)

theorem getline_cons (q : Text) (rest : List Text) (s : Text) : (Reader.getline ⟨q :: rest, s⟩).2 = ⟨rest, q⟩ := by
  cases q with
  | nil => cases rest <;> rfl
  | cons c q => rfl

theorem seekReferences_round {r : Reader} {q : Text} {rest : List Text} (hr : r.getline.2 = ⟨rest, q⟩)
    (rounds : ℕ) (keyTemp : Text) :
    seekReferences (rounds + 1) r keyTemp =
      match find references (keyTemp ++ q ++ comma) with
      | some fkPos => .ok ⟨⟨rest, towupper q⟩, q, keyTemp ++ q ++ comma ++ q, fkPos⟩
      | none => seekReferences rounds ⟨rest, towupper q⟩ (keyTemp ++ q ++ comma ++ q) := by
  cases hfind : find references (keyTemp ++ q ++ comma) with
  | some fkPos => simp only [seekReferences, hr, Reader.upper, hfind]
  | none => simp only [seekReferences, hr, Reader.upper, hfind]

theorem find_references {gathered : Text} (h : ¬ references <:+: gathered) (a : Text) :
    find references (gathered ++ ',' :: a ++ comma) =
      (find references a).map (· + (gathered.length + 1)) := by
  have hcut : gathered ++ ',' :: a ++ comma = gathered ++ ',' :: (a ++ [',']) := by simp [comma]
  rw [hcut, find_stop references_ne_nil comma_not_mem_references h,
    find_append_stop references_ne_nil comma_not_mem_references]

/-- A round on a gathered text without `REFERENCES `, to which the last piece is added once more. -/
theorem seekReferences_gathered {r : Reader} {gathered previous t : Text} {rest : List Text}
    (hgathered : ¬ references <:+: gathered) (hline : r.getline.2 = ⟨rest, t⟩) (rounds : ℕ) :
    seekReferences (rounds + 1) r (gathered ++ ',' :: previous) =
      match find references (previous ++ t) with
      | some j => .ok ⟨⟨rest, towupper t⟩, t, gathered ++ ',' :: (previous ++ t) ++ ',' :: t, gathered.length + 1 + j⟩
      | none => seekReferences rounds ⟨rest, towupper t⟩ (gathered ++ ',' :: (previous ++ t) ++ ',' :: t) := by
  have hkey : gathered ++ ',' :: previous ++ t ++ comma = gathered ++ ',' :: (previous ++ t) ++ comma := by simp
  have hcut : gathered ++ ',' :: (previous ++ t) ++ comma ++ t = gathered ++ ',' :: (previous ++ t) ++ ',' :: t := by
    simp [comma]
  rw [seekReferences_round hline, hkey, find_references hgathered, hcut]
  cases find references (previous ++ t) with
  | some j => rw [Option.map_some, Nat.add_comm j]
  | none => rfl

theorem clean_gathered {gathered previous t : Text} (hgathered : ¬ references <:+: gathered)
    (hfind : find references (previous ++ t) = none) :
    ¬ references <:+: gathered ++ ',' :: (previous ++ t) ∧ ¬ references <:+: t := by
  have hmiddle : ¬ references <:+: previous ++ t := (find_eq_none_iff references_ne_nil).mp hfind
  exact ⟨infix_stop references_ne_nil comma_not_mem_references hgathered hmiddle,
    fun h => hmiddle (h.trans (List.suffix_append _ _).isInfix)⟩

theorem length_gathered (gathered previous t : Text) : (gathered ++ ',' :: (previous ++ t)).length + 1 =
    gathered.length + 1 + previous.length + t.length + 1 := by
  simp only [List.length_append, List.length_cons]
  omega

/-- A piece of the text that is found by `seek` ends the loop. -/
theorem seekReferences_found {fuel i : ℕ} {pieces rest : List Text} {gathered previous s q : Text}
    (hfuel : pieces.length ≤ fuel) (hgathered : ¬ references <:+: gathered)
    (hseek : seek (gathered.length + 1) previous pieces = some (i, q, rest)) :
    ∃ k, seekReferences fuel ⟨pieces, s⟩ (gathered ++ ',' :: previous) =
      .ok ⟨⟨rest, towupper q⟩, q, k ++ ',' :: q, i⟩ ∧ find references k = some i := by
  induction pieces generalizing fuel gathered previous s with
  | nil => cases hseek
  | cons t pieces ih =>
    obtain ⟨rounds, rfl⟩ : ∃ rounds, fuel = rounds + 1 := ⟨fuel - 1, by simp at hfuel; omega⟩
    rw [seekReferences_gathered hgathered (getline_cons t pieces s)]
    rw [seek] at hseek
    cases hfind : find references (previous ++ t) with
    | some j =>
      rw [hfind] at hseek
      obtain ⟨rfl, rfl, rfl⟩ : gathered.length + 1 + j = i ∧ t = q ∧ pieces = rest := by simpa using hseek
      refine ⟨gathered ++ ',' :: (previous ++ t), rfl, ?_⟩
      have hplace := find_references hgathered (previous ++ t)
      rw [hfind, Option.map_some, Nat.add_comm j] at hplace
      exact (find_append_stop references_ne_nil comma_not_mem_references).symm.trans hplace
    | none =>
      rw [hfind] at hseek
      have hlonger := (clean_gathered hgathered hfind).1
      exact ih (show pieces.length ≤ rounds by simp at hfuel; omega) hlonger
        (length_gathered gathered previous t ▸ hseek)

/-- Otherwise the place that is found, if any, lies too far behind for the text that is cut there, however many
rounds the loop has. -/
theorem seekReferences_beyond {fuel : ℕ} {pieces : List Text} {gathered previous s : Text} {sought : Sought}
    (hgathered : ¬ references <:+: gathered) (hprevious : ¬ references <:+: previous)
    (hs : s.length ≤ (gathered ++ ',' :: previous).length)
    (hseek : seek (gathered.length + 1) previous pieces = none)
    (h : seekReferences fuel ⟨pieces, s⟩ (gathered ++ ',' :: previous) = .ok sought) :
    sought.sUpper.length < sought.fkPos + references.length := by
  induction fuel generalizing pieces gathered previous s with
  | zero => cases h
  | succ rounds ih =>
    obtain ⟨t, rest, hline, hrest⟩ : ∃ t rest, (Reader.getline ⟨pieces, s⟩).2 = ⟨rest, t⟩ ∧
        ((pieces = [] ∧ t = s ∧ rest = []) ∨ pieces = t :: rest) := by
      cases pieces with
      | nil => exact ⟨s, [], rfl, .inl ⟨rfl, rfl, rfl⟩⟩
      | cons t rest => exact ⟨t, rest, getline_cons t rest s, .inr rfl⟩
    rw [seekReferences_gathered hgathered hline] at h
    cases hfind : find references (previous ++ t) with
    | some j =>
      obtain ⟨rfl, rfl, rfl⟩ | rfl := hrest
      · rw [hfind] at h
        cases h
        have hbefore : find references previous = none := (find_eq_none_iff references_ne_nil).mpr hprevious
        have hbeyond := find_beyond references_ne_nil hbefore hfind
        simp only [List.length_append, List.length_cons] at hs ⊢
        omega
      · rw [seek, hfind] at hseek
        cases hseek
    | none =>
      rw [hfind] at h
      obtain ⟨hlonger, hlast⟩ := clean_gathered hgathered hfind
      have hnext : seek ((gathered ++ ',' :: (previous ++ t)).length + 1) t rest = none := by
        obtain ⟨rfl, rfl, rfl⟩ | rfl := hrest
        · rfl
        · rw [seek, hfind] at hseek
          rw [length_gathered]
          exact hseek
      refine ih hlonger hlast ?_ hnext h
      rw [length_towupper]
      simp only [List.length_append, List.length_cons]
      omega

theorem mem_dropWhile_closing {t : Text} : ')' ∈ t.dropWhile (· = ' ') ↔ ')' ∈ t := by
  constructor
  · intro h
    exact (List.dropWhile_suffix _).subset h
  · intro h
    rw [← List.takeWhile_append_dropWhile (p := fun c => decide (c = ' ')) (l := t)] at h
    obtain h | h := List.mem_append.mp h
    · exact absurd (List.mem_takeWhile_imp h) (by decide)
    · exact h

theorem seekClosing_read {temp1 : Text} (h : ')' ∈ temp1) (rounds : ℕ) (r : Reader) (keyTemp : Text) :
    seekClosing (rounds + 1) r keyTemp temp1 = .ok (r, keyTemp) := by
  rw [seekClosing, if_pos h]

theorem seekClosing_round {r : Reader} {q temp1 : Text} {rest : List Text} (hr : r.getline.2 = ⟨rest, q⟩)
    (hopen : ')' ∉ temp1) (hblank : ¬ Blank q) (rounds : ℕ) (keyTemp : Text) :
    seekClosing (rounds + 1) r keyTemp temp1 =
      seekClosing rounds ⟨rest, towupper q⟩ (keyTemp ++ q ++ comma) ((towupper q).dropWhile (· = ' ')) := by
  rw [seekClosing, if_neg hopen]
  simp only [hr, Reader.upper]
  rw [substr_firstNotBlank (fun h => hblank (blank_towupper.mp h))]
  rfl

theorem seekClosing_blank {r : Reader} {q temp1 : Text} {rest : List Text} (hr : r.getline.2 = ⟨rest, q⟩)
    (hopen : ')' ∉ temp1) (hblank : Blank q) (fuel : ℕ) (keyTemp : Text) (x : Reader × Text) :
    seekClosing fuel r keyTemp temp1 ≠ .ok x := by
  cases fuel with
  | zero =>
    intro h
    cases h
  | succ rounds =>
    rw [seekClosing, if_neg hopen]
    simp only [hr, Reader.upper]
    rw [substr_blank (blank_towupper.mpr hblank)]
    intro h
    cases h

theorem seekClosing_found (keyTemp : Text) {fuel : ℕ} {pieces rest : List Text} {closed : Bool} {temp1 s : Text}
    (hfuel : pieces.length < fuel) (hopen : ')' ∉ temp1) (hclose : closeIn pieces = some (closed, rest)) :
    ∃ r k q, seekClosing fuel ⟨pieces, s⟩ keyTemp temp1 = .ok (r, keyTemp ++ k ++ q ++ comma) ∧ r.pieces = rest ∧
      q ≠ [] ∧ closed = decide (q.getLast? = some ')') := by
  induction pieces generalizing fuel keyTemp temp1 s with
  | nil => cases hclose
  | cons q pieces ih =>
    obtain ⟨rounds, rfl⟩ : ∃ rounds, fuel = rounds + 1 := ⟨fuel - 1, by omega⟩
    rw [closeIn] at hclose
    split_ifs at hclose with hblank hclosing
    · rw [seekClosing_round (getline_cons q pieces s) hopen hblank]
      obtain ⟨rounds, rfl⟩ : ∃ rounds', rounds = rounds' + 1 := ⟨rounds - 1, by simp at hfuel; omega⟩
      rw [seekClosing_read (mem_dropWhile_closing.mpr (mem_towupper_closing.mpr hclosing))]
      cases hclose
      exact ⟨⟨rest, towupper q⟩, [], q, by simp, rfl, List.ne_nil_of_mem hclosing, rfl⟩
    · rw [seekClosing_round (getline_cons q pieces s) hopen hblank]
      have hnext : ')' ∉ (towupper q).dropWhile (· = ' ') := by
        rw [mem_dropWhile_closing, mem_towupper_closing]
        exact hclosing
      obtain ⟨r, k, q', hr, hrest, hne, hclosed⟩ := ih (keyTemp ++ q ++ comma) (s := towupper q)
        (show pieces.length < rounds by simp at hfuel; omega) hnext hclose
      exact ⟨r, q ++ comma ++ k, q', by simpa using hr, hrest, hne, hclosed⟩

theorem seekClosing_lost {fuel : ℕ} {pieces : List Text} {keyTemp temp1 s : Text} (hopen : ')' ∉ temp1)
    (hclose : closeIn pieces = none) (hs : pieces = [] → ')' ∉ s) (x : Reader × Text) :
    seekClosing fuel ⟨pieces, s⟩ keyTemp temp1 ≠ .ok x := by
  induction fuel generalizing pieces keyTemp temp1 s with
  | zero =>
    intro h
    cases h
  | succ rounds ih =>
    obtain ⟨q, rest, hline, hrest⟩ : ∃ q rest, (Reader.getline ⟨pieces, s⟩).2 = ⟨rest, q⟩ ∧
        ((pieces = [] ∧ q = s ∧ rest = []) ∨ pieces = q :: rest) := by
      cases pieces with
      | nil => exact ⟨s, [], rfl, .inl ⟨rfl, rfl, rfl⟩⟩
      | cons q rest => exact ⟨q, rest, getline_cons q rest s, .inr rfl⟩
    by_cases hblank : Blank q
    · exact seekClosing_blank hline hopen hblank _ _ x
    · have hnone : ')' ∉ q ∧ closeIn rest = none := by
        obtain ⟨rfl, rfl, rfl⟩ | rfl := hrest
        · exact ⟨hs rfl, rfl⟩
        · rw [closeIn, if_neg hblank] at hclose
          split_ifs at hclose with hclosing
          exact ⟨hclosing, hclose⟩
      rw [seekClosing_round hline hopen hblank]
      apply ih ?_ hnone.2
      · intro _
        rw [mem_towupper_closing]
        exact hnone.1
      · rw [mem_dropWhile_closing, mem_towupper_closing]
        exact hnone.1

theorem beforeLast_append (a : Text) {q : Text} (h : 2 ≤ q.length) : beforeLast (a ++ q) = beforeLast q := by
  have hq : q ≠ [] := List.ne_nil_of_length_pos (by omega)
  have hdrop : q.dropLast ≠ [] := List.ne_nil_of_length_pos (by rw [List.length_dropLast]; omega)
  rw [beforeLast, List.dropLast_append_of_ne_nil hq, List.getLast?_append_of_ne_nil _ hdrop]
  rfl

theorem terminated_append (keys : ℕ) (a : Text) {q : Text} (h : 2 ≤ q.length) :
    terminated keys (a ++ q) = a ++ terminated keys q := by
  have hq : q ≠ [] := List.ne_nil_of_length_pos (by omega)
  unfold terminated
  rw [beforeLast_append a h, List.getLast?_append_of_ne_nil _ hq]
  split_ifs
  · exact List.append_assoc _ _ _
  · rfl

theorem terminated_comma (keys : ℕ) (a : Text) : terminated keys (a ++ comma) = a ++ comma := by
  apply if_neg
  simp [comma]

theorem beforeLast_comma {q : Text} (hq : q ≠ []) (a : Text) : beforeLast (a ++ q ++ comma) = q.getLast? := by
  rw [beforeLast, comma, show ",".toList = [','] from rfl, List.dropLast_concat, List.getLast?_append_of_ne_nil _ hq]

theorem getLast_towupper {q : Text} : (towupper q).getLast? = some ')' ↔ q.getLast? = some ')' := by
  rw [towupper, List.getLast?_map, Option.map_eq_some_iff]
  constructor
  · rintro ⟨c, hc, hupper⟩
    rw [hc, (toUpper_eq_iff (by decide)).mp hupper]
  · intro h
    exact ⟨')', h, rfl⟩

/-- The search for the closing parenthesis behind the name in `q`. -/
def closingRun (name q : Text) (r : Reader) (keyTemp : Text) : Guarded (Reader × Text) := do
  let temp1 ← substr (find name q) q
  seekClosing (r.pieces.length + 2) r keyTemp temp1

theorem closingRun_eq (i : ℕ) (q : Text) (rest : List Text) (keyTemp : Text) :
    closingRun (nameAt i q) q ⟨rest, towupper q⟩ keyTemp =
      seekClosing (rest.length + 2) ⟨rest, towupper q⟩ keyTemp (q.drop ((find (nameAt i q) q).getD 0)) := by
  have hfind := find_nameAt i q
  have hle := find_le hfind
  rw [closingRun, hfind, substr, if_pos (by omega)]
  rfl

theorem closingRun_found {keys i : ℕ} {q k : Text} {rest rest' : List Text} {closed : Bool} (hlength : 2 ≤ q.length)
    (hclosing : closing keys (nameAt i q) q rest = some (closed, rest')) :
    ∃ r more, closingRun (nameAt i q) q ⟨rest, towupper q⟩ (k ++ ',' :: q) = .ok (r, k ++ ',' :: q ++ more) ∧ r.pieces = rest' ∧
      (beforeLast (terminated keys (k ++ ',' :: q ++ more)) = some ')' ↔ closed = true) := by
  rw [closingRun_eq]
  rw [closing] at hclosing
  have hcut : k ++ ',' :: q = k ++ comma ++ q := by simp [comma]
  split_ifs at hclosing with hnow hnil hend
  · cases hclosing
    refine ⟨⟨rest, towupper q⟩, [], ?_, rfl, ?_⟩
    · rw [seekClosing_read hnow, List.append_nil]
    · have hlong : 2 ≤ (terminated keys q).length := by
        unfold terminated
        split_ifs
        · rw [List.length_append]
          omega
        · exact hlength
      rw [List.append_nil, hcut, terminated_append keys _ hlength, beforeLast_append _ hlong, decide_eq_true_iff]
  · cases hclosing
    subst hnil
    have hblank : ¬ Blank (towupper q) := by
      intro h
      exact absurd (h ')' (mem_towupper_closing.mpr hend)) (by decide)
    refine ⟨⟨[], towupper (towupper q)⟩, towupper q ++ comma, ?_, rfl, ?_⟩
    · rw [List.length_nil, seekClosing_round (r := ⟨[], towupper q⟩) (q := towupper q) rfl hnow hblank]
      rw [seekClosing_read]
      · simp
      · rw [mem_dropWhile_closing, mem_towupper_closing, mem_towupper_closing]
        exact hend
    · have hne : towupper q ≠ [] := List.ne_nil_of_mem (mem_towupper_closing.mpr hend)
      rw [← List.append_assoc, terminated_comma, beforeLast_comma hne, getLast_towupper, decide_eq_true_iff]
  · obtain ⟨r, m, u, hr, hrest, hne, hclosed⟩ :=
      seekClosing_found (k ++ ',' :: q) (s := towupper q) (show rest.length < rest.length + 2 by omega) hnow hclosing
    refine ⟨r, m ++ u ++ comma, ?_, hrest, ?_⟩
    · rw [hr]
      simp
    · have hcut' : k ++ ',' :: q ++ (m ++ u ++ comma) = k ++ ',' :: q ++ m ++ u ++ comma := by simp
      rw [hcut', terminated_comma, beforeLast_comma hne, hclosed, decide_eq_true_iff]

theorem closingRun_lost {keys i : ℕ} {q k : Text} {rest : List Text}
    (hclosing : closing keys (nameAt i q) q rest = none) (x : Reader × Text) :
    closingRun (nameAt i q) q ⟨rest, towupper q⟩ k ≠ .ok x := by
  rw [closingRun_eq]
  rw [closing] at hclosing
  split_ifs at hclosing with hnow hnil hend
  · subst hnil
    exact seekClosing_lost hnow rfl (fun _ => by rwa [mem_towupper_closing]) x
  · exact seekClosing_lost hnow hclosing (fun h => absurd h hnil) x

/-- What an unfinished key has left, and the place of `REFERENCES ` in it. -/
def Gathers (keyTemp : Text) (pos : Option ℕ) : Prop :=
  (keyTemp = [] ∧ pos = none) ∨ ∃ i, pos = some i ∧ find references keyTemp = some i

theorem Gathers.find {keyTemp : Text} {pos : Option ℕ} (h : Gathers keyTemp pos) (p : Text) :
    find references (keyTemp ++ p ++ comma) = (pos <|> find references p) := by
  obtain ⟨rfl, rfl⟩ | ⟨i, rfl, hi⟩ := h
  · exact find_append_stop references_ne_nil comma_not_mem_references
  · rw [List.append_assoc]
    exact find_append_left hi _

theorem readClause_inside {keys i : ℕ} {refTableName p keyTemp : Text} {r : Reader}
    (hfind : find references (keyTemp ++ p ++ comma) = some i) :
    readClause keys refTableName r p keyTemp =
      (referencedName i p >>= fun tName => .ok (r, keyTemp ++ p ++ comma, tName != refTableName)) := by
  unfold readClause
  simp only [hfind, terminated_comma]

theorem readClause_behind {keys : ℕ} {refTableName p keyTemp : Text} {r : Reader}
    (hfind : find references (keyTemp ++ p ++ comma) = none) :
    readClause keys refTableName r p keyTemp =
      (seekReferences (r.pieces.length + 2) r (keyTemp ++ p ++ comma) >>= fun sought =>
        referencedName sought.fkPos sought.sUpper >>= fun tName =>
          closingRun tName sought.sUpper sought.reader sought.keyTemp >>= fun x =>
            .ok (x.1, terminated keys x.2, tName != refTableName)) := by
  unfold readClause closingRun
  simp only [hfind, bind_assoc]

/-- What one key leaves: it is closed, or its text and the place in it wait for the next piece. -/
def Leaves (keyTemp : Text) (added : Bool) (pos : Option ℕ) (kept : Bool) : Prop :=
  (beforeLast keyTemp = some ')' ∧ pos = none ∧ kept = added) ∨
    (beforeLast keyTemp ≠ some ')' ∧ kept = false ∧ ∃ i, pos = some i ∧ find references keyTemp = some i)

theorem readClause_some {keys : ℕ} {refTableName p keyTemp s : Text} {pos pos' : Option ℕ} {kept : Bool}
    {rest rest' : List Text} (hgathers : Gathers keyTemp pos) (hp : p ≠ [])
    (h : clause keys refTableName pos p rest = some (pos', kept, rest')) :
    ∃ r k added, readClause keys refTableName ⟨rest, s⟩ p keyTemp = .ok (r, k, added) ∧ r.pieces = rest' ∧
      Leaves k added pos' kept := by
  have hplace := hgathers.find p
  rw [clause] at h
  cases hfound : (pos <|> find references p) with
  | some i =>
    simp only [hfound] at h
    rw [hfound] at hplace
    split_ifs at h with hnamed hend
    · cases h
      refine ⟨⟨rest, s⟩, keyTemp ++ p ++ comma, nameAt i p != refTableName, ?_, rfl, .inl ⟨?_, rfl, rfl⟩⟩
      · rw [readClause_inside hplace, referencedName_named hnamed]
        rfl
      · rw [beforeLast_comma hp]
        exact hend
    · cases h
      refine ⟨⟨rest, s⟩, keyTemp ++ p ++ comma, nameAt i p != refTableName, ?_, rfl, .inr ⟨?_, rfl, i, rfl, hplace⟩⟩
      · rw [readClause_inside hplace, referencedName_named hnamed]
        rfl
      · rw [beforeLast_comma hp]
        exact hend
  | none =>
    simp only [hfound] at h
    rw [hfound] at hplace
    obtain ⟨hpos, hnone⟩ : pos = none ∧ find references p = none := by
      cases pos with
      | none => exact ⟨rfl, hfound⟩
      | some i => cases hfound
    obtain ⟨rfl, -⟩ | ⟨i, hi, -⟩ := hgathers
    · cases hseek : seek (p.length + 1) [] rest with
      | none =>
        simp only [hseek] at h
        cases h
      | some found =>
        obtain ⟨i, q, behind⟩ := found
        simp only [hseek] at h
        split_ifs at h with hnamed
        have hlength : 2 ≤ q.length := by
          have hle := hnamed.1
          have heleven : references.length = 11 := rfl
          omega
        obtain ⟨k, hk, hki⟩ := seekReferences_found (s := s) (show rest.length ≤ rest.length + 2 by omega)
          ((find_eq_none_iff references_ne_nil).mp hnone) hseek
        have hstart : [] ++ p ++ comma = p ++ ',' :: [] := rfl
        cases hclosing : closing keys (nameAt i q) q behind with
        | none =>
          rw [hclosing] at h
          cases h
        | some ended =>
          obtain ⟨closed, last⟩ := ended
          obtain ⟨r, more, hrun, hrest, hclosed⟩ := closingRun_found (k := k) hlength hclosing
          have hread : readClause keys refTableName ⟨rest, s⟩ p [] =
              .ok (r, terminated keys (k ++ ',' :: q ++ more), nameAt i q != refTableName) := by
            rw [readClause_behind hplace, hstart, hk]
            change (referencedName i q >>= fun tName =>
              closingRun tName q ⟨behind, towupper q⟩ (k ++ ',' :: q) >>= fun x =>
                .ok (x.1, terminated keys x.2, tName != refTableName)) = _
            rw [referencedName_named hnamed]
            change (closingRun (nameAt i q) q ⟨behind, towupper q⟩ (k ++ ',' :: q) >>= fun x =>
              .ok (x.1, terminated keys x.2, nameAt i q != refTableName)) = _
            rw [hrun]
            rfl
          rw [hclosing] at h
          cases closed with
          | true =>
            cases h
            exact ⟨_, _, _, hread, hrest, .inl ⟨hclosed.mpr rfl, rfl, rfl⟩⟩
          | false =>
            cases h
            refine ⟨_, _, _, hread, hrest, .inr ⟨fun hend => Bool.false_ne_true (hclosed.mp hend), rfl, i, rfl, ?_⟩⟩
            have hkept : ∃ tail, terminated keys (k ++ ',' :: q ++ more) = k ++ tail := by
              unfold terminated
              split_ifs
              · exact ⟨',' :: q ++ more ++ comma, by simp⟩
              · exact ⟨',' :: q ++ more, by simp⟩
            obtain ⟨tail, htail⟩ := hkept
            rw [htail]
            exact find_append_left hki tail
    · rw [hpos] at hi
      cases hi

theorem bind_eq_ok {α β : Type} {x : Guarded α} {f : α → Guarded β} {y : β} (h : x >>= f = .ok y) :
    ∃ a, x = .ok a ∧ f a = .ok y := by
  cases x with
  | error fault => cases h
  | ok a => exact ⟨a, rfl, h⟩

theorem readClause_none {keys : ℕ} {refTableName p keyTemp s : Text} {pos : Option ℕ} {rest : List Text}
    (hgathers : Gathers keyTemp pos) (hs : s.length ≤ p.length) (h : clause keys refTableName pos p rest = none)
    (x : Reader × Text × Bool) : readClause keys refTableName ⟨rest, s⟩ p keyTemp ≠ .ok x := by
  have hplace := hgathers.find p
  intro hread
  rw [clause] at h
  cases hfound : (pos <|> find references p) with
  | some i =>
    simp only [hfound] at h
    rw [hfound] at hplace
    rw [readClause_inside hplace] at hread
    obtain ⟨name, hname, -⟩ := bind_eq_ok hread
    split_ifs at h with hnamed
    exact referencedName_error hnamed name hname
  | none =>
    simp only [hfound] at h
    rw [hfound] at hplace
    obtain ⟨hpos, hnone⟩ : pos = none ∧ find references p = none := by
      cases pos with
      | none => exact ⟨rfl, hfound⟩
      | some i => cases hfound
    have hclean : ¬ references <:+: p := (find_eq_none_iff references_ne_nil).mp hnone
    obtain ⟨rfl, -⟩ | ⟨i, hi, -⟩ := hgathers
    · have hstart : [] ++ p ++ comma = p ++ ',' :: [] := rfl
      rw [readClause_behind hplace, hstart] at hread
      obtain ⟨sought, hsought, hread⟩ := bind_eq_ok hread
      obtain ⟨name, hname, hread⟩ := bind_eq_ok hread
      obtain ⟨y, hy, -⟩ := bind_eq_ok hread
      cases hseek : seek (p.length + 1) [] rest with
      | none =>
        have hbeyond := seekReferences_beyond hclean (by decide)
          (by rw [List.length_append]; omega) hseek hsought
        refine referencedName_error (fun hnamed => ?_) name hname
        have hle := hnamed.1
        omega
      | some found =>
        obtain ⟨i, q, behind⟩ := found
        simp only [hseek] at h
        obtain ⟨k, hk, -⟩ := seekReferences_found (s := s) (show rest.length ≤ rest.length + 2 by omega) hclean hseek
        cases hk.symm.trans hsought
        split_ifs at h with hnamed
        · cases (referencedName_named hnamed).symm.trans hname
          cases hclosing : closing keys (nameAt i q) q behind with
          | none => exact closingRun_lost hclosing y hy
          | some ended =>
            obtain ⟨closed, last⟩ := ended
            rw [hclosing] at h
            cases closed <;> cases h
        · exact referencedName_error hnamed name hname
    · rw [hpos] at hi
      cases hi

theorem seek_length {offset i : ℕ} {previous q : Text} {pieces rest : List Text}
    (h : seek offset previous pieces = some (i, q, rest)) : rest.length < pieces.length := by
  induction pieces generalizing offset previous with
  | nil => cases h
  | cons t pieces ih =>
    rw [seek] at h
    split at h
    · cases h
      exact Nat.lt_succ_self _
    · exact (ih h).trans (Nat.lt_succ_self _)

theorem closeIn_length {closed : Bool} {pieces rest : List Text} (h : closeIn pieces = some (closed, rest)) :
    rest.length < pieces.length := by
  induction pieces with
  | nil => cases h
  | cons t pieces ih =>
    rw [closeIn] at h
    split_ifs at h
    · cases h
      exact Nat.lt_succ_self _
    · exact (ih h).trans (Nat.lt_succ_self _)

theorem closing_length {keys : ℕ} {name q : Text} {closed : Bool} {pieces rest : List Text}
    (h : closing keys name q pieces = some (closed, rest)) : rest.length ≤ pieces.length := by
  rw [closing] at h
  split_ifs at h
  · cases h
    exact le_refl _
  · cases h
    exact Nat.zero_le _
  · exact (closeIn_length h).le

theorem clause_length {keys : ℕ} {refTableName p : Text} {pos pos' : Option ℕ} {kept : Bool}
    {pieces rest : List Text} (h : clause keys refTableName pos p pieces = some (pos', kept, rest)) :
    rest.length ≤ pieces.length := by
  rw [clause] at h
  split at h
  · split_ifs at h <;> cases h <;> exact le_refl _
  · split at h
    · cases h
    · rename_i i q behind hseek
      split_ifs at h
      split at h
      · cases h
      all_goals
        rename_i hclosing
        cases h
        exact (closing_length hclosing).trans (seek_length hseek).le

theorem getline_read {p : Text} {rest : List Text} (h : p :: rest ≠ [[]]) (s : Text) :
    Reader.getline ⟨p :: rest, s⟩ = (true, ⟨rest, p⟩) := by
  cases p with
  | nil =>
    cases rest with
    | nil => exact absurd rfl h
    | cons q rest => rfl
  | cons c p => rfl

section Loop

variable {keys rounds : ℕ} {refTableName p newSQL keyTemp s : Text} {rest : List Text}

theorem rewriteLoop_blank (hread : p :: rest ≠ [[]]) (hblank : Blank p) :
    rewriteLoop keys refTableName (rounds + 1) ⟨p :: rest, s⟩ newSQL keyTemp = .error .outOfRange := by
  rw [rewriteLoop]
  simp only [getline_read hread, Reader.upper]
  rw [substr_blank (blank_towupper.mpr hblank)]
  rfl

theorem ne_singleton_of_not_blank (hblank : ¬ Blank p) : p :: rest ≠ [[]] := by
  intro h
  obtain ⟨rfl, -⟩ := List.cons.inj h
  exact hblank fun c hc => absurd hc List.not_mem_nil

theorem rewriteLoop_plain (hblank : ¬ Blank p) (hkey : ¬ IsKey p) :
    rewriteLoop keys refTableName (rounds + 1) ⟨p :: rest, s⟩ newSQL keyTemp =
      rewriteLoop keys refTableName rounds ⟨rest, towupper p⟩ (newSQL ++ p ++ comma) keyTemp := by
  rw [rewriteLoop]
  simp only [getline_read (ne_singleton_of_not_blank hblank), Reader.upper]
  rw [substr_firstNotBlank (fun h => hblank (blank_towupper.mp h))]
  have hnone : find foreignKey ((towupper p).dropWhile (· = ' ')) = none := not_not.mp hkey
  change Except.bind (Except.ok ((towupper p).dropWhile (· = ' '))) _ = _
  simp only [Except.bind, hnone]

theorem rewriteLoop_key (keys rounds : ℕ) (refTableName newSQL keyTemp s : Text) (rest : List Text)
    (hblank : ¬ Blank p) (hkey : IsKey p) : ∃ t, t.length ≤ p.length ∧
    rewriteLoop keys refTableName (rounds + 1) ⟨p :: rest, s⟩ newSQL keyTemp =
      (readClause keys refTableName ⟨rest, t⟩ p keyTemp >>= fun x =>
        if beforeLast x.2.1 = some ')' then
          rewriteLoop keys refTableName rounds x.1 (if x.2.2 then newSQL ++ x.2.1 else newSQL) []
        else rewriteLoop keys refTableName rounds x.1 newSQL x.2.1) := by
  obtain ⟨fkPos, hfind⟩ := Option.ne_none_iff_exists'.mp hkey
  refine ⟨(towupper p).drop fkPos, ?_, ?_⟩
  · rw [List.length_drop, length_towupper]
    omega
  · rw [rewriteLoop]
    simp only [getline_read (ne_singleton_of_not_blank hblank), Reader.upper]
    rw [substr_firstNotBlank (fun h => hblank (blank_towupper.mp h))]
    change Except.bind (Except.ok ((towupper p).dropWhile (· = ' '))) _ = _
    simp only [Except.bind, hfind]

end Loop

theorem finishSql_returns_iff (newSQL : Text) : (∃ t, finishSql newSQL = .ok t) ↔ newSQL ≠ [] := by
  unfold finishSql
  cases h : newSQL.getLast? with
  | none => simpa using List.getLast?_eq_none_iff.mp h
  | some c =>
    refine iff_of_true ⟨if c = ',' then newSQL.dropLast ++ ")".toList else newSQL, rfl⟩ fun hnil => ?_
    simp [hnil] at h

theorem rewritable_nil_iff {keys : ℕ} {refTableName : Text} {pos : Option ℕ} {filled : Bool} :
    Rewritable keys refTableName pos filled [] ↔ filled = true := by
  constructor
  · rintro ⟨⟩
    rfl
  · rintro rfl
    exact .done pos

theorem blank_nil : Blank [] := fun _ hc => absurd hc List.not_mem_nil

theorem rewritable_trailing_iff {keys : ℕ} {refTableName : Text} {pos : Option ℕ} {filled : Bool} :
    Rewritable keys refTableName pos filled [[]] ↔ filled = true := by
  constructor
  · intro h
    cases h with
    | trailing => rfl
    | plain hblank => exact absurd blank_nil hblank
    | key hblank => exact absurd blank_nil hblank
  · rintro rfl
    exact .trailing pos

theorem Rewritable.cons {keys : ℕ} {refTableName p : Text} {pos : Option ℕ} {filled : Bool} {rest : List Text}
    (h : Rewritable keys refTableName pos filled (p :: rest)) (hread : p :: rest ≠ [[]]) :
    ¬ Blank p ∧ ((¬ IsKey p ∧ Rewritable keys refTableName pos true rest) ∨
      (IsKey p ∧ ∃ pos' kept rest', clause keys refTableName pos p rest = some (pos', kept, rest') ∧
        Rewritable keys refTableName pos' (filled || kept) rest')) := by
  cases h with
  | trailing => exact absurd rfl hread
  | plain hblank hkey hrest => exact ⟨hblank, .inl ⟨hkey, hrest⟩⟩
  | key hblank hkey hclause hrest => exact ⟨hblank, .inr ⟨hkey, _, _, _, hclause, hrest⟩⟩

theorem rewriteLoop_returns_iff {keys fuel : ℕ} {refTableName newSQL keyTemp s : Text} {pos : Option ℕ}
    {pieces : List Text} (hfuel : pieces.length < fuel) (hgathers : Gathers keyTemp pos) :
    (∃ t, (rewriteLoop keys refTableName fuel ⟨pieces, s⟩ newSQL keyTemp >>= finishSql) = .ok t) ↔
      Rewritable keys refTableName pos (newSQL ≠ []) pieces := by
  induction fuel generalizing pieces newSQL keyTemp s pos with
  | zero => exact absurd hfuel (Nat.not_lt_zero _)
  | succ rounds ih =>
    cases pieces with
    | nil =>
      rw [rewritable_nil_iff, decide_eq_true_iff]
      exact finishSql_returns_iff newSQL
    | cons p rest =>
      have hrounds : rest.length < rounds := Nat.lt_of_succ_lt_succ hfuel
      by_cases hread : p :: rest = [[]]
      · rw [hread, rewritable_trailing_iff, decide_eq_true_iff]
        exact finishSql_returns_iff newSQL
      · by_cases hblank : Blank p
        · rw [rewriteLoop_blank hread hblank]
          exact iff_of_false (fun ⟨t, ht⟩ => nomatch ht) fun h => (h.cons hread).1 hblank
        · by_cases hkey : IsKey p
          · obtain ⟨t, ht, hround⟩ := rewriteLoop_key keys rounds refTableName newSQL keyTemp s rest hblank hkey
            rw [hround]
            cases hclause : clause keys refTableName pos p rest with
            | none =>
              refine iff_of_false (fun ⟨u, hu⟩ => ?_) fun h => ?_
              · obtain ⟨a, ha, -⟩ := bind_eq_ok hu
                obtain ⟨x, hx, -⟩ := bind_eq_ok ha
                exact readClause_none hgathers ht hclause x hx
              · obtain ⟨-, ⟨hnot, -⟩ | ⟨-, pos', kept, rest', hsome, -⟩⟩ := h.cons hread
                · exact hnot hkey
                · exact nomatch hclause.symm.trans hsome
            | some left =>
              obtain ⟨pos', kept, rest'⟩ := left
              have hp : p ≠ [] := fun h => hblank (h ▸ blank_nil)
              obtain ⟨⟨pieces', s'⟩, k, added, hk, hrest, hleaves⟩ := readClause_some (s := t) hgathers hp hclause
              obtain rfl : pieces' = rest' := hrest
              have hlength := clause_length hclause
              have hkeep : Rewritable keys refTableName pos (newSQL ≠ []) (p :: rest) ↔
                  Rewritable keys refTableName pos' (decide (newSQL ≠ []) || kept) pieces' := by
                constructor
                · intro h
                  obtain ⟨-, ⟨hnot, -⟩ | ⟨-, pos', kept, rest', hsome, hnext⟩⟩ := h.cons hread
                  · exact absurd hkey hnot
                  · cases hclause.symm.trans hsome
                    exact hnext
                · exact .key hblank hkey hclause
              rw [hkeep, hk]
              obtain ⟨hclosed, rfl, rfl⟩ | ⟨hopen, rfl, i, rfl, hi⟩ := hleaves
              · have hfilled : (decide (newSQL ≠ []) || kept) = decide ((if kept then newSQL ++ k else newSQL) ≠ []) := by
                  have hne : k ≠ [] := by
                    rintro rfl
                    cases hclosed
                  cases kept <;> simp [hne]
                rw [hfilled, ← ih (by omega) (.inl ⟨rfl, rfl⟩)]
                change (∃ t, ((if beforeLast k = some ')' then _ else _) >>= finishSql) = .ok t) ↔ _
                rw [if_pos hclosed]
              · rw [Bool.or_false, ← ih (by omega) (.inr ⟨i, rfl, hi⟩)]
                change (∃ t, ((if beforeLast k = some ')' then _ else _) >>= finishSql) = .ok t) ↔ _
                rw [if_neg hopen]
          · rw [rewriteLoop_plain hblank hkey, ih hrounds hgathers]
            have hfilled : decide (newSQL ++ p ++ comma ≠ []) = true := by simp [comma]
            rw [hfilled]
            constructor
            · exact .plain hblank hkey
            · intro h
              obtain ⟨-, ⟨-, hnext⟩ | ⟨hkey', -⟩⟩ := h.cons hread
              · exact hnext
              · exact absurd hkey' hkey

/-- The rewriting comes to its end on the texts whose keys each have `REFERENCES `, a name and a closing
parenthesis at the places where they are looked for, and on no others. -/
theorem dropForeignKey_returns_iff (refTableName sql : Text) (m : ForeignKeyMap) :
    (∃ result, dropForeignKey refTableName sql m = .ok result) ↔
      Rewritable m.size refTableName none false (sql.splitOn ',') := by
  rw [← show decide (([] : Text) ≠ []) = false from rfl,
    ← rewriteLoop_returns_iff (s := []) (Nat.lt_succ_self _) (.inl ⟨rfl, rfl⟩)]
  constructor
  · rintro ⟨result, h⟩
    obtain ⟨newSQL, hnew, -⟩ := bind_eq_ok h
    exact ⟨newSQL, hnew⟩
  · rintro ⟨newSQL, hnew⟩
    have hsql : rewriteSql m.size refTableName sql = .ok newSQL := hnew
    exact ⟨(newSQL, eraseReferences refTableName m), by rw [dropForeignKey, hsql]; rfl⟩

/-- A key of two columns as `ApplyForeignKey` itself writes it. -/
def compositeSql : Text := "CREATE TABLE t(a int, b int, FOREIGN KEY(a, b) REFERENCES r(x, y))".toList

def compositeKey (originalField referencedField : Text) : FKField :=
  ⟨0, [], [], ['t'], originalField, [], ['r'], referencedField, [], [], .noAction, .noAction, -1⟩

example :
    addClause ⟨[], [['a'], ['b']], ['r'], [['x'], ['y']], 0, 0, false, true, 0⟩
      [compositeKey ['a'] ['x'], compositeKey ['b'] ['y']] "CREATE TABLE t(a int, b int)".toList = .ok compositeSql :=
  rfl

theorem dropForeignKey_compositeSql :
    dropForeignKey ['r'] compositeSql (.ofEntries []) = .error .outOfRange := by
  rfl

example : ∃ result, dropForeignKey ['r'] "CREATE TABLE t(a int, FOREIGN KEY(a) REFERENCES r(x))".toList
    (.ofEntries []) = .ok result :=
  ⟨_, rfl⟩

end DbHandler.Sqlite.ForeignKeys
