import Mathlib.Data.Int.Order.Basic
import DbHandler.Diagram.Canvas
import DbHandler.Foundation.OrderedMap
import DbHandler.QueryBuilder.FieldShuffle

namespace DbHandler.QueryBuilder

open Foundation Foundation.Search
open Foundation.Separators (before after)
open Diagram (quoted relation andText)

structure QueryConstraint extends Diagram.Constraint where
  sign : ℕ

/-- `noRelation` is the use of `m_whereRelatons.end()`, `unfinished` a loop that goes on. -/
inductive JoinFault
  | noRelation
  | outOfRange
  | unfinished
  deriving DecidableEq, Repr

structure JoinView where
  query : Text
  whereRelations : List Text
  whereConditions : OrderedMap ℤ Text

/-- The sign that the text gets. -/
def newSign : ℕ → Text
  | 0 | 1 | 2 => "=".toList
  | 3 => "<".toList
  | 4 => ">".toList
  | 5 => "<=".toList
  | 6 => ">=".toList
  | _ => []

/-- The sign that the diagram gets, which keeps its own for an unknown code. -/
def showSign (shown : Text) : ℕ → Text
  | 0 | 1 | 2 => "=".toList
  | 3 => "<".toList
  | 4 => ">".toList
  | 5 => "<=".toList
  | 6 => "<>".toList
  | _ => shown

def outer (sign : ℕ) : Bool := sign = 1 || sign = 2

/-- A position is true unless it is 0, and nothing found is a position. -/
def picks (type : QueryConstraint) (iter : Text) : Bool :=
  findInt type.refTable iter ≠ 0 && findInt type.fkTable iter ≠ 0

/-- `substr( pos )` -/
def cut (t : Text) (pos : ℤ) : Except JoinFault Text :=
  match substrLength t pos (-1) with
  | some rest => .ok rest
  | none => .error .outOfRange

/-- `t.substr( 0, t.find( c ) + 1 )`, which is nothing where there is no `c`. -/
def through (c : Char) (t : Text) : Text := t.take (findInt [c] t + 1).toNat

def localSide (type : QueryConstraint) : Text := type.fkTable ++ '.' :: type.localColumn

def refSide (type : QueryConstraint) : Text := type.refTable ++ '.' :: type.refColumn

def outerJoin (type : QueryConstraint) : Text :=
  if type.sign = 1 then
    type.fkTable ++ " LEFT OUTER JOIN ".toList ++ type.refTable ++ " ON ".toList ++ localSide type ++ " = ".toList ++
      refSide type
  else
    type.refTable ++ " LEFT OUTER JOIN ".toList ++ type.fkTable ++ " ON ".toList ++ refSide type ++ " = ".toList ++
      localSide type

/-- Where the clauses behind the conditions begin, or else the last character. -/
def clausesPos (query : Text) : ℤ :=
  if findInt "GROUP BY".toList query ≠ -1 then findInt "GROUP BY".toList query
  else if findInt "HAVING".toList query ≠ -1 then findInt "HAVING".toList query
  else if findInt "ORDER BY".toList query ≠ -1 then findInt "ORDER BY".toList query
  else query.length - 1

/-- The comma that a round cuts at is the first character of the next one. -/
def tableLoop (type : QueryConstraint) : ℕ → Text → Text → Except JoinFault Text
  | 0, _, _ => .error .unfinished
  | rounds + 1, temp1, result =>
    if temp1 = [] then .ok result
    else do
      let temp2 := through ',' temp1
      let result := if temp2 ≠ type.fkTable ∧ temp2 ≠ type.refTable then result ++ ", ".toList ++ temp2 else result
      let rest ← cut temp1 (findInt [','] temp1)
      tableLoop type rounds rest result

/-- What is left of the query is not appended. -/
def toOuter (rounds : ℕ) (type : QueryConstraint) (v : JoinView) : Except JoinFault (Text × Text) := do
  let result := through '\n' v.query ++ "FROM ".toList ++ outerJoin type
  let query := after '\n' v.query
  let query ← cut query (findInt "WHERE".toList query)
  if v.whereRelations.length = 1 ∧ v.whereConditions.size = 0 then
    let query ← cut query (clausesPos query)
    let result := if query.length = 1 then result ++ [';'] else result
    pure (result, result)
  else
    let result ← tableLoop type rounds (after ' ' (through '\n' query)) result
    pure ([], result)

def joinOperator : ℕ → Text
  | 3 => " < ".toList
  | 4 => " > ".toList
  | 5 => " <= ".toList
  | 6 => " >= ".toList
  | 7 => " <> ".toList
  | 0 => " = ".toList
  | _ => []

def conditionLoop (type : QueryConstraint) : ℕ → Text → Text → Except JoinFault Text
  | 0, _, _ => .error .unfinished
  | rounds + 1, query, result =>
    let temp := before ' ' query
    if temp = localSide type ∨ temp = refSide type then
      .ok (result ++ temp ++ joinOperator type.sign ++ after ' ' (after ' ' query))
    else
      match find " AND ".toList query with
      | some pos => conditionLoop type rounds (query.drop (pos + 5)) (result ++ query.take (pos + 5))
      | none => do
        let pos := findInt " OR ".toList query
        let rest ← cut query (pos + 4)
        conditionLoop type rounds rest (result ++ query.take (pos + 4).toNat)

def fromOuter (rounds : ℕ) (type : QueryConstraint) (v : JoinView) : Except JoinFault Text := do
  let query ← cut v.query (findInt " WHERE ".toList v.query + 7)
  conditionLoop type rounds query (v.query.take (findInt "WHERE ".toList v.query + 7).toNat)

/-- The new relation with the new text. -/
def signChange (rounds : ℕ) (type : QueryConstraint) (oldSign : ℕ) (orig : Text) (v : JoinView) :
    Except JoinFault (Text × Text) :=
  if ¬ outer type.sign ∧ ¬ outer oldSign then
    let temp := replaceAll (before ' ' (after ' ' orig)) (newSign type.sign) orig
    .ok (temp, replaceAll orig temp v.query)
  else if outer type.sign ∧ ¬ outer oldSign then toOuter rounds type v
  else if ¬ outer type.sign ∧ outer oldSign then (fromOuter rounds type v).map ([], ·)
  else .ok ([], [])

def updateQueryFromSignChange (rounds : ℕ) (type : QueryConstraint) (oldSign : ℕ) (v : JoinView) :
    Except JoinFault JoinView :=
  match v.whereRelations.find? (picks type) with
  | none => .error .noRelation
  | some orig => (signChange rounds type oldSign orig v).map fun r =>
    ⟨r.2, v.whereRelations.eraseP (picks type) ++ [r.1], v.whereConditions⟩

def joinSigns : List ℕ := [0, 3, 4, 5, 6]

def leftOf (type : QueryConstraint) : Text := quoted type.refTable ++ '.' :: quoted type.refColumn

def rightOf (type : QueryConstraint) : Text := quoted type.fkTable ++ '.' :: quoted type.localColumn

/-- The condition that relates the constraint's own tables and columns. -/
def conditionText (type : QueryConstraint) (op : Text) : Text := leftOf type ++ ' ' :: (op ++ ' ' :: rightOf type)

def joinWhere (conditions : List Text) : Text := andText.intercalate conditions

structure SignChanged (pre post : Text) (conditions : List Text) (v : JoinView) : Prop where
  query : v.query = pre ++ (joinWhere conditions ++ post)
  relations : v.whereRelations.Perm conditions

/-- The relation that the search picks is the constraint's, nothing but its operator looks like the operator,
and nothing else in the text like the relation. -/
structure SignApplies (type : QueryConstraint) (op textBefore textAfter : Text) (v : JoinView) : Prop where
  sign : type.sign ≠ 6
  picked : v.whereRelations.find? (picks type) = some (conditionText type op)
  blank : ' ' ∉ leftOf type
  left : ¬ op <:+: leftOf type
  right : ¬ op <:+: rightOf type
  first : Avoids (conditionText type op) textBefore (conditionText type op ++ textAfter)
  last : ¬ conditionText type op <:+: textAfter

section Conditions

/-- The builder writes the condition of a new constraint with the sign for equality. -/
theorem relation_eq (r : Diagram.Reference) :
    relation r = conditionText ⟨Diagram.fieldConstraint .queryView r, 0⟩ (newSign 0) := by
  simp [relation, conditionText, leftOf, rightOf, newSign, Diagram.fieldConstraint]

theorem joinWhere_split (earlier later : List Text) (condition : Text) :
    joinWhere (earlier ++ condition :: later) =
      earlier.flatMap (· ++ andText) ++ (condition ++ later.flatMap (andText ++ ·)) :=
  Separators.intercalate_split andText condition earlier later

theorem conditionText_injective (type : QueryConstraint) : Function.Injective (conditionText type) := by
  intro op op' h
  exact List.append_cancel_right (List.cons.inj (List.append_cancel_left h)).2

/-- One condition put in another's place, read off from the lists as multisets. -/
theorem perm_replaced {orig condition temp new : Text} {others relations : List Text}
    (hold : (orig :: relations).Perm (condition :: others)) (hnew : (temp :: relations).Perm (new :: others))
    (hne : new ≠ condition) : orig = condition ∧ temp = new := by
  have horig : orig = condition := by
    by_contra hdiffers
    have hbefore := hold.count_eq condition
    have hafter := hnew.count_eq condition
    rw [List.count_cons_of_ne hdiffers, List.count_cons_self] at hbefore
    rw [List.count_cons_of_ne hne, List.count_cons] at hafter
    omega
  subst horig
  have hothers := hold.cons_inv
  have hcount := (hnew.trans (hothers.symm.cons new)).count_eq new
  rw [List.count_cons, List.count_cons_self] at hcount
  refine ⟨rfl, ?_⟩
  by_contra hdiffers
  rw [if_neg (by simpa using hdiffers)] at hcount
  omega

theorem replaceAll_word {w sign : Text} (hw : ' ' ∉ w) (hnil : w ≠ []) (a b : Text) :
    replaceAll w sign (a ++ ' ' :: (w ++ ' ' :: b)) =
      replaceAll w sign a ++ ' ' :: (sign ++ ' ' :: replaceAll w sign b) := by
  rw [replaceAll_stop hnil hw, replaceAll_stop hnil hw, replaceAll_whole hnil]

/-- A name with a blank: what is cut out as the operator is a word of the name. -/
theorem conditionText_words {type : QueryConstraint} {first rest : Text} (hsplit : leftOf type = first ++ ' ' :: rest)
    (op : Text) : ∃ b, conditionText type op = first ++ ' ' :: (before ' ' rest ++ ' ' :: b) := by
  rw [conditionText, hsplit]
  by_cases hrest : ' ' ∈ rest
  · refine ⟨after ' ' rest ++ ' ' :: (op ++ ' ' :: rightOf type), ?_⟩
    have hwhole := Separators.before_append_after hrest
    calc first ++ ' ' :: rest ++ ' ' :: (op ++ ' ' :: rightOf type)
      _ = first ++ ' ' :: (before ' ' rest ++ ' ' :: after ' ' rest) ++ ' ' :: (op ++ ' ' :: rightOf type) := by
        rw [hwhole]
      _ = _ := by simp only [List.append_assoc, List.cons_append]
  · refine ⟨op ++ ' ' :: rightOf type, ?_⟩
    rw [Separators.before_of_not_mem hrest, List.append_assoc, List.cons_append]

/-- A replacement of a word of a name changes the name or nothing. -/
theorem not_signed_of_blank {type : QueryConstraint} {op sign new : Text} (hleft : ' ' ∈ leftOf type)
    (hsign : ' ' ∉ sign) (hnew : op ≠ new) :
    replaceAll (before ' ' (after ' ' (conditionText type op))) sign (conditionText type op) ≠ conditionText type new := by
  obtain ⟨first, rest, hsplit, hfirst⟩ := List.eq_append_cons_of_mem hleft
  obtain ⟨b, hb⟩ := conditionText_words hsplit op
  obtain ⟨b', hb'⟩ := conditionText_words hsplit new
  have hrest := Separators.not_mem_before ' ' rest
  have hword : before ' ' (after ' ' (conditionText type op)) = before ' ' rest := by
    rw [hb, Separators.after_append hfirst, Separators.before_append hrest]
  have hdiffers : conditionText type op ≠ conditionText type new := (conditionText_injective type).ne hnew
  rw [hword]
  intro h
  rcases eq_or_ne (before ' ' rest) [] with hempty | hempty
  · rw [hempty, replaceAll_nil] at h
    exact hdiffers h
  · rcases eq_or_ne (before ' ' rest) sign with hsame | hother
    · rw [hsame, replaceAll_self] at h
      exact hdiffers h
    · rw [hb, hb', replaceAll_word hrest hempty] at h
      have hfirst' : ' ' ∉ replaceAll (before ' ' rest) sign first := fun hmem =>
        (mem_replaceAll hmem).elim hfirst hsign
      have htail := (Separators.append_inj_of_not_mem hfirst' hfirst h).2
      exact hother (Separators.append_inj_of_not_mem hsign hrest htail).1.symm

/-- The operator cut out is the right one, and the only one in the condition, exactly if no name on the left
has a blank and no name has the operator. -/
theorem signed_iff {type : QueryConstraint} {op sign new : Text} (hop : ' ' ∉ op) (hnil : op ≠ []) (hsign : ' ' ∉ sign)
    (hne : op ≠ sign) (hnew : op ≠ new) (hblank : ' ' ∉ new) :
    replaceAll (before ' ' (after ' ' (conditionText type op))) sign (conditionText type op) = conditionText type new ↔
      sign = new ∧ ' ' ∉ leftOf type ∧ ¬ op <:+: leftOf type ∧ ¬ op <:+: rightOf type := by
  by_cases hleft : ' ' ∈ leftOf type
  · exact iff_of_false (not_signed_of_blank hleft hsign hnew) fun h => h.2.1 hleft
  · have hword : before ' ' (after ' ' (conditionText type op)) = op := by
      rw [conditionText, Separators.after_append hleft, Separators.before_append hop]
    have hleft' : ' ' ∉ replaceAll op sign (leftOf type) := fun hmem => (mem_replaceAll hmem).elim hleft hsign
    rw [hword, conditionText, replaceAll_word hop hnil, conditionText]
    constructor
    · intro h
      obtain ⟨hl, htail⟩ := Separators.append_inj_of_not_mem hleft' hleft h
      obtain ⟨hs, hr⟩ := Separators.append_inj_of_not_mem hsign hblank htail
      exact ⟨hs, hleft, ((replaceAll_eq_self_iff hnil).mp hl).resolve_left hne,
        ((replaceAll_eq_self_iff hnil).mp hr).resolve_left hne⟩
    · rintro ⟨rfl, -, hl, hr⟩
      rw [replaceAll_absent hnil hl, replaceAll_absent hnil hr]

end Conditions

section Signs

theorem showSign_shown {sign : ℕ} (h : sign ∈ joinSigns) (shown : Text) : showSign shown sign = showSign [] sign := by
  simp only [joinSigns, List.mem_cons, List.not_mem_nil, or_false] at h
  rcases h with rfl | rfl | rfl | rfl | rfl <;> rfl

theorem sign_words : ∀ sign ∈ joinSigns, ∀ op ∈ [newSign sign, showSign [] sign], ' ' ∉ op ∧ op ≠ [] := by
  decide

theorem sign_shown : ∀ sign ∈ joinSigns, (newSign sign = showSign [] sign ↔ sign ≠ 6) := by
  decide

theorem sign_differs : ∀ sign ∈ joinSigns, ∀ oldSign ∈ joinSigns, sign ≠ oldSign →
    ∀ op ∈ [newSign oldSign, showSign [] oldSign], op ≠ newSign sign ∧ op ≠ showSign [] sign := by
  decide +kernel

theorem not_outer {sign : ℕ} (h : sign ∈ joinSigns) : outer sign = false := by
  simp only [joinSigns, List.mem_cons, List.not_mem_nil, or_false] at h
  rcases h with rfl | rfl | rfl | rfl | rfl <;> rfl

variable {type : QueryConstraint} {oldSign : ℕ} {op shown pre post : Text} {earlier later : List Text} {v : JoinView}

theorem eraseP_of_find {α : Type*} {p : α → Bool} {l : List α} {a : α} (h : l.find? p = some a) :
    ∃ s t, l = s ++ a :: t ∧ l.eraseP p = s ++ t ∧ a ∉ s := by
  obtain ⟨ha, s, t, rfl, hs⟩ := List.find?_eq_some_iff_append.mp h
  refine ⟨s, t, rfl, ?_, fun hmem => by simpa [ha] using hs a hmem⟩
  rw [List.eraseP_append_right _ fun b hb => by simpa using hs b hb, List.eraseP_cons_of_pos ha]

theorem replaceAll_condition_iff (hop : ' ' ∉ op) {new : Text} (hnew : ' ' ∉ new) (hne : op ≠ new) (a b : Text) :
    replaceAll (conditionText type op) (conditionText type new) (a ++ (conditionText type op ++ b)) =
        a ++ (conditionText type new ++ b) ↔
      Avoids (conditionText type op) a (conditionText type op ++ b) ∧ ¬ conditionText type op <:+: b := by
  obtain ⟨c, y, z, s, t, hs, ht, hyz⟩ := Separators.exists_difference hop hnew hne
  have hsplit {w : Text} {c s : Text} {y : Char} (hw : w ++ [' '] = c ++ y :: s) :
      conditionText type w = (leftOf type ++ ' ' :: c) ++ y :: (s ++ rightOf type) := by
    have hword : w ++ ' ' :: rightOf type = (w ++ [' ']) ++ rightOf type := by simp
    rw [conditionText, hword, hw]
    simp
  exact replaceAll_at_iff hyz (hsplit hs) (hsplit ht)

theorem updateQueryFromSignChange_plain (rounds : ℕ) (hsign : type.sign ∈ joinSigns) (hold : oldSign ∈ joinSigns)
    {orig temp : Text} (hfind : v.whereRelations.find? (picks type) = some orig)
    (htemp : replaceAll (before ' ' (after ' ' orig)) (newSign type.sign) orig = temp) :
    updateQueryFromSignChange rounds type oldSign v =
      .ok ⟨replaceAll orig temp v.query, v.whereRelations.eraseP (picks type) ++ [temp], v.whereConditions⟩ := by
  rw [updateQueryFromSignChange, hfind]
  dsimp only
  rw [signChange, if_pos ⟨by simp [not_outer hsign], by simp [not_outer hold]⟩, htemp]
  rfl

theorem changed_iff (hsign : type.sign ∈ joinSigns) (hold : oldSign ∈ joinSigns) (hchange : type.sign ≠ oldSign)
    (hop : op ∈ [newSign oldSign, showSign shown oldSign]) :
    replaceAll (before ' ' (after ' ' (conditionText type op))) (newSign type.sign) (conditionText type op) =
        conditionText type (showSign shown type.sign) ↔
      type.sign ≠ 6 ∧ ' ' ∉ leftOf type ∧ ¬ op <:+: leftOf type ∧ ¬ op <:+: rightOf type := by
  rw [showSign_shown hold] at hop
  rw [showSign_shown hsign, ← sign_shown _ hsign]
  obtain ⟨hblank, hnil⟩ := sign_words _ hold op hop
  obtain ⟨hnew, hshown⟩ := sign_differs _ hsign _ hold hchange op hop
  exact signed_iff hblank hnil (sign_words _ hsign _ (by simp)).1 hnew hshown (sign_words _ hsign _ (by simp)).1

theorem text_changed_iff (hsign : type.sign ∈ joinSigns) (hold : oldSign ∈ joinSigns) (hchange : type.sign ≠ oldSign)
    (hop : op ∈ [newSign oldSign, showSign shown oldSign])
    (hquery : v.query = pre ++ (joinWhere (earlier ++ conditionText type op :: later) ++ post)) :
    replaceAll (conditionText type op) (conditionText type (showSign shown type.sign)) v.query =
        pre ++ (joinWhere (earlier ++ conditionText type (showSign shown type.sign) :: later) ++ post) ↔
      Avoids (conditionText type op) (pre ++ earlier.flatMap (· ++ andText))
          (conditionText type op ++ (later.flatMap (andText ++ ·) ++ post)) ∧
        ¬ conditionText type op <:+: later.flatMap (andText ++ ·) ++ post := by
  rw [showSign_shown hold] at hop
  rw [showSign_shown hsign, ← replaceAll_condition_iff (sign_words _ hold op hop).1
    (sign_words _ hsign (showSign [] type.sign) (by simp)).1 (sign_differs _ hsign _ hold hchange op hop).2, hquery,
    joinWhere_split, joinWhere_split]
  simp only [List.append_assoc]

theorem SignApplies.update (rounds : ℕ) {a b : Text} (h : SignApplies type op a b v) (hsign : type.sign ∈ joinSigns)
    (hold : oldSign ∈ joinSigns) (hchange : type.sign ≠ oldSign) (hop : op ∈ [newSign oldSign, showSign shown oldSign]) :
    updateQueryFromSignChange rounds type oldSign v =
      .ok ⟨replaceAll (conditionText type op) (conditionText type (showSign shown type.sign)) v.query,
        v.whereRelations.eraseP (picks type) ++ [conditionText type (showSign shown type.sign)], v.whereConditions⟩ :=
  updateQueryFromSignChange_plain rounds hsign hold h.picked
    ((changed_iff hsign hold hchange hop).mpr ⟨h.sign, h.blank, h.left, h.right⟩)

/-- The operator of the constraint's condition changes, and nothing else, exactly if the search picks the condition
and the replacements change nothing else. -/
theorem updateQueryFromSignChange_iff (rounds : ℕ) (hsign : type.sign ∈ joinSigns) (hold : oldSign ∈ joinSigns)
    (hchange : type.sign ≠ oldSign) (hop : op ∈ [newSign oldSign, showSign shown oldSign])
    (hquery : v.query = pre ++ (joinWhere (earlier ++ conditionText type op :: later) ++ post))
    (hrelations : v.whereRelations.Perm (earlier ++ conditionText type op :: later)) :
    (∃ v', updateQueryFromSignChange rounds type oldSign v = .ok v' ∧
        SignChanged pre post (earlier ++ conditionText type (showSign shown type.sign) :: later) v') ↔
      SignApplies type op (pre ++ earlier.flatMap (· ++ andText)) (later.flatMap (andText ++ ·) ++ post) v := by
  have htext := text_changed_iff hsign hold hchange hop hquery
  constructor
  · rintro ⟨v', hv', hq, hrel⟩
    cases hfind : v.whereRelations.find? (picks type) with
    | none =>
      rw [updateQueryFromSignChange, hfind] at hv'
      cases hv'
    | some orig =>
      rw [updateQueryFromSignChange_plain rounds hsign hold hfind rfl] at hv'
      obtain rfl := Except.ok.inj hv'
      obtain ⟨s, t, hs, herase, -⟩ := eraseP_of_find hfind
      rw [hs] at hrelations
      dsimp only at hq hrel
      rw [herase] at hrel
      have hne : showSign shown type.sign ≠ op := by
        rw [showSign_shown hold] at hop
        rw [showSign_shown hsign]
        exact (sign_differs _ hsign _ hold hchange op hop).2.symm
      -- the relation taken out is the constraint's, and the one put in is the new one
      obtain ⟨rfl, htemp⟩ := perm_replaced (List.perm_middle.symm.trans (hrelations.trans List.perm_middle))
        ((List.perm_append_singleton _ _).symm.trans (hrel.trans List.perm_middle)) ((conditionText_injective type).ne hne)
      obtain ⟨hsix, hleft, hinleft, hinright⟩ := (changed_iff hsign hold hchange hop).mp htemp
      rw [htemp, htext] at hq
      exact ⟨hsix, hfind, hleft, hinleft, hinright, hq.1, hq.2⟩
  · intro h
    obtain ⟨s, t, hs, herase, -⟩ := eraseP_of_find h.picked
    rw [hs] at hrelations
    have hrest := (List.perm_middle.symm.trans (hrelations.trans List.perm_middle)).cons_inv
    refine ⟨_, h.update rounds hsign hold hchange hop, htext.mpr ⟨h.first, h.last⟩, ?_⟩
    dsimp only
    rw [herase]
    exact (List.perm_append_singleton _ _).trans ((hrest.cons _).trans List.perm_middle.symm)

theorem concat_eq_cons_iff {α : Type*} (a : α) (l : List α) : l ++ [a] = a :: l ↔ ∀ b ∈ l, b = a := by
  induction l with
  | nil => simp
  | cons b l ih =>
    rw [List.cons_append, List.forall_mem_cons, ← ih]
    constructor
    · intro h
      obtain ⟨rfl, hrest⟩ := List.cons.inj h
      exact ⟨rfl, hrest⟩
    · rintro ⟨rfl, hrest⟩
      rw [hrest]

theorem picks_of_names (href : type.refTable ≠ []) (href' : type.refTable.head? ≠ some '"') (hfk : type.fkTable ≠ [])
    (hfk' : type.fkTable.head? ≠ some '"') (rest : Text) : picks type ('"' :: rest) = true := by
  have hposition {name : Text} (hname : name ≠ []) (hhead : name.head? ≠ some '"') : findInt name ('"' :: rest) ≠ 0 := by
    obtain ⟨c, name, rfl⟩ := List.exists_cons_of_ne_nil hname
    have hpre : ¬ c :: name <+: '"' :: rest := fun hpre => hhead (by rw [(List.cons_prefix_cons.mp hpre).1]; rfl)
    rw [findInt, find, if_neg hpre]
    cases find (c :: name) rest with
    | none => simp
    | some n => simp; omega
  simp [picks, hposition href href', hposition hfk hfk']

/-- The new condition is put at the end of the list. -/
theorem relations_in_order_iff (hfind : v.whereRelations.find? (picks type) = some (conditionText type op))
    (hrelations : v.whereRelations = earlier ++ conditionText type op :: later)
    (hearlier : conditionText type op ∉ earlier) (new : Text) :
    v.whereRelations.eraseP (picks type) ++ [new] = earlier ++ new :: later ↔ ∀ r ∈ later, r = new := by
  obtain ⟨s, t, hs, herase, hmem⟩ := eraseP_of_find hfind
  rw [hrelations] at hs
  obtain ⟨rfl, rfl⟩ := Separators.append_inj_of_not_mem hearlier hmem hs
  rw [herase, List.append_assoc, List.append_cancel_left_eq, concat_eq_cons_iff]

theorem SignApplies.not_mem_earlier {b : Text}
    (h : SignApplies type op (pre ++ earlier.flatMap (· ++ andText)) b v) : conditionText type op ∉ earlier := by
  intro hmem
  obtain ⟨s, t, rfl⟩ := List.append_of_mem hmem
  refine h.first.not_infix (by simp [conditionText, leftOf]) ⟨pre ++ s.flatMap (· ++ andText),
    andText ++ t.flatMap (· ++ andText), ?_⟩
  simp

/-- The order of the list is kept only if the conditions behind are the new one too. -/
theorem updateQueryFromSignChange_correct_iff (rounds : ℕ) (hsign : type.sign ∈ joinSigns) (hold : oldSign ∈ joinSigns)
    (hchange : type.sign ≠ oldSign) (hop : op ∈ [newSign oldSign, showSign shown oldSign])
    (hquery : v.query = pre ++ (joinWhere (earlier ++ conditionText type op :: later) ++ post))
    (hrelations : v.whereRelations.Perm (earlier ++ conditionText type op :: later)) :
    ((∃ v', updateQueryFromSignChange rounds type oldSign v = .ok v' ∧
        SignChanged pre post (earlier ++ conditionText type (showSign shown type.sign) :: later) v') ↔
      SignApplies type op (pre ++ earlier.flatMap (· ++ andText)) (later.flatMap (andText ++ ·) ++ post) v) ∧
    (v.whereRelations = earlier ++ conditionText type op :: later →
      ((∃ v', updateQueryFromSignChange rounds type oldSign v = .ok v' ∧
          SignChanged pre post (earlier ++ conditionText type (showSign shown type.sign) :: later) v' ∧
          v'.whereRelations = earlier ++ conditionText type (showSign shown type.sign) :: later) ↔
        SignApplies type op (pre ++ earlier.flatMap (· ++ andText)) (later.flatMap (andText ++ ·) ++ post) v ∧
          ∀ r ∈ later, r = conditionText type (showSign shown type.sign))) := by
  have hiff := updateQueryFromSignChange_iff rounds hsign hold hchange hop hquery hrelations
  refine ⟨hiff, fun hordered => ?_⟩
  constructor
  · rintro ⟨v', hv', hchanged, hlist⟩
    have h := hiff.mp ⟨v', hv', hchanged⟩
    rw [h.update rounds hsign hold hchange hop] at hv'
    obtain rfl := Except.ok.inj hv'
    exact ⟨h, (relations_in_order_iff h.picked hordered h.not_mem_earlier _).mp hlist⟩
  · rintro ⟨h, hlater⟩
    obtain ⟨v', hv', hchanged⟩ := hiff.mpr h
    refine ⟨v', hv', hchanged, ?_⟩
    rw [h.update rounds hsign hold hchange hop] at hv'
    obtain rfl := Except.ok.inj hv'
    exact (relations_in_order_iff h.picked hordered h.not_mem_earlier _).mpr hlater

end Signs

def orderReferences (refTable localColumn : String) (sign : ℕ) : QueryConstraint where
  viewType := .queryView
  localColumn := localColumn.toList
  refColumn := "id".toList
  refTable := refTable.toList
  fkTable := "orders".toList
  sign := sign

def clientAndItemHead : Text := "SELECT *\nFROM \"client\",\r     \"item\",\r     \"orders\"\nWHERE ".toList

def clientAndItem : JoinView where
  query := clientAndItemHead ++ (joinWhere [conditionText (orderReferences "client" "client" 0) "=".toList,
      conditionText (orderReferences "item" "item" 0) "=".toList] ++ ";".toList)
  whereRelations := [conditionText (orderReferences "client" "client" 0) "=".toList,
    conditionText (orderReferences "item" "item" 0) "=".toList]
  whereConditions := .empty

theorem item_sign_changed_iff :
    ((∃ v', updateQueryFromSignChange 0 (orderReferences "item" "item" 3) 0 clientAndItem = .ok v' ∧
        SignChanged clientAndItemHead ";".toList ([conditionText (orderReferences "client" "client" 0) "=".toList] ++
          conditionText (orderReferences "item" "item" 3) (showSign [] 3) :: []) v') ↔
      SignApplies (orderReferences "item" "item" 3) "=".toList
        (clientAndItemHead ++
          [conditionText (orderReferences "client" "client" 0) "=".toList].flatMap (· ++ andText))
        (([] : List Text).flatMap (andText ++ ·) ++ ";".toList) clientAndItem) ∧
    (clientAndItem.whereRelations = [conditionText (orderReferences "client" "client" 0) "=".toList] ++
        conditionText (orderReferences "item" "item" 3) "=".toList :: [] →
      ((∃ v', updateQueryFromSignChange 0 (orderReferences "item" "item" 3) 0 clientAndItem = .ok v' ∧
          SignChanged clientAndItemHead ";".toList ([conditionText (orderReferences "client" "client" 0) "=".toList] ++
            conditionText (orderReferences "item" "item" 3) (showSign [] 3) :: []) v' ∧
          v'.whereRelations = [conditionText (orderReferences "client" "client" 0) "=".toList] ++
            conditionText (orderReferences "item" "item" 3) (showSign [] 3) :: []) ↔
        SignApplies (orderReferences "item" "item" 3) "=".toList
          (clientAndItemHead ++
            [conditionText (orderReferences "client" "client" 0) "=".toList].flatMap (· ++ andText))
          (([] : List Text).flatMap (andText ++ ·) ++ ";".toList) clientAndItem ∧
          ∀ r ∈ ([] : List Text), r = conditionText (orderReferences "item" "item" 3) (showSign [] 3))) :=
  updateQueryFromSignChange_correct_iff 0 (by decide) (by decide) (by decide) (by decide) rfl (List.Perm.refl _)

/-- The second condition is asked for, and the search picks the first one. -/
theorem second_sign_not_changed :
    ¬ ∃ v', updateQueryFromSignChange 0 (orderReferences "item" "item" 3) 0 clientAndItem = .ok v' ∧
      SignChanged clientAndItemHead ";".toList ([conditionText (orderReferences "client" "client" 0) "=".toList] ++
        conditionText (orderReferences "item" "item" 3) (showSign [] 3) :: []) v' := by
  intro h
  have hop : "=".toList ∈ [newSign 0, showSign [] 0] := by decide
  have happlies := (updateQueryFromSignChange_iff 0 (by decide) (by decide) (by decide) hop rfl (List.Perm.refl _)).mp h
  have hpicked := happlies.picked
  have hfirst : picks (orderReferences "item" "item" 3) (conditionText (orderReferences "client" "client" 0) "=".toList) =
      true := picks_of_names (by decide) (by decide) (by decide) (by decide) _
  rw [clientAndItem, List.find?_cons_of_pos hfirst] at hpicked
  exact absurd (Option.some.inj hpicked) (by decide)

end DbHandler.QueryBuilder
