import DbHandler.Foundation.Replacement
import DbHandler.QueryBuilder.SelectListRuns

namespace DbHandler.QueryBuilder

open Foundation.Search
open Foundation.Sql (quotation)

inductive Platform
  | msw
  | other
  deriving DecidableEq, Repr

def Platform.listEnd : Platform → Text
  | .msw => " \n\r".toList
  | .other => "\n".toList

def shuffledItems (platform : Platform) : List Text → Text
  | [] => []
  | [field] => field ++ platform.listEnd
  | field :: next :: rest => field ++ ',' :: ' ' :: shuffledItems platform (next :: rest)

/-- `Find`, with -1 where there is nothing. -/
def findInt (p t : Text) : ℤ := ((find p t).map Int.ofNat).getD (-1)

theorem findInt_of_find {p t : Text} {n : ℕ} (h : find p t = some n) : findInt p t = n := by
  rw [findInt, h]
  rfl

theorem findInt_of_none {p t : Text} (h : find p t = none) : findInt p t = -1 := by
  rw [findInt, h]
  rfl

/-- `substr( pos, length )`: a negative number is converted to a very large one. -/
def substrLength (t : Text) (pos length : ℤ) : Option Text :=
  if 0 ≤ pos ∧ pos ≤ t.length then
    some (if length < 0 then t.drop pos.toNat else (t.drop pos.toNat).take length.toNat)
  else none

/-- The document is not told of the new order. -/
def onFieldShuffle (platform : Platform) (fields : List Text) (w : SelectView) : Option SelectView :=
  (substrLength w.query (findInt [' '] w.query) (findInt "FROM".toList w.query - 6)).map fun temp =>
    { w with query := replaceAll temp (' ' :: shuffledItems platform fields) w.query }

/-- The document and the text have the announced order, and everything else of the text is as before. -/
structure Shuffled (tail : Text) (announced : List Text) (w w' : SelectView) : Prop where
  document : w'.doc.queryFields.map TableField.quoted = announced
  distinct : w'.distinct = w.distinct
  query : ∃ list, w'.query = selectHead w.distinct ++ (list ++ tail) ∧ SelectList announced list

theorem white_listEnd (platform : Platform) : White platform.listEnd := by
  cases platform <;> exact List.all_eq_true.mp rfl

theorem shuffledItems_selectList (platform : Platform) {fields : List Text} (h : fields ≠ []) (before : Text)
    (hbefore : White before) : SelectList fields (before ++ shuffledItems platform fields) := by
  induction fields generalizing before with
  | nil => exact absurd rfl h
  | cons field fields ih =>
    cases fields with
    | nil => exact .last hbefore (white_listEnd platform)
    | cons next rest =>
      have hrest : SelectList (next :: rest) ([' '] ++ shuffledItems platform (next :: rest)) :=
        ih (List.cons_ne_nil _ _) [' '] (List.all_eq_true.mp rfl)
      exact @SelectList.cons field before [] _ _ hbefore (List.all_eq_true.mp rfl) hrest

section Lists

theorem white_cons {c : Char} {t : Text} (h : White (c :: t)) : c.isWhitespace = true ∧ White t :=
  List.forall_mem_cons.mp h

/-- White space before something else is of one length. -/
theorem white_append_inj {a b s t : Text} {c d : Char} (ha : White a) (hb : White b) (hc : c.isWhitespace = false)
    (hd : d.isWhitespace = false) (h : a ++ c :: s = b ++ d :: t) : a = b ∧ c :: s = d :: t := by
  induction a generalizing b with
  | nil =>
    cases b with
    | nil => exact ⟨rfl, h⟩
    | cons e b =>
      obtain rfl : c = e := (List.cons.inj h).1
      exact absurd (white_cons hb).1 (by simp [hc])
  | cons e a ih =>
    cases b with
    | nil =>
      obtain rfl : e = d := (List.cons.inj h).1
      exact absurd (white_cons ha).1 (by simp [hd])
    | cons f b =>
      obtain ⟨rfl, hrest⟩ := List.cons.inj h
      obtain ⟨rfl, hsame⟩ := ih (white_cons ha).2 (white_cons hb).2 hrest
      exact ⟨rfl, hsame⟩

theorem quoted_cons (field : TableField) : ∃ inside, field.quoted = quotation :: inside := ⟨_, rfl⟩

theorem quoted_concat (field : TableField) : ∃ inside, field.quoted = inside ++ [quotation] := ⟨_, rfl⟩

/-- A list of names is read in one way only. -/
theorem selectList_inj {names : List Text} (hnames : ∀ name ∈ names, ∃ inside, name = quotation :: inside)
    {list list' s t : Text} {c : Char} (hc : c.isWhitespace = false) (h : SelectList names list)
    (h' : SelectList names list') (hsame : list ++ c :: s = list' ++ c :: t) : list = list' ∧ s = t := by
  have hquote : quotation.isWhitespace = false := rfl
  induction h generalizing list' with
  | @last name before after hbefore hafter =>
    obtain ⟨inside, rfl⟩ := hnames name (List.mem_singleton_self _)
    cases h' with
    | @last _ before' after' hbefore' hafter' =>
      simp only [List.append_assoc, List.cons_append] at hsame
      obtain ⟨rfl, hrest⟩ := white_append_inj hbefore hbefore' hquote hquote hsame
      have hafters := List.append_cancel_left (List.cons.inj hrest).2
      obtain ⟨rfl, hend⟩ := white_append_inj hafter hafter' hc hc hafters
      exact ⟨rfl, (List.cons.inj hend).2⟩
    | cons _ _ hrest => cases hrest
  | @cons name before after rest names hbefore hafter hrest ih =>
    obtain ⟨inside, rfl⟩ := hnames name (List.mem_cons_self ..)
    cases h' with
    | last => cases hrest
    | @cons _ before' after' rest' _ hbefore' hafter' hrest' =>
      simp only [List.append_assoc, List.cons_append] at hsame
      obtain ⟨rfl, hnamed⟩ := white_append_inj hbefore hbefore' hquote hquote hsame
      have hafters := List.append_cancel_left (List.cons.inj hnamed).2
      have hcomma : ','.isWhitespace = false := rfl
      obtain ⟨rfl, hrests⟩ := white_append_inj hafter hafter' hcomma hcomma hafters
      obtain ⟨rfl, hend⟩ := ih (fun name hname => hnames name (List.mem_cons_of_mem _ hname)) hrest'
        (List.cons.inj hrests).2
      exact ⟨rfl, hend⟩

/-- Behind its last name a list has white space only. -/
theorem selectList_concat {names : List Text} (hnames : ∀ name ∈ names, ∃ inside, name = inside ++ [quotation])
    {list : Text} (h : SelectList names list) : ∃ stem after, list = stem ++ quotation :: after ∧ White after := by
  induction h with
  | @last name before after hbefore hafter =>
    obtain ⟨inside, rfl⟩ := hnames name (List.mem_singleton_self _)
    exact ⟨before ++ inside, after, by simp, hafter⟩
  | @cons name before after rest names hbefore hafter hrest ih =>
    obtain ⟨stem, last, rfl, hlast⟩ := ih fun name hname => hnames name (List.mem_cons_of_mem _ hname)
    exact ⟨before ++ (name ++ (after ++ ',' :: stem)), last, by simp, hlast⟩

theorem White.count {t : Text} (h : White t) {c : Char} (hc : c.isWhitespace = false) : t.count c = 0 :=
  List.count_eq_zero.mpr fun hmem => absurd (h c hmem) (by simp [hc])

theorem White.countP {t : Text} (h : White t) : t.countP (! ·.isWhitespace) = 0 :=
  List.countP_eq_zero.mpr fun c hc => by simp [h c hc]

theorem selectList_count {names : List Text} {list list' : Text} (h : SelectList names list)
    (h' : SelectList names list') : list.count quotation = list'.count quotation := by
  have hquote : quotation.isWhitespace = false := rfl
  induction h generalizing list' with
  | @last name before after hbefore hafter =>
    cases h' with
    | @last _ before' after' hbefore' hafter' =>
      simp only [List.count_append, hbefore.count hquote, hafter.count hquote, hbefore'.count hquote,
        hafter'.count hquote]
    | cons _ _ hrest => cases hrest
  | @cons name before after rest names hbefore hafter hrest ih =>
    cases h' with
    | last => cases hrest
    | @cons _ before' after' rest' _ hbefore' hafter' hrest' =>
      simp only [List.count_append, List.count_cons, hbefore.count hquote, hafter.count hquote, hbefore'.count hquote,
        hafter'.count hquote, ih hrest']

/-- What begins inside a list, and not with white space, ends behind a quotation mark. -/
theorem quotation_mem_of_suffix {names : List Text} (hnames : ∀ name ∈ names, ∃ inside, name = inside ++ [quotation])
    {u v : Text} {c : Char} (hc : c.isWhitespace = false) (h : SelectList names (u ++ c :: v)) :
    quotation ∈ c :: v := by
  obtain ⟨stem, after, hsplit, hafter⟩ := selectList_concat hnames h
  by_contra hnone
  have hsuffix : c :: v <:+ after := by
    have hleft : c :: v <:+ stem ++ quotation :: after := ⟨u, hsplit⟩
    rcases List.suffix_or_suffix_of_suffix hleft (List.suffix_append stem (quotation :: after)) with hinside | houtside
    · rcases List.suffix_cons_iff.mp hinside with heq | hinside
      · exact absurd (heq ▸ List.mem_cons_self ..) hnone
      · exact hinside
    · exact absurd (houtside.subset (List.mem_cons_self ..)) hnone
  have hwhite := hafter c (hsuffix.subset (List.mem_cons_self ..))
  rw [hc] at hwhite
  exact absurd hwhite (by simp)

end Lists

section Shuffle

variable {w : SelectView} {list rest : Text}

/-- What is cut out: from the blank behind SELECT to the first FROM. -/
theorem onFieldShuffle_eq (platform : Platform) (announced : List Text) (body : Text)
    (hquery : w.query = "SELECT ".toList ++ (body ++ ("FROM".toList ++ rest))) :
    ∃ u v, body = u ++ v ∧ "FROM".toList <+: v ++ ("FROM".toList ++ rest) ∧
      Avoids "FROM".toList u (v ++ ("FROM".toList ++ rest)) ∧
      onFieldShuffle platform announced w = some { w with query := "SELECT".toList ++
        (' ' :: shuffledItems platform announced ++
          replaceAll (' ' :: u) (' ' :: shuffledItems platform announced) (v ++ ("FROM".toList ++ rest))) } := by
  obtain ⟨n, hn, hfind⟩ := find_append_prefix (a := body) (List.prefix_append "FROM".toList rest)
  obtain ⟨havoids, hpre⟩ := find_split hfind
  rw [List.take_append_of_le_length hn, List.drop_append_of_le_length hn] at havoids
  rw [List.drop_append_of_le_length hn] at hpre
  refine ⟨body.take n, body.drop n, (List.take_append_drop n body).symm, hpre, havoids, ?_⟩
  have hblank : find [' '] w.query = some 6 := by
    rw [hquery]
    exact find_at (a := "SELECT".toList) (avoids_of_head (by decide)) ⟨body ++ ("FROM".toList ++ rest), rfl⟩
  have hfrom : find "FROM".toList w.query = some (n + 7) := by
    have hhead : Avoids "FROM".toList "SELECT ".toList (body ++ ("FROM".toList ++ rest)) := avoids_of_head (by decide)
    rw [hquery, find_append hhead, hfind]
    rfl
  have hdrop : w.query.drop 6 = ' ' :: (body ++ ("FROM".toList ++ rest)) := by
    rw [hquery]
    rfl
  have hlength : 6 ≤ w.query.length := by
    have := congrArg List.length hdrop
    simp only [List.length_drop, List.length_cons] at this
    omega
  have htake : (w.query.drop 6).take (n + 1) = ' ' :: body.take n := by
    rw [hdrop, List.take_succ_cons, List.take_append_of_le_length hn]
  have hsubstr : substrLength w.query (findInt [' '] w.query) (findInt "FROM".toList w.query - 6) =
      some (' ' :: body.take n) := by
    have hcount : ((n + 7 : ℕ) : ℤ) - 6 = (n + 1 : ℕ) := by omega
    rw [findInt_of_find hblank, findInt_of_find hfrom, substrLength, if_pos ⟨by decide, Int.ofNat_le.mpr hlength⟩,
      hcount, if_neg (by omega), Int.toNat_natCast]
    exact congrArg some htake
  have hsplit : w.query = "SELECT".toList ++ (' ' :: body.take n ++ (body.drop n ++ ("FROM".toList ++ rest))) := by
    rw [hquery, ← List.append_assoc, List.cons_append, ← List.append_assoc (body.take n), List.take_append_drop]
    rfl
  rw [onFieldShuffle, hsubstr, Option.map_some, hsplit, replaceAll_append (avoids_of_head (by decide)),
    replaceAll_prefix (List.cons_ne_nil _ _)]

theorem quoted_starts (fields : List TableField) :
    ∀ name ∈ fields.map TableField.quoted, ∃ inside, name = quotation :: inside :=
  List.forall_mem_map.mpr fun field _ => quoted_cons field

theorem quoted_ends (fields : List TableField) :
    ∀ name ∈ fields.map TableField.quoted, ∃ inside, name = inside ++ [quotation] :=
  List.forall_mem_map.mpr fun field _ => quoted_concat field

/-- A replacement of the list by one with as many quotation marks leaves nothing of a longer rest. -/
theorem shuffle_cut {fields : List TableField} {u v : Text}
    (hlist : SelectList (fields.map TableField.quoted) (u ++ v))
    (hcut : "FROM".toList <+: v ++ ("FROM".toList ++ rest)) {items : Text}
    (hitems : SelectList (fields.map TableField.quoted) items)
    (h : replaceAll (' ' :: u) (' ' :: items) (v ++ ("FROM".toList ++ rest)) = "FROM".toList ++ rest) : v = [] := by
  by_contra hv
  obtain ⟨c, v, rfl⟩ := List.exists_cons_of_ne_nil hv
  obtain rfl : 'F' = c := (List.cons_prefix_cons.mp hcut).1
  have hquote := quotation_mem_of_suffix (quoted_ends fields) rfl hlist
  have hmore : (' ' :: u).count quotation ≤ (' ' :: items).count quotation := by
    have hcount := selectList_count hlist hitems
    rw [List.count_append] at hcount
    simp only [List.count_cons]
    omega
  have hle := le_replaceAll (m := List.count quotation) (fun _ _ => List.count_append) hmore
    ('F' :: v ++ ("FROM".toList ++ rest))
  rw [h, List.count_append] at hle
  have := List.count_pos_iff.mpr hquote
  omega

theorem shuffledItems_cons (platform : Platform) (field : Text) (fields : List Text) :
    ∃ more, shuffledItems platform (field :: fields) = field ++ more := by
  cases fields with
  | nil => exact ⟨_, rfl⟩
  | cons next rest => exact ⟨_, rfl⟩

theorem cut_at_end_iff {fields : List TableField} {u v : Text}
    (hlist : SelectList (fields.map TableField.quoted) (u ++ v))
    (hcut : "FROM".toList <+: v ++ ("FROM".toList ++ rest))
    (havoids : Avoids "FROM".toList u (v ++ ("FROM".toList ++ rest))) : v = [] ↔ ¬ "FROM".toList <:+: u ++ v := by
  constructor
  · rintro rfl
    rw [List.append_nil]
    exact havoids.not_infix (by decide)
  · intro hinfix
    by_contra hv
    obtain ⟨c, v, rfl⟩ := List.exists_cons_of_ne_nil hv
    obtain rfl : 'F' = c := (List.cons_prefix_cons.mp hcut).1
    have hquote := quotation_mem_of_suffix (quoted_ends fields) rfl hlist
    rcases List.prefix_or_prefix_of_prefix hcut (List.prefix_append _ _) with hlong | hshort
    · exact hinfix (hlong.isInfix.trans (List.suffix_append u _).isInfix)
    · exact absurd (hshort.subset hquote) (by decide)

/-- The blank behind SELECT begins the list: DISTINCT is cut out with it. -/
theorem distinct_lost (platform : Platform) {fields : List TableField} (hfields : fields ≠ []) {body : Text}
    (hquery : w.query = "SELECT ".toList ++ (body ++ ("FROM".toList ++ rest))) {w' : SelectView}
    (h : onFieldShuffle platform (fields.map TableField.quoted) w = some w') (t : Text) :
    w'.query ≠ selectHead true ++ t := by
  obtain ⟨u, v, -, -, -, heq⟩ := onFieldShuffle_eq platform (fields.map TableField.quoted) body hquery
  obtain ⟨field, others, rfl⟩ := List.exists_cons_of_ne_nil hfields
  obtain ⟨more, hmore⟩ := shuffledItems_cons platform field.quoted (others.map TableField.quoted)
  rw [← Option.some.inj (heq.symm.trans h), List.map_cons, hmore]
  intro hsame
  -- the character behind SELECT and the blank: a quotation mark or the D of DISTINCT
  have hcharacter : some quotation = some 'D' := congrArg (fun t : Text => t[7]?) hsame
  exact absurd hcharacter (by decide)

/-- The list of a right text is the new one, and what was behind the cut is left. -/
theorem rest_of_shuffled {fields : List TableField} {items list' u t : Text}
    (hitems : SelectList (fields.map TableField.quoted) items) (hlist : SelectList (fields.map TableField.quoted) list')
    (hcut : "FROM".toList <+: t)
    (h : "SELECT".toList ++ (' ' :: items ++ replaceAll (' ' :: u) (' ' :: items) t) =
      select ++ (list' ++ ("FROM".toList ++ rest))) :
    replaceAll (' ' :: u) (' ' :: items) t = "FROM".toList ++ rest := by
  obtain ⟨s, rfl⟩ := hcut
  have hkeep : Avoids (' ' :: u) ['F'] ("ROM".toList ++ s) := avoids_of_head (by decide)
  have hstep := replaceAll_append (r := ' ' :: items) hkeep
  have hfirst : replaceAll (' ' :: u) (' ' :: items) ("FROM".toList ++ s) =
      'F' :: replaceAll (' ' :: u) (' ' :: items) ("ROM".toList ++ s) := hstep
  have hbody : "SELECT".toList ++ _ = "SELECT".toList ++ _ := h
  have hsame := (List.cons.inj (List.append_cancel_left hbody)).2
  change items ++ _ = _ at hsame
  rw [hfirst] at hsame ⊢
  exact congrArg ('F' :: ·) (selectList_inj (quoted_starts fields) rfl hitems hlist hsame).2

/-- The text alone: DISTINCT is lost, FROM in a name cuts the list short, and the old list is replaced wherever
it occurs. -/
theorem shuffled_text_iff (platform : Platform) {fields : List TableField} (hfields : fields ≠ [])
    (hquery : w.query = selectHead w.distinct ++ (list ++ ("FROM".toList ++ rest)))
    (hlist : SelectList (fields.map TableField.quoted) list) :
    (∃ w', onFieldShuffle platform (fields.map TableField.quoted) w = some w' ∧
      ∃ list', w'.query = selectHead w.distinct ++ (list' ++ ("FROM".toList ++ rest)) ∧
        SelectList (fields.map TableField.quoted) list') ↔
      w.distinct = false ∧ ¬ "FROM".toList <:+: list ∧
        (list = shuffledItems platform (fields.map TableField.quoted) ∨ ¬ ' ' :: list <:+: "FROM".toList ++ rest) := by
  have hitems : SelectList (fields.map TableField.quoted) (shuffledItems platform (fields.map TableField.quoted)) :=
    shuffledItems_selectList platform (by simpa using hfields) [] (List.all_eq_true.mp rfl)
  cases hdistinct : w.distinct with
  | true =>
    rw [hdistinct] at hquery
    have hbody : w.query = "SELECT ".toList ++ (("DISTINCT ".toList ++ list) ++ ("FROM".toList ++ rest)) := hquery
    refine iff_of_false ?_ (by simp)
    rintro ⟨w', hw', list', hquery', -⟩
    exact distinct_lost platform hfields hbody hw' _ hquery'
  | false =>
    rw [hdistinct] at hquery
    obtain ⟨u, v, rfl, hcut, havoids, heq⟩ := onFieldShuffle_eq platform
      (fields.map TableField.quoted) list hquery
    rw [← cut_at_end_iff hlist hcut havoids]
    constructor
    · rintro ⟨w', hw', list', hquery', hlist'⟩
      rw [← Option.some.inj (heq.symm.trans hw')] at hquery'
      have hleft := rest_of_shuffled hitems hlist' hcut hquery'
      obtain rfl := shuffle_cut hlist hcut hitems hleft
      refine ⟨rfl, rfl, ?_⟩
      rw [List.nil_append, replaceAll_eq_self_iff (List.cons_ne_nil _ _)] at hleft
      rw [List.append_nil]
      exact hleft.imp_left fun hsame => (List.cons.inj hsame).2
    · rintro ⟨-, rfl, hkept⟩
      rw [List.append_nil] at hkept
      have hleft : replaceAll (' ' :: u) (' ' :: shuffledItems platform (fields.map TableField.quoted))
          ("FROM".toList ++ rest) = "FROM".toList ++ rest :=
        (replaceAll_eq_self_iff (List.cons_ne_nil _ _)).mpr (hkept.imp_left fun hsame => by rw [hsame])
      refine ⟨_, heq, _, ?_, hitems⟩
      rw [List.nil_append, hleft]
      rfl

/-- The fields are shuffled in the text and in the document exactly if nothing is to be shuffled and the text is
one that the cut suits. -/
theorem onFieldShuffle_iff (platform : Platform) (hfields : w.doc.queryFields ≠ [])
    (hquery : w.query = selectHead w.distinct ++ (list ++ ("FROM".toList ++ rest)))
    (hlist : SelectList (w.doc.queryFields.map TableField.quoted) list) (announced : List Text) :
    (∃ w', onFieldShuffle platform announced w = some w' ∧ Shuffled ("FROM".toList ++ rest) announced w w') ↔
      announced = w.doc.queryFields.map TableField.quoted ∧ w.distinct = false ∧ ¬ "FROM".toList <:+: list ∧
        (list = shuffledItems platform announced ∨ ¬ ' ' :: list <:+: "FROM".toList ++ rest) := by
  have hdoc : ∀ w', onFieldShuffle platform announced w = some w' → w'.doc = w.doc ∧ w'.distinct = w.distinct := by
    intro w' hw'
    obtain ⟨temp, -, rfl⟩ := Option.map_eq_some_iff.mp hw'
    exact ⟨rfl, rfl⟩
  constructor
  · rintro ⟨w', hw', hdocument, -, list', htext, hlist'⟩
    rw [(hdoc w' hw').1] at hdocument
    subst hdocument
    exact ⟨rfl, (shuffled_text_iff platform hfields hquery hlist).mp ⟨w', hw', list', htext, hlist'⟩⟩
  · rintro ⟨rfl, hcondition⟩
    obtain ⟨w', hw', htext⟩ := (shuffled_text_iff platform hfields hquery hlist).mpr hcondition
    refine ⟨w', hw', ?_, (hdoc w' hw').2, htext⟩
    rw [(hdoc w' hw').1]

end Shuffle

def fieldsInOrder : SelectView :=
  ⟨⟨[idField, nameField], [], [], [], []⟩, "SELECT \"client.id\", \"client.name\"\nFROM client;".toList, false⟩

theorem fieldsInOrder_list : SelectList (fieldsInOrder.doc.queryFields.map TableField.quoted)
    "\"client.id\", \"client.name\"\n".toList :=
  shuffledItems_selectList .other (by decide) [] (List.all_eq_true.mp rfl)

theorem onFieldShuffle_same :
    (∃ w', onFieldShuffle .other (fieldsInOrder.doc.queryFields.map TableField.quoted) fieldsInOrder = some w' ∧
      Shuffled ("FROM".toList ++ " client;".toList) (fieldsInOrder.doc.queryFields.map TableField.quoted) fieldsInOrder w') ↔
      fieldsInOrder.doc.queryFields.map TableField.quoted = fieldsInOrder.doc.queryFields.map TableField.quoted ∧
        fieldsInOrder.distinct = false ∧ ¬ "FROM".toList <:+: "\"client.id\", \"client.name\"\n".toList ∧
        ("\"client.id\", \"client.name\"\n".toList =
            shuffledItems .other (fieldsInOrder.doc.queryFields.map TableField.quoted) ∨
          ¬ ' ' :: "\"client.id\", \"client.name\"\n".toList <:+: "FROM".toList ++ " client;".toList) :=
  onFieldShuffle_iff .other (by decide) rfl fieldsInOrder_list _

/-- The text gets the new order, the document keeps the old one. -/
theorem swapped_not_shuffled :
    ¬ ∃ w', onFieldShuffle .other [nameField.quoted, idField.quoted] fieldsInOrder = some w' ∧
      Shuffled clientTail [nameField.quoted, idField.quoted] fieldsInOrder w' := by
  rintro ⟨w', hw', h⟩
  obtain rfl := Option.some.inj hw'
  exact absurd h.document (by decide)

end DbHandler.QueryBuilder
