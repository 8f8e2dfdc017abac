import DbHandler.QueryBuilder.FieldShuffle

namespace DbHandler.QueryBuilder

open Foundation Foundation.Search
open Foundation.Sql (quotation)

/-- `substr( 0, rfind( c ) )`, which is all of the text where there is no `c`. -/
def beforeLast (c : Char) (t : Text) : Text :=
  if c ∈ t then ((t.reverse.dropWhile (· ≠ c)).tail).reverse else t

/-- The loop over the commas. `substr( 8, tablePos )` throws for a shorter text. -/
def sortLoop (tbl replacer stringToReplace : Text) : Option (Text × Text) :=
  match _h : find [','] stringToReplace with
  | none => some (replacer, stringToReplace)
  | some tablePos =>
    if 8 ≤ stringToReplace.length then
      let str := (stringToReplace.drop 8).take tablePos
      sortLoop tbl (if find tbl str = none then replacer ++ str else replacer) (stringToReplace.drop (tablePos + 1))
    else none
termination_by stringToReplace.length
decreasing_by
  have hlength := find_le _h
  simp only [List.length_singleton] at hlength
  rw [List.length_drop]
  omega

def removeTableSort (tbl query : Text) : Option Text :=
  match find "ORDER BY".toList query with
  | none => some query
  | some pos =>
    (sortLoop tbl orderBy (query.drop pos)).map fun r =>
      query.take pos ++ ((if find tbl r.2 = none then r.1 ++ r.2 else beforeLast ',' r.1) ++ [';'])

def sortText (fields : List TableField) : Text := orderBy ++ (joined (fields.map TableField.quoted) ++ [';'])

/-- The fields of the other tables are listed as before, white space apart, or there is no clause if there are none. -/
def SortRemoved (tbl head : Text) (fields : List TableField) (t : Text) : Prop :=
  if fields.filter (·.tableName ≠ tbl) = [] then
    ∃ stem gap gap', head = stem ++ gap ∧ White gap ∧ White gap' ∧ t = stem ++ (gap' ++ [';'])
  else
    ∃ list, t = head ++ (orderBy ++ (list ++ [';'])) ∧
      SelectList ((fields.filter (·.tableName ≠ tbl)).map TableField.quoted) list

section Cut

theorem beforeLast_append {c : Char} {b : Text} (h : c ∉ b) (a : Text) : beforeLast c (a ++ c :: b) = a := by
  have hreverse : (a ++ c :: b).reverse = b.reverse ++ c :: a.reverse := by simp
  rw [beforeLast, if_pos (by simp), hreverse, Separators.dropWhile_append (by simpa using h), List.tail_cons,
    List.reverse_reverse]

theorem beforeLast_of_not_mem {c : Char} {t : Text} (h : c ∉ t) : beforeLast c t = t := if_neg h

theorem joined_concat (init : List TableField) (last : TableField) :
    joined ((init ++ [last]).map TableField.quoted) =
      init.flatMap (fun field => field.quoted ++ fieldSeparator) ++ last.quoted := by
  rw [joined_eq, List.map_append, List.map_singleton, Separators.intercalate_split, List.flatMap_nil, List.append_nil,
    List.flatMap_map]

end Cut

/-- What a field in front of a comma is cut out with. -/
def pieces : Text → List TableField → List (Text × TableField)
  | _, [] => []
  | blank, field :: fields => (blank, field) :: pieces "  ".toList fields

def pieceText (piece : Text × TableField) : Text := piece.1 ++ (piece.2.quoted ++ ",\n      ".toList)

def keptPieces (tbl : Text) (ps : List (Text × TableField)) : List (Text × TableField) :=
  ps.filter fun piece => find tbl (pieceText piece) = none

theorem keptPieces_cons (tbl : Text) (piece : Text × TableField) (ps : List (Text × TableField)) :
    keptPieces tbl (piece :: ps) =
      if find tbl (pieceText piece) = none then piece :: keptPieces tbl ps else keptPieces tbl ps := by
  simp [keptPieces, List.filter_cons]

def indent : Text := "\n         ".toList

section Loop

theorem sortLoop_step {tbl lead name rest : Text} (hlead : ',' ∉ lead) (hlength : 8 ≤ lead.length) (hname : ',' ∉ name)
    (replacer : Text) :
    sortLoop tbl replacer (lead ++ (name ++ (fieldSeparator ++ rest))) =
      sortLoop tbl (if find tbl (lead.drop 8 ++ (name ++ ",\n      ".toList)) = none
        then replacer ++ (lead.drop 8 ++ (name ++ ",\n      ".toList)) else replacer) (indent ++ rest) := by
  have hfind : find [','] (lead ++ (name ++ (fieldSeparator ++ rest))) = some (lead.length + name.length) := by
    have havoids : Avoids [','] (lead ++ name) (fieldSeparator ++ rest) := avoids_of_head (by simp [hlead, hname])
    have hat := find_at havoids ⟨indent ++ rest, rfl⟩
    rwa [List.append_assoc, List.length_append] at hat
  have hstr : ((lead ++ (name ++ (fieldSeparator ++ rest))).drop 8).take (lead.length + name.length) =
      lead.drop 8 ++ (name ++ ",\n      ".toList) := by
    have hsplit : lead.drop 8 ++ (name ++ (fieldSeparator ++ rest)) =
        (lead.drop 8 ++ (name ++ ",\n      ".toList)) ++ ("   ".toList ++ rest) := by
      simp only [List.append_assoc]
      rfl
    rw [List.drop_append_of_le_length hlength, hsplit]
    apply List.take_left'
    simp only [List.length_append, List.length_drop]
    change lead.length - 8 + (name.length + 8) = _
    omega
  have hdrop : (lead ++ (name ++ (fieldSeparator ++ rest))).drop (lead.length + name.length + 1) = indent ++ rest := by
    have hsplit : lead ++ (name ++ (fieldSeparator ++ rest)) = (lead ++ (name ++ [','])) ++ (indent ++ rest) := by
      simp only [List.append_assoc]
      rfl
    rw [hsplit]
    apply List.drop_left'
    simp only [List.length_append, List.length_singleton]
    omega
  rw [sortLoop]
  split
  · next hnone => rw [hfind] at hnone; cases hnone
  · next tablePos hsome =>
    rw [hfind] at hsome
    obtain rfl := Option.some.inj hsome
    rw [if_pos (by simp only [List.length_append]; omega)]
    dsimp only
    rw [hstr, hdrop]

theorem sortLoop_end {tbl s : Text} (h : ',' ∉ s) (replacer : Text) : sortLoop tbl replacer s = some (replacer, s) := by
  have hfind : find [','] s = none := find_none (by simp) (avoids_of_head h)
  rw [sortLoop]
  split
  · rfl
  · next tablePos hsome => rw [hfind] at hsome; cases hsome

theorem sortLoop_eq (tbl : Text) {init : List TableField} {last : TableField}
    (hcomma : ∀ field ∈ init ++ [last], ',' ∉ field.quoted) {lead : Text} (hlead : ',' ∉ lead) (hlength : 8 ≤ lead.length)
    (replacer : Text) :
    sortLoop tbl replacer (lead ++ (init.flatMap (fun field => field.quoted ++ fieldSeparator) ++
        (last.quoted ++ [';']))) =
      some (replacer ++ (keptPieces tbl (pieces (lead.drop 8) init)).flatMap pieceText,
        (if init = [] then lead else indent) ++ (last.quoted ++ [';'])) := by
  induction init generalizing lead replacer with
  | nil =>
    have hlast := hcomma last (by simp)
    rw [List.flatMap_nil, List.nil_append, sortLoop_end (by simp [hlead, hlast])]
    simp [pieces, keptPieces]
  | cons field init ih =>
    obtain ⟨hfield, hrest⟩ := List.forall_mem_cons.mp hcomma
    have hindent : ',' ∉ indent := by decide
    rw [List.flatMap_cons]
    simp only [List.append_assoc]
    have hdrop : indent.drop 8 = "  ".toList := rfl
    rw [sortLoop_step hlead hlength hfield, ih hrest hindent (by decide), if_neg (List.cons_ne_nil _ _), pieces,
      keptPieces_cons, hdrop, ite_self]
    change some ((if find tbl (pieceText (lead.drop 8, field)) = none then replacer ++ pieceText (lead.drop 8, field)
      else replacer) ++ _, _) = _
    split_ifs
    · rw [List.flatMap_cons, List.append_assoc]
    · rfl

end Loop

section Lists

theorem pieces_snd (blank : Text) (fields : List TableField) : (pieces blank fields).map Prod.snd = fields := by
  induction fields generalizing blank with
  | nil => rfl
  | cons field fields ih => rw [pieces, List.map_cons, ih]

theorem white_pieces {blank : Text} (hblank : White blank) (fields : List TableField) :
    ∀ piece ∈ pieces blank fields, White piece.1 := by
  induction fields generalizing blank with
  | nil => exact fun piece hpiece => absurd hpiece List.not_mem_nil
  | cons field fields ih =>
    exact List.forall_mem_cons.mpr ⟨hblank, ih (List.all_eq_true.mp rfl)⟩

/-- The pieces in a row, without the end of the last one, list their fields. -/
theorem pieces_selectList {init : List (Text × TableField)} {last : Text × TableField}
    (hwhite : ∀ piece ∈ init ++ [last], White piece.1) {gap : Text} (hgap : White gap) :
    SelectList ((init ++ [last]).map fun piece => piece.2.quoted)
      (gap ++ (init.flatMap pieceText ++ (last.1 ++ last.2.quoted))) := by
  induction init generalizing gap with
  | nil =>
    have hbefore := hgap.append (hwhite last (by simp))
    have hlist : SelectList [last.2.quoted] ((gap ++ last.1) ++ (last.2.quoted ++ [])) :=
      .last hbefore (List.all_eq_true.mp rfl)
    simpa using hlist
  | cons piece init ih =>
    obtain ⟨hpiece, hrest⟩ := List.forall_mem_cons.mp hwhite
    have htail := ih hrest (List.all_eq_true.mp rfl : White "\n      ".toList)
    have hlist := @SelectList.cons piece.2.quoted (gap ++ piece.1) [] _ _ (hgap.append hpiece)
      (List.all_eq_true.mp rfl) htail
    simp only [List.append_assoc, List.nil_append] at hlist
    rw [List.flatMap_cons, pieceText]
    simp only [List.append_assoc]
    exact hlist

/-- Names without a comma are as many as the list has commas, and one. -/
theorem selectList_commas {names : List Text} (hnames : ∀ name ∈ names, ',' ∉ name) {list : Text}
    (h : SelectList names list) : list.count ',' + 1 = names.length := by
  have hcomma : ','.isWhitespace = false := rfl
  induction h with
  | @last name before after hbefore hafter =>
    have hname := List.count_eq_zero.mpr (hnames name (List.mem_singleton_self _))
    simp only [List.count_append, hname, hbefore.count hcomma, hafter.count hcomma, List.length_singleton]
  | @cons name before after rest names hbefore hafter hrest ih =>
    obtain ⟨hname, hothers⟩ := List.forall_mem_cons.mp hnames
    have hcount := List.count_eq_zero.mpr hname
    have hmore := ih hothers
    simp only [List.count_append, List.count_cons_self, hcount, hbefore.count hcomma, hafter.count hcomma,
      List.length_cons]
    omega

variable {tbl : Text}

theorem infix_pieceText {piece : Text × TableField} (h : piece.2.tableName = tbl) : tbl <:+: pieceText piece :=
  ⟨piece.1 ++ [quotation], '.' :: piece.2.fieldName ++ [quotation] ++ ",\n      ".toList, by
    rw [pieceText, TableField.quoted, h]; simp⟩

theorem find_none_iff (tbl t : Text) : find tbl t = none ↔ ¬ tbl <:+: t := by
  by_cases htbl : tbl = []
  · subst htbl
    exact iff_of_false (by rw [find_at_start List.nil_prefix]; simp) (by simp)
  · exact find_eq_none_iff htbl

def otherPieces (tbl : Text) (ps : List (Text × TableField)) : List (Text × TableField) :=
  ps.filter fun piece => piece.2.tableName ≠ tbl

theorem otherPieces_snd (tbl : Text) (ps : List (Text × TableField)) :
    (otherPieces tbl ps).map Prod.snd = (ps.map Prod.snd).filter (·.tableName ≠ tbl) := by
  rw [otherPieces, List.filter_map]
  rfl

/-- What is kept is of other tables. -/
theorem keptPieces_sublist (tbl : Text) (ps : List (Text × TableField)) :
    (keptPieces tbl ps).Sublist (otherPieces tbl ps) := by
  apply List.monotone_filter_right
  intro piece hpiece
  have habsent := (find_none_iff _ _).mp (of_decide_eq_true hpiece)
  exact decide_eq_true fun heq => habsent (infix_pieceText heq)

theorem keptPieces_eq_iff (tbl : Text) (ps : List (Text × TableField)) :
    keptPieces tbl ps = otherPieces tbl ps ↔
      ∀ piece ∈ ps, piece.2.tableName ≠ tbl → ¬ tbl <:+: pieceText piece := by
  constructor
  · intro h piece hpiece hne
    have hother : piece ∈ otherPieces tbl ps := List.mem_filter.mpr ⟨hpiece, decide_eq_true hne⟩
    rw [← h, keptPieces, List.mem_filter] at hother
    exact (find_none_iff _ _).mp (of_decide_eq_true hother.2)
  · intro h
    apply List.filter_congr
    intro piece hpiece
    rw [decide_eq_decide, find_none_iff]
    exact ⟨fun habsent heq => habsent (infix_pieceText heq), h piece hpiece⟩

end Lists

/-- The clause is the first of its keyword, and no name has a comma in it. -/
structure SortReadable (head : Text) (fields : List TableField) : Prop where
  first : Avoids "ORDER BY".toList head (sortText fields)
  names : ∀ field ∈ fields, ',' ∉ field.quoted

/-- The last field goes, another stays, and the table's name is not in what stays. -/
structure SortRemovable (tbl : Text) (init : List TableField) (last : TableField) : Prop where
  last : last.tableName = tbl
  stays : ∃ field ∈ init, field.tableName ≠ tbl
  absent : ∀ piece ∈ pieces " ".toList init, piece.2.tableName ≠ tbl → ¬ tbl <:+: pieceText piece

section Removal

variable {tbl head : Text} {init : List TableField} {last : TableField}

def sortRest (init : List TableField) (last : TableField) : Text :=
  (if init = [] then orderBy else indent) ++ (last.quoted ++ [';'])

theorem removeTableSort_eq (h : SortReadable head (init ++ [last])) (tbl : Text) :
    removeTableSort tbl (head ++ sortText (init ++ [last])) = some (head ++
      ((if find tbl (sortRest init last) = none
        then orderBy ++ (keptPieces tbl (pieces " ".toList init)).flatMap pieceText ++ sortRest init last
        else beforeLast ',' (orderBy ++ (keptPieces tbl (pieces " ".toList init)).flatMap pieceText)) ++ [';'])) := by
  have hfind := find_at h.first ⟨' ' :: (joined ((init ++ [last]).map TableField.quoted) ++ [';']), rfl⟩
  have hcomma : ',' ∉ orderBy := by decide
  have hloop := sortLoop_eq tbl h.names hcomma (by decide) orderBy
  have hblank : orderBy.drop 8 = " ".toList := rfl
  rw [hblank] at hloop
  rw [removeTableSort, hfind]
  dsimp only
  rw [List.drop_left, List.take_left, sortText, joined_concat, List.append_assoc, hloop]
  rfl

theorem orderBy_stays {s : Text} (hkept : (init ++ [last]).filter (·.tableName ≠ tbl) = []) :
    ¬ SortRemoved tbl head (init ++ [last]) (head ++ (orderBy ++ s)) := by
  rw [SortRemoved, if_pos hkept]
  rintro ⟨stem, gap, gap', rfl, hgap, hgap', h⟩
  have hcount := congrArg (List.countP (! ·.isWhitespace)) h
  have horder : orderBy.countP (! ·.isWhitespace) = 7 := by decide
  have hend : [';'].countP (! ·.isWhitespace) = 1 := by decide
  simp only [List.countP_append, hgap.countP, hgap'.countP, horder, hend] at hcount
  omega

theorem semicolon_stays {s : Text} :
    ¬ SortRemoved tbl head (init ++ [last]) (head ++ (orderBy ++ ((s ++ [';']) ++ [';']))) := by
  by_cases hkept : (init ++ [last]).filter (·.tableName ≠ tbl) = []
  · exact orderBy_stays hkept
  · rw [SortRemoved, if_neg hkept]
    rintro ⟨list, h, hlist⟩
    have hsame := List.append_cancel_left (List.append_cancel_left h)
    obtain rfl := List.append_cancel_right hsame
    have hquote := quotation_mem_of_suffix (quoted_ends _) rfl hlist
    exact absurd hquote (by decide)

theorem cut_selectList {ps : List (Text × TableField)} (hwhite : ∀ piece ∈ ps, White piece.1) (hps : ps ≠ []) :
    ∃ list, beforeLast ',' (orderBy ++ ps.flatMap pieceText) = orderBy ++ list ∧
      SelectList (ps.map fun piece => piece.2.quoted) list := by
  obtain ⟨others, piece, rfl⟩ := List.eq_nil_or_concat' ps |>.resolve_left hps
  refine ⟨others.flatMap pieceText ++ (piece.1 ++ piece.2.quoted), ?_, ?_⟩
  · have hsplit : orderBy ++ (others ++ [piece]).flatMap pieceText =
        (orderBy ++ (others.flatMap pieceText ++ (piece.1 ++ piece.2.quoted))) ++ ',' :: "\n      ".toList := by
      rw [List.flatMap_append, List.flatMap_singleton, pieceText]
      simp only [List.append_assoc]
      rfl
    rw [hsplit, beforeLast_append (by decide)]
  · exact pieces_selectList hwhite (List.all_eq_true.mp rfl : White [])

theorem removable_cut (h : SortRemovable tbl init last) : ¬ find tbl (sortRest init last) = none := by
  intro hnone
  apply (find_none_iff _ _).mp hnone
  refine ⟨(if init = [] then orderBy else indent) ++ [quotation], '.' :: last.fieldName ++ [quotation] ++ [';'], ?_⟩
  rw [sortRest, TableField.quoted, h.last]
  simp

theorem other_staying (h : SortRemovable tbl init last) :
    keptPieces tbl (pieces " ".toList init) = otherPieces tbl (pieces " ".toList init) ∧
      (init ++ [last]).filter (·.tableName ≠ tbl) = (otherPieces tbl (pieces " ".toList init)).map Prod.snd ∧
      (init ++ [last]).filter (·.tableName ≠ tbl) ≠ [] := by
  obtain ⟨field, hfield, hne⟩ := h.stays
  refine ⟨(keptPieces_eq_iff _ _).mpr h.absent, ?_, ?_⟩
  · rw [otherPieces_snd, pieces_snd, List.filter_append, List.filter_cons_of_neg (by simp [h.last]),
      List.filter_nil, List.append_nil]
  · apply List.ne_nil_of_mem (a := field)
    exact List.mem_filter.mpr ⟨List.mem_append_left _ hfield, decide_eq_true hne⟩

/-- As many names as there are pieces kept: the last field goes, and no other table's does. -/
theorem removable_of_length (hkept : keptPieces tbl (pieces " ".toList init) ≠ [])
    (h : (keptPieces tbl (pieces " ".toList init)).length = ((init ++ [last]).filter (·.tableName ≠ tbl)).length) :
    SortRemovable tbl init last := by
  have hsublist := keptPieces_sublist tbl (pieces " ".toList init)
  have hothers : (otherPieces tbl (pieces " ".toList init)).length = (init.filter (·.tableName ≠ tbl)).length := by
    rw [← List.length_map (f := Prod.snd), otherPieces_snd, pieces_snd]
  have hle := hsublist.length_le
  rw [List.filter_append, List.length_append] at h
  have hlast : ([last].filter (·.tableName ≠ tbl)).length = 0 := by omega
  obtain ⟨piece, hpiece⟩ := List.exists_mem_of_ne_nil _ hkept
  have hother := hsublist.subset hpiece
  rw [otherPieces, List.mem_filter] at hother
  refine ⟨?_, ⟨piece.2, ?_, of_decide_eq_true hother.2⟩, ?_⟩
  · by_contra hne
    simp [hne] at hlast
  · rw [← pieces_snd " ".toList init]
    exact List.mem_map_of_mem hother.1
  · exact (keptPieces_eq_iff _ _).mp (hsublist.eq_of_length_le (by omega))

/-- Nothing is kept: the keyword stays with an empty list. -/
theorem empty_clause_stays : ¬ SortRemoved tbl head (init ++ [last]) (head ++ (orderBy ++ [';'])) := by
  by_cases hother : (init ++ [last]).filter (·.tableName ≠ tbl) = []
  · exact orderBy_stays hother
  · rw [SortRemoved, if_neg hother]
    rintro ⟨list, heq, hlist⟩
    have hnil : [] = list := List.append_cancel_right
      (List.append_cancel_left (List.append_cancel_left heq) : [] ++ [';'] = list ++ [';'])
    obtain ⟨stem, after, hsplit, -⟩ := selectList_concat (quoted_ends _) hlist
    rw [← hnil] at hsplit
    simp at hsplit

theorem removed_cut_iff (hnames : ∀ field ∈ init ++ [last], ',' ∉ field.quoted)
    (hkept : keptPieces tbl (pieces " ".toList init) ≠ []) :
    SortRemoved tbl head (init ++ [last]) (head ++
        (beforeLast ',' (orderBy ++ (keptPieces tbl (pieces " ".toList init)).flatMap pieceText) ++ [';'])) ↔
      SortRemovable tbl init last := by
  have hmem : ∀ piece ∈ keptPieces tbl (pieces " ".toList init), piece ∈ pieces " ".toList init :=
    fun piece hpiece => List.mem_of_mem_filter hpiece
  have hwhite := white_pieces (List.all_eq_true.mp rfl : White " ".toList) init
  obtain ⟨list, hcut, hlist⟩ := cut_selectList (fun piece hpiece => hwhite piece (hmem piece hpiece)) hkept
  rw [hcut, List.append_assoc]
  constructor
  · intro hremoved
    by_cases hother : (init ++ [last]).filter (·.tableName ≠ tbl) = []
    · exact absurd hremoved (orderBy_stays hother)
    · rw [SortRemoved, if_neg hother] at hremoved
      obtain ⟨list', heq, hlist'⟩ := hremoved
      obtain rfl := List.append_cancel_right (List.append_cancel_left (List.append_cancel_left heq))
      apply removable_of_length hkept
      have hcount := selectList_commas (List.forall_mem_map.mpr fun piece hpiece => hnames piece.2 <| by
        apply List.mem_append_left
        rw [← pieces_snd " ".toList init]
        exact List.mem_map_of_mem (hmem piece hpiece)) hlist
      have hcount' := selectList_commas
        (List.forall_mem_map.mpr fun field hfield => hnames field (List.mem_of_mem_filter hfield)) hlist'
      rw [List.length_map] at hcount hcount'
      rw [← hcount, hcount']
  · intro hremovable
    obtain ⟨hsame, hfilter, hne⟩ := other_staying hremovable
    rw [SortRemoved, if_neg hne]
    refine ⟨list, rfl, ?_⟩
    rw [hfilter, ← hsame, List.map_map]
    exact hlist

/-- The fields of the other tables stay, and only they do, exactly if the cuts suit the list. -/
theorem removeTableSort_iff (h : SortReadable head (init ++ [last])) :
    (∃ t, removeTableSort tbl (head ++ sortText (init ++ [last])) = some t ∧
        SortRemoved tbl head (init ++ [last]) t) ↔ SortRemovable tbl init last := by
  rw [removeTableSort_eq h]
  simp only [Option.some.injEq, exists_eq_left']
  by_cases hrest : find tbl (sortRest init last) = none
  · -- the end of the clause is taken over with a second semicolon
    rw [if_pos hrest]
    refine iff_of_false ?_ fun hremovable => removable_cut hremovable hrest
    have hsplit (r : Text) : head ++ (orderBy ++ r ++ sortRest init last ++ [';']) =
        head ++ (orderBy ++ ((r ++ ((if init = [] then orderBy else indent) ++ last.quoted)) ++ [';'] ++ [';'])) := by
      rw [sortRest]
      simp only [List.append_assoc]
    rw [hsplit]
    exact semicolon_stays
  · rw [if_neg hrest]
    by_cases hkept : keptPieces tbl (pieces " ".toList init) = []
    · refine iff_of_false ?_ fun hremovable => ?_
      · rw [hkept, List.flatMap_nil, List.append_nil, beforeLast_of_not_mem (by decide)]
        exact empty_clause_stays
      · obtain ⟨hsame, hfilter, hne⟩ := other_staying hremovable
        rw [← hsame, hkept] at hfilter
        exact hne hfilter
    · exact removed_cut_iff h.names hkept

theorem removeTableSort_none {query : Text} (h : ¬ "ORDER BY".toList <:+: query) (tbl : Text) :
    removeTableSort tbl query = some query := by
  rw [removeTableSort, (find_none_iff _ _).mpr h]

theorem removeTableSort_correct_iff (h : SortReadable head (init ++ [last])) :
    ((∃ t, removeTableSort tbl (head ++ sortText (init ++ [last])) = some t ∧
        SortRemoved tbl head (init ++ [last]) t) ↔ SortRemovable tbl init last) ∧
      ∀ query, ¬ "ORDER BY".toList <:+: query → removeTableSort tbl query = some query :=
  ⟨removeTableSort_iff h, fun _ hquery => removeTableSort_none hquery tbl⟩

end Removal

def totalField : TableField := ⟨"orders".toList, "total".toList⟩

def clientAndOrders : Text := "SELECT *\nFROM client, orders".toList ++ ['\n']

theorem sortReadable_clientAndOrders {first last : TableField} (hfirst : ',' ∉ first.quoted) (hlast : ',' ∉ last.quoted) :
    SortReadable clientAndOrders ([first] ++ [last]) where
  first := avoids_append.mpr ⟨avoids_of_stop (by decide) (by decide +kernel), avoids_of_head (by decide)⟩
  names := by
    intro field hfield
    rcases List.mem_pair.mp hfield with rfl | rfl
    · exact hfirst
    · exact hlast

theorem last_field_removed_iff :
    ((∃ t, removeTableSort "orders".toList (clientAndOrders ++ sortText ([nameField] ++ [totalField])) = some t ∧
        SortRemoved "orders".toList clientAndOrders ([nameField] ++ [totalField]) t) ↔
      SortRemovable "orders".toList [nameField] totalField) ∧
      ∀ query, ¬ "ORDER BY".toList <:+: query → removeTableSort "orders".toList query = some query :=
  removeTableSort_correct_iff (sortReadable_clientAndOrders (by decide) (by decide))

/-- The last field stays, with a second semicolon behind it. -/
theorem first_field_not_removed :
    ¬ ∃ t, removeTableSort "client".toList (clientAndOrders ++ sortText ([nameField] ++ [totalField])) = some t ∧
      SortRemoved "client".toList clientAndOrders ([nameField] ++ [totalField]) t := by
  rw [removeTableSort_iff (sortReadable_clientAndOrders (by decide) (by decide))]
  exact fun h => absurd h.last (by decide)

end DbHandler.QueryBuilder
