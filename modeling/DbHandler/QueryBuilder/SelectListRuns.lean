import DbHandler.Foundation.Runs
import DbHandler.QueryBuilder.SelectList

namespace DbHandler.QueryBuilder

open Foundation.Runs Foundation.Search
open Foundation.Sql (quotation)

inductive SelectEvent
  | addField (field : TableField)
  | removeField (field : TableField)
  /-- The menu item is toggled, and the handler sees this state of it. -/
  | toggleDistinct (isChecked : Bool)
  deriving DecidableEq, Repr

structure SelectView where
  doc : Document
  query : Text
  distinct : Bool
  deriving DecidableEq, Repr

/-- Only a present field is removed; `none` also where a `substr` throws. -/
def selectStep (w : SelectView) : SelectEvent → Option SelectView
  | .addField field => (addFieldToQuery field .add w.query w.doc).map fun r => ⟨r.1, r.2, w.distinct⟩
  | .removeField field =>
    if field ∈ w.doc.queryFields then
      (addFieldToQuery field .remove w.query w.doc).map fun r => ⟨r.1, r.2, w.distinct⟩
    else none
  | .toggleDistinct isChecked => some ⟨w.doc, onDistinct isChecked w.query, !w.distinct⟩

def White (t : Text) : Prop := ∀ c ∈ t, c.isWhitespace = true

inductive SelectList : List Text → Text → Prop
  | last {name before after : Text} (hbefore : White before) (hafter : White after) :
      SelectList [name] (before ++ (name ++ after))
  | cons {name before after rest : Text} {names : List Text} (hbefore : White before) (hafter : White after)
      (hrest : SelectList names rest) : SelectList (name :: names) (before ++ (name ++ (after ++ ',' :: rest)))

def shown (fields : List TableField) : List Text :=
  if fields = [] then [unknownFields] else fields.map (·.quoted)

def selectHead (distinct : Bool) : Text := if distinct then selectDistinct else select

def ShowsFields (tail : Text) (w : SelectView) : Prop :=
  ∃ list, w.query = selectHead w.distinct ++ (list ++ tail) ∧ SelectList (shown w.doc.queryFields) list

def FoundInPlace (w : SelectView) (field : TableField) : Prop :=
  ∀ list rest, w.query = selectHead w.distinct ++ (list ++ ',' :: ' ' :: (field.quoted ++ rest)) →
    SelectList ((w.doc.queryFields.takeWhile (· ≠ field)).map (·.quoted)) list →
    find field.quoted w.query = some ((selectHead w.distinct).length + list.length + 2)

def SelectEvent.Sound (tail : Text) (w : SelectView) : SelectEvent → Prop
  | .addField _ =>
      if w.doc.queryFields = [] then ¬ unknownFields <:+: tail
      else (∀ f ∈ w.doc.queryFields, ¬ "FROM".toList <:+: f.quoted) ∧
        ∀ temp, selectedText w.query = some temp → ¬ temp <:+: '\n' :: tail
  | .removeField field => w.doc.queryFields.count field = 1 ∧
      if w.doc.queryFields = [field] then ¬ field.quoted <:+: tail
      else if w.doc.queryFields.head? = some field then
        w.distinct = false ∧ ¬ ',' :: ' ' :: field.quoted <:+: w.query ∧
          ∀ place, find field.quoted w.query = some place →
            ¬ [' ', ' '] <+: w.query.drop (place + field.quoted.length)
      else FoundInPlace w field
  | .toggleDistinct isChecked => isChecked = w.distinct ∧ ¬ selectHead w.distinct <:+: tail ∧
      ∀ f ∈ w.doc.queryFields, ¬ selectHead w.distinct <:+: f.quoted

def blanks (n : ℕ) : Text := List.replicate n ' '

def items : List (Text × ℕ) → Text
  | [] => []
  | [item] => item.1 ++ blanks item.2
  | item :: next :: rest => item.1 ++ (blanks item.2 ++ ',' :: ' ' :: items (next :: rest))

def Built (tail : Text) (w : SelectView) : Prop :=
  ∃ lead l, l.map Prod.fst = shown w.doc.queryFields ∧
    w.query = selectHead w.distinct ++ (blanks lead ++ (items l ++ '\n' :: tail))

theorem white_blanks (n : ℕ) : White (blanks n) := by
  intro c hc
  rw [List.eq_of_mem_replicate hc]
  decide

theorem White.append {s t : Text} (hs : White s) (ht : White t) : White (s ++ t) :=
  fun c hc => (List.mem_append.mp hc).elim (hs c) (ht c)

theorem items_selectList {l : List (Text × ℕ)} (hl : l ≠ []) {before after : Text} (hbefore : White before)
    (hafter : White after) : SelectList (l.map Prod.fst) (before ++ (items l ++ after)) := by
  induction l generalizing before with
  | nil => exact absurd rfl hl
  | cons item l ih =>
    cases l with
    | nil =>
      have hlast : SelectList [item.1] (before ++ (item.1 ++ (blanks item.2 ++ after))) :=
        .last hbefore ((white_blanks item.2).append hafter)
      simpa [items] using hlast
    | cons next rest =>
      have hblank : White [' '] := by simp [White]
      have hrest := ih (by simp) hblank
      have hcons : SelectList (item.1 :: (next :: rest).map Prod.fst) (before ++ (item.1 ++ (blanks item.2 ++ ',' ::
          ([' '] ++ (items (next :: rest) ++ after))))) := .cons hbefore (white_blanks item.2) hrest
      simpa [items] using hcons

theorem shown_ne_nil (fields : List TableField) : shown fields ≠ [] := by
  by_cases h : fields = [] <;> simp [shown, h]

theorem Built.showsFields {tail : Text} {w : SelectView} (h : Built tail w) : ShowsFields tail w := by
  obtain ⟨lead, l, hl, hquery⟩ := h
  have hne : l ≠ [] := fun hnil => shown_ne_nil w.doc.queryFields (by rw [← hl, hnil]; rfl)
  refine ⟨blanks lead ++ (items l ++ ['\n']), by simp [hquery], ?_⟩
  rw [← hl]
  exact items_selectList hne (white_blanks lead) (by simp [White])

theorem blanks_add (m n : ℕ) : blanks (m + n) = blanks m ++ blanks n :=
  List.replicate_add m n ' '

theorem not_mem_blanks {c : Char} (hc : c ≠ ' ') (n : ℕ) : c ∉ blanks n :=
  fun h => hc (List.eq_of_mem_replicate h)

theorem items_append {l : List (Text × ℕ)} (hl : l ≠ []) (item : Text × ℕ) (rest : List (Text × ℕ)) :
    items (l ++ item :: rest) = items l ++ ',' :: ' ' :: items (item :: rest) := by
  induction l with
  | nil => exact absurd rfl hl
  | cons first l ih =>
    cases l with
    | nil => simp [items]
    | cons next l => simpa [items] using ih (by simp)

theorem items_cons (item : Text × ℕ) (rest : List (Text × ℕ)) :
    items (item :: rest) = item.1 ++ (blanks item.2 ++ if rest = [] then [] else ',' :: ' ' :: items rest) := by
  cases rest <;> simp [items]

def bump (g : ℕ) : List (Text × ℕ) → List (Text × ℕ)
  | [] => []
  | [item] => [(item.1, item.2 + g)]
  | item :: next :: rest => item :: bump g (next :: rest)

theorem map_fst_bump (g : ℕ) (l : List (Text × ℕ)) : (bump g l).map Prod.fst = l.map Prod.fst := by
  fun_induction bump g l with
  | case1 => rfl
  | case2 item => rfl
  | case3 item next rest ih => simp only [List.map_cons] at ih ⊢; rw [ih]

theorem bump_ne_nil {g : ℕ} {l : List (Text × ℕ)} (hl : l ≠ []) : bump g l ≠ [] := by
  have hmap := map_fst_bump g l
  contrapose! hl
  simpa [hl] using hmap.symm

theorem items_bump {g : ℕ} {l : List (Text × ℕ)} (hl : l ≠ []) : items (bump g l) = items l ++ blanks g := by
  fun_induction bump g l with
  | case1 => exact absurd rfl hl
  | case2 item => simp [items, blanks_add]
  | case3 item next rest ih =>
    obtain ⟨first, l, hbump⟩ := List.exists_cons_of_ne_nil (bump_ne_nil (g := g) (l := next :: rest) (by simp))
    have hrest := ih (by simp)
    rw [hbump] at hrest ⊢
    simp [items, hrest]

theorem avoids_items {h : Char} {t : Text} {l : List (Text × ℕ)} (hblank : h ≠ ' ') (hcomma : h ≠ ',')
    (hnames : ∀ item ∈ l, ∀ rest, Avoids (h :: t) item.1 rest) (rest : Text) : Avoids (h :: t) (items l) rest := by
  have hgap : ∀ n rest, Avoids (h :: t) (blanks n) rest := fun n rest => avoids_of_head (not_mem_blanks hblank n)
  fun_induction items l with
  | case1 => trivial
  | case2 item => exact avoids_append.mpr ⟨hnames item (by simp) _, hgap item.2 rest⟩
  | case3 item next others ih =>
    have hothers := ih fun item hitem => hnames item (List.mem_cons_of_mem _ hitem)
    have hseparator : Avoids (h :: t) [',', ' '] (items (next :: others) ++ rest) :=
      avoids_of_head (by simp [hblank, hcomma])
    refine avoids_append.mpr ⟨hnames item (by simp) _, avoids_append.mpr ⟨hgap item.2 _, ?_⟩⟩
    exact avoids_append (a := [',', ' ']).mpr ⟨hseparator, hothers⟩

theorem avoids_quoted {p : Text} {f : TableField} (hp : p ≠ []) (hquote : quotation ∉ p) (hf : ¬ p <:+: f.quoted)
    (rest : Text) : Avoids p f.quoted rest := by
  obtain ⟨h, t, rfl⟩ := List.exists_cons_of_ne_nil hp
  have hlast : Avoids (h :: t) [quotation] rest :=
    avoids_of_head fun hmem => hquote (by simp_all)
  rw [TableField.quoted] at hf ⊢
  refine avoids_append.mpr ⟨?_, hlast⟩
  exact avoids_of_stop hquote fun hpre => hf (hpre.trans (List.prefix_append _ _).isInfix)

theorem avoids_shown {h : Char} {t : Text} {fields : List TableField} (hunknown : h ∉ unknownFields)
    (hquote : quotation ∉ h :: t) (hfields : ∀ f ∈ fields, ¬ h :: t <:+: f.quoted) {name : Text}
    (hname : name ∈ shown fields) (rest : Text) : Avoids (h :: t) name rest := by
  by_cases hempty : fields = []
  · obtain rfl : name = unknownFields := by simpa [shown, hempty] using hname
    exact avoids_of_head hunknown
  · simp only [shown, hempty, if_false, List.mem_map] at hname
    obtain ⟨f, hf, rfl⟩ := hname
    exact avoids_quoted (by simp) hquote (hfields f hf) rest

section Steps

variable {tail : Text} {w w' : SelectView}

theorem avoids_rest {h : Char} {t : Text} {l : List (Text × ℕ)} {fields : List TableField} (hl : l.map Prod.fst = shown fields)
    (hblank : h ≠ ' ') (hcomma : h ≠ ',') (hunknown : h ∉ unknownFields) (hquote : quotation ∉ h :: t)
    (hfields : ∀ f ∈ fields, ¬ h :: t <:+: f.quoted) (lead : ℕ) (rest : Text) :
    Avoids (h :: t) (blanks lead ++ items l) rest := by
  refine avoids_append.mpr ⟨avoids_of_head (not_mem_blanks hblank lead), avoids_items hblank hcomma ?_ rest⟩
  intro item hitem
  exact avoids_shown hunknown hquote hfields (hl ▸ List.mem_map_of_mem hitem)

theorem replaceAll_head {l : List (Text × ℕ)} {fields : List TableField} (distinct : Bool) (lead : ℕ)
    (hl : l.map Prod.fst = shown fields) (htail : ¬ selectHead distinct <:+: tail)
    (hfields : ∀ f ∈ fields, ¬ selectHead distinct <:+: f.quoted) (r : Text) :
    replaceAll (selectHead distinct) r (selectHead distinct ++ (blanks lead ++ (items l ++ '\n' :: tail))) =
      r ++ (blanks lead ++ (items l ++ '\n' :: tail)) := by
  obtain ⟨t, ht⟩ : ∃ t, selectHead distinct = 'S' :: t := by
    cases distinct
    · exact ⟨"ELECT ".toList, rfl⟩
    · exact ⟨"ELECT DISTINCT ".toList, rfl⟩
  have hquote : quotation ∉ selectHead distinct := by cases distinct <;> decide
  rw [ht] at htail hfields hquote ⊢
  have hrest : Avoids ('S' :: t) (blanks lead ++ items l ++ '\n' :: tail) [] := by
    have hlist := avoids_rest hl (by decide) (by decide) (by decide) hquote hfields lead ('\n' :: tail ++ [])
    have hnewline : Avoids ('S' :: t) ['\n'] (tail ++ []) := avoids_of_head (by decide)
    have hall : Avoids ('S' :: t) tail [] := (avoids_all (by simp)).mpr htail
    exact avoids_append.mpr ⟨hlist, avoids_append (a := ['\n']).mpr ⟨hnewline, hall⟩⟩
  simpa using replaceAll_once (a := []) (by simp) trivial hrest r

theorem toggle_built {isChecked : Bool} (h : Built tail w) (hsound : (SelectEvent.toggleDistinct isChecked).Sound tail w)
    (hstep : selectStep w (.toggleDistinct isChecked) = some w') : Built tail w' := by
  obtain ⟨lead, l, hl, hquery⟩ := h
  obtain ⟨rfl, htail, hfields⟩ := hsound
  obtain rfl := Option.some.inj hstep
  refine ⟨lead, l, hl, ?_⟩
  have hhead := replaceAll_head w.distinct lead hl htail hfields (selectHead !w.distinct)
  rw [← hquery] at hhead
  cases hdistinct : w.distinct <;> simpa [onDistinct, hdistinct, selectHead] using hhead

theorem replaceAll_only {p : Text} {h : Char} (hp : p.head? = some h) (hblank : h ≠ ' ') (hnewline : h ≠ '\n')
    (distinct : Bool) (hhead : h ∉ selectHead distinct) (htail : ¬ p <:+: tail) (lead g : ℕ) (r : Text) :
    replaceAll p r (selectHead distinct ++ (blanks lead ++ (p ++ (blanks g ++ '\n' :: tail)))) =
      selectHead distinct ++ (blanks lead ++ (r ++ (blanks g ++ '\n' :: tail))) := by
  obtain ⟨t, rfl⟩ := List.head?_eq_some_iff.mp hp
  have hbefore : Avoids (h :: t) (selectHead distinct ++ blanks lead) (h :: t ++ (blanks g ++ '\n' :: tail)) := by
    apply avoids_of_head
    simp [hhead, not_mem_blanks hblank]
  have hafter : Avoids (h :: t) (blanks g ++ '\n' :: tail) [] := by
    have hgap : Avoids (h :: t) (blanks g ++ ['\n']) (tail ++ []) := by
      apply avoids_of_head
      simp [not_mem_blanks hblank, hnewline]
    simpa using avoids_append.mpr ⟨hgap, (avoids_all (by simp)).mpr htail⟩
  simpa using replaceAll_once (by simp) hbefore hafter r

theorem addFirst_built {field : TableField} (h : Built tail w) (hempty : w.doc.queryFields = [])
    (htail : ¬ unknownFields <:+: tail) (hstep : selectStep w (.addField field) = some w') : Built tail w' := by
  obtain ⟨lead, l, hl, hquery⟩ := h
  obtain ⟨g, rfl⟩ : ∃ g, l = [(unknownFields, g)] := by
    simp only [shown, hempty, if_true, List.map_eq_singleton_iff] at hl
    obtain ⟨⟨name, g⟩, rfl, rfl⟩ := hl
    exact ⟨g, rfl⟩
  have hhead : '<' ∉ selectHead w.distinct := by cases w.distinct <;> decide
  have hreplace := replaceAll_only (p := unknownFields) (by decide) (by decide) (by decide) w.distinct hhead htail lead g
    (field.quoted ++ [' '])
  simp only [items, List.append_assoc] at hquery
  rw [← hquery] at hreplace
  simp only [selectStep, addFieldToQuery, addRemoveField, hempty, List.nil_append, List.length_singleton, addToText,
    decide_true, if_true, Option.map_some, Option.some.injEq] at hstep
  subst hstep
  refine ⟨lead, [(field.quoted, g + 1)], by simp [shown], ?_⟩
  simp only [hreplace, items, blanks, List.replicate_succ]
  simp

def listPart (distinct : Bool) (lead : ℕ) (l : List (Text × ℕ)) : Text :=
  ' ' :: ((if distinct then "DISTINCT ".toList else []) ++ (blanks lead ++ items l))

theorem query_eq (distinct : Bool) (lead : ℕ) (l : List (Text × ℕ)) (rest : Text) :
    selectHead distinct ++ (blanks lead ++ (items l ++ rest)) = "SELECT".toList ++ (listPart distinct lead l ++ rest) := by
  cases distinct <;> simp only [listPart, List.append_assoc, List.cons_append] <;> rfl

theorem selectedText_eq {l : List (Text × ℕ)} {fields : List TableField} (distinct : Bool) (lead : ℕ)
    (hl : l.map Prod.fst = shown fields) (hfields : ∀ f ∈ fields, ¬ "FROM".toList <:+: f.quoted)
    (htail : "FROM".toList <+: tail) :
    selectedText ("SELECT".toList ++ (listPart distinct lead l ++ '\n' :: tail)) = some (listPart distinct lead l) := by
  have hblank : find [' '] ("SELECT".toList ++ (listPart distinct lead l ++ '\n' :: tail)) = some 6 := by
    refine find_at (avoids_of_head (by decide)) ?_
    simp only [listPart, List.cons_append, List.prefix_cons_inj, List.nil_prefix]
  have hfrom : find "FROM".toList (listPart distinct lead l ++ '\n' :: tail) =
      some ((listPart distinct lead l).length + 1) := by
    have hhead : Avoids "FROM".toList (' ' :: if distinct then "DISTINCT ".toList else [])
        (blanks lead ++ items l ++ '\n' :: tail) := by
      apply avoids_of_head
      cases distinct <;> decide
    have hlist : Avoids "FROM".toList (blanks lead ++ items l) ('\n' :: tail) :=
      avoids_rest hl (by decide) (by decide) (by decide) (by decide) hfields lead _
    have hnewline : Avoids "FROM".toList ['\n'] tail := avoids_of_head (by decide)
    have hall : Avoids "FROM".toList (listPart distinct lead l ++ ['\n']) tail :=
      avoids_append.mpr ⟨avoids_append.mpr ⟨hhead, hlist⟩, hnewline⟩
    have hfind := find_at hall htail
    rwa [List.append_assoc, List.length_append] at hfind
  have hdrop : ("SELECT".toList ++ (listPart distinct lead l ++ '\n' :: tail)).drop 6 =
      listPart distinct lead l ++ '\n' :: tail := rfl
  rw [selectedText, hblank]
  simp only [Option.map_some, hdrop, hfrom, List.take_left']

theorem addNext_built {field : TableField} (h : Built tail w) (hfields : w.doc.queryFields ≠ [])
    (htail : "FROM".toList <+: tail) (hnames : ∀ f ∈ w.doc.queryFields, ¬ "FROM".toList <:+: f.quoted)
    (htemp : ∀ temp, selectedText w.query = some temp → ¬ temp <:+: '\n' :: tail)
    (hstep : selectStep w (.addField field) = some w') : Built tail w' := by
  obtain ⟨lead, l, hl, hquery⟩ := h
  have hselected := selectedText_eq w.distinct lead hl hnames htail
  rw [query_eq] at hquery
  rw [hquery] at htemp
  have hpart : listPart w.distinct lead l ≠ [] := List.cons_ne_nil _ _
  have hreplace := replaceAll_once hpart (avoids_of_head (by decide))
    ((avoids_all hpart).mpr (htemp _ hselected)) (listPart w.distinct lead l ++ (',' :: ' ' :: field.quoted ++ [' ']))
    (a := "SELECT".toList)
  have hlength : (w.doc.queryFields ++ [field]).length ≠ 1 := by simpa using hfields
  simp only [selectStep, addFieldToQuery, addRemoveField, hlength, addToText, decide_false, Bool.false_eq_true, if_false,
    hquery, hselected, Option.map_some, hreplace, Option.some.injEq] at hstep
  subst hstep
  have hne : l ≠ [] := fun hnil => shown_ne_nil w.doc.queryFields (by rw [← hl, hnil]; rfl)
  refine ⟨lead, l ++ [(field.quoted, 1)], by simp [hl, shown, hfields], ?_⟩
  rw [query_eq]
  simp only [items_append hne, items, listPart, blanks, List.replicate_one, List.append_assoc, List.cons_append]

theorem removeField_cases {field : TableField} (hstep : selectStep w (.removeField field) = some w') :
    ∃ query, removeFromText field.quoted (w.doc.queryFields.filter (· ≠ field)).isEmpty w.query = some query ∧
      w' = ⟨addRemoveField field .remove w.doc, query, w.distinct⟩ := by
  simp only [selectStep, addFieldToQuery, Option.map_map] at hstep
  split at hstep
  · obtain ⟨query, hquery, rfl⟩ := Option.map_eq_some_iff.mp hstep
    exact ⟨query, hquery, rfl⟩
  · exact absurd hstep (by simp)

theorem substr_append (s t : Text) : substr (s ++ t) s.length = some t := by
  simp [substr]

theorem removeFromText_first {name before rest : Text} (hstr : ¬ ',' :: ' ' :: name <:+: before ++ (name ++ rest))
    (hname : find name (before ++ (name ++ rest)) = some before.length) :
    removeFromText name false (before ++ (name ++ rest)) = (substr rest 2).map (select ++ ·) := by
  have hnone : find (',' :: ' ' :: name) (before ++ (name ++ rest)) = none :=
    find_none (by simp) ((avoids_all (by simp)).mpr hstr)
  have hafter : substr (before ++ (name ++ rest)) (before.length + name.length) = some rest := by
    simpa using substr_append (before ++ name) rest
  simp [removeFromText, hnone, hname, hafter]

theorem removeFromText_next {name before rest : Text} (hbefore : Avoids name (before ++ [',', ' ']) (name ++ rest)) :
    removeFromText name false (before ++ ',' :: ' ' :: (name ++ rest)) = some (before ++ rest) := by
  have hstr : find (',' :: ' ' :: name) (before ++ ',' :: ' ' :: (name ++ rest)) = some before.length := by
    refine find_at ?_ ⟨rest, by simp⟩
    have hblank : Avoids (' ' :: name) (before ++ [',']) (' ' :: (name ++ rest)) := Avoids.cons (by simpa using hbefore) ' '
    exact hblank.cons ','
  have hname : find name (before ++ ',' :: ' ' :: (name ++ rest)) = some (before.length + 2) := by
    simpa using find_at hbefore (List.prefix_append name rest)
  have hafter : substr (before ++ ',' :: ' ' :: (name ++ rest)) (before.length + 2 + name.length) = some rest := by
    have hall := substr_append (before ++ ',' :: ' ' :: name) rest
    simp only [List.append_assoc, List.cons_append, List.length_append, List.length_cons] at hall
    rwa [show before.length + 2 + name.length = before.length + (name.length + 1 + 1) by omega]
  simp [removeFromText, hstr, hname, hafter]

theorem removeOnly_built {field : TableField} (h : Built tail w) (hfields : w.doc.queryFields = [field])
    (htail : ¬ field.quoted <:+: tail) (hstep : selectStep w (.removeField field) = some w') : Built tail w' := by
  obtain ⟨query, hremove, rfl⟩ := removeField_cases hstep
  obtain ⟨lead, l, hl, hquery⟩ := h
  obtain ⟨g, rfl⟩ : ∃ g, l = [(field.quoted, g)] := by
    simp only [shown, hfields, List.cons_ne_nil, if_false, List.map_cons, List.map_nil, List.map_eq_singleton_iff] at hl
    obtain ⟨⟨name, g⟩, rfl, rfl⟩ := hl
    exact ⟨g, rfl⟩
  have hhead : quotation ∉ selectHead w.distinct := by cases w.distinct <;> decide
  have hreplace := replaceAll_only (p := field.quoted) rfl (by decide) (by decide) w.distinct hhead htail lead g unknownFields
  simp only [items, List.append_assoc] at hquery
  have hempty : w.doc.queryFields.filter (· ≠ field) = [] := by simp [hfields]
  rw [← hquery] at hreplace
  simp only [hempty, List.isEmpty_nil, removeFromText, if_true, hreplace, Option.some.injEq] at hremove
  refine ⟨lead, [(unknownFields, g)], by simp only [addRemoveField, hempty, shown, if_true]; rfl, ?_⟩
  simp only [← hremove, items, List.append_assoc]

theorem filter_once {field : TableField} {before after : List TableField}
    (hcount : (before ++ field :: after).count field = 1) :
    (before ++ field :: after).filter (· ≠ field) = before ++ after := by
  have hzero : before.count field = 0 ∧ after.count field = 0 := by
    simp only [List.count_append, List.count_cons_self] at hcount
    omega
  obtain ⟨hbefore, hafter⟩ := hzero
  rw [List.count_eq_zero] at hbefore hafter
  have hkeep : ∀ fields : List TableField, field ∉ fields → fields.filter (· ≠ field) = fields := by
    intro fields hmem
    rw [List.filter_eq_self]
    intro f hf
    exact decide_eq_true fun heq => hmem (heq ▸ hf)
  rw [List.filter_append, List.filter_cons_of_neg (by simp), hkeep before hbefore, hkeep after hafter]

theorem removeFirst_built {field : TableField} {after : List TableField} (h : Built tail w)
    (hfields : w.doc.queryFields = field :: after) (hafter : after ≠ []) (hcount : w.doc.queryFields.count field = 1)
    (hdistinct : w.distinct = false) (hstr : ¬ ',' :: ' ' :: field.quoted <:+: w.query)
    (hgap : ∀ place, find field.quoted w.query = some place →
      ¬ [' ', ' '] <+: w.query.drop (place + field.quoted.length))
    (hstep : selectStep w (.removeField field) = some w') : Built tail w' := by
  obtain ⟨query, hremove, rfl⟩ := removeField_cases hstep
  obtain ⟨lead, l, hl, hquery⟩ := h
  obtain ⟨g, next, rest, rfl, hrest⟩ : ∃ g next rest, l = (field.quoted, g) :: next :: rest ∧
      (next :: rest).map Prod.fst = after.map (·.quoted) := by
    obtain ⟨second, others, rfl⟩ := List.exists_cons_of_ne_nil hafter
    simp only [shown, hfields, List.cons_ne_nil, if_false, List.map_cons, List.map_eq_cons_iff] at hl
    obtain ⟨⟨name, g⟩, -, rfl, rfl, next, rest, rfl, hname, hothers⟩ := hl
    exact ⟨g, next, rest, rfl, by simp [hname, hothers]⟩
  have hfilter : w.doc.queryFields.filter (· ≠ field) = after := by
    rw [hfields] at hcount ⊢
    have hnil : ([] ++ field :: after).count field = 1 := hcount
    exact filter_once hnil
  set follow := ',' :: ' ' :: (items (next :: rest) ++ '\n' :: tail) with hfollow
  have hquery : w.query = (select ++ blanks lead) ++ (field.quoted ++ (blanks g ++ follow)) := by
    rw [hquery, hdistinct, hfollow]
    simp [items, selectHead]
  have hname : find field.quoted w.query = some (select ++ blanks lead).length := by
    rw [hquery]
    refine find_at (avoids_of_head ?_) (List.prefix_append _ _)
    have hselect : quotation ∉ select := by decide
    have hlead : quotation ∉ blanks lead := not_mem_blanks (by decide) lead
    simp [hselect, hlead]
  have hblanks : ¬ [' ', ' '] <+: blanks g ++ follow := by
    have hdrop := hgap _ hname
    rwa [hquery, ← List.append_assoc _ field.quoted, ← List.length_append, List.drop_left] at hdrop
  rw [hquery] at hname hstr hremove
  rw [hfilter, List.isEmpty_eq_false_iff.mpr hafter, removeFromText_first hstr hname] at hremove
  have hshown : (next :: rest).map Prod.fst = shown (addRemoveField field .remove w.doc).queryFields := by
    simp only [addRemoveField, hfilter, shown, hafter, if_false, hrest]
  match g, hblanks with
  | 0, _ =>
    obtain rfl := Option.some.inj hremove
    exact ⟨0, next :: rest, hshown, by rw [hdistinct]; rfl⟩
  | 1, _ =>
    obtain rfl := Option.some.inj hremove
    exact ⟨1, next :: rest, hshown, by rw [hdistinct]; rfl⟩
  | g + 2, hblanks => exact absurd ⟨blanks g ++ follow, by simp [blanks, List.replicate_succ]⟩ hblanks

theorem removeLater_built {field : TableField} (h : Built tail w) (hmem : field ∈ w.doc.queryFields)
    (hhead : w.doc.queryFields.head? ≠ some field) (hcount : w.doc.queryFields.count field = 1)
    (hfound : FoundInPlace w field) (hstep : selectStep w (.removeField field) = some w') : Built tail w' := by
  obtain ⟨query, hremove, rfl⟩ := removeField_cases hstep
  obtain ⟨lead, l, hl, hquery⟩ := h
  obtain ⟨before, after, hfields, hnotin⟩ := List.eq_append_cons_of_mem hmem
  have hbefore : before ≠ [] := by
    rintro rfl
    exact hhead (by simp [hfields])
  have hfilter : w.doc.queryFields.filter (· ≠ field) = before ++ after := by
    rw [hfields] at hcount ⊢
    exact filter_once hcount
  obtain ⟨l₁, g, l₂, rfl, hl₁, hl₂⟩ : ∃ l₁ g l₂, l = l₁ ++ (field.quoted, g) :: l₂ ∧
      l₁.map Prod.fst = before.map (·.quoted) ∧ l₂.map Prod.fst = after.map (·.quoted) := by
    simp only [shown, hfields, List.append_eq_nil_iff, List.cons_ne_nil, and_false, if_false, List.map_append,
      List.map_cons, List.map_eq_append_iff, List.map_eq_cons_iff] at hl
    obtain ⟨l₁, -, rfl, hl₁, ⟨name, g⟩, l₂, rfl, rfl, hl₂⟩ := hl
    exact ⟨l₁, g, l₂, rfl, hl₁, hl₂⟩
  have hl₁ne : l₁ ≠ [] := by
    rintro rfl
    exact hbefore (by simpa using hl₁.symm)
  set follow := (if l₂ = [] then [] else ',' :: ' ' :: items l₂) ++ '\n' :: tail with hfollow
  have hquery : w.query = (selectHead w.distinct ++ (blanks lead ++ items l₁)) ++
      ',' :: ' ' :: (field.quoted ++ (blanks g ++ follow)) := by
    simp only [hquery, items_append hl₁ne, items_cons, hfollow, List.append_assoc, List.cons_append]
  have htakeWhile : w.doc.queryFields.takeWhile (· ≠ field) = before := by
    rw [hfields, List.takeWhile_append_of_pos]
    · simp
    · intro f hf
      exact decide_eq_true fun heq => hnotin (heq ▸ hf)
  have hlist : SelectList ((w.doc.queryFields.takeWhile (· ≠ field)).map (·.quoted)) (blanks lead ++ items l₁) := by
    rw [htakeWhile, ← hl₁]
    simpa using items_selectList hl₁ne (white_blanks lead) (by simp [White] : White [])
  have hname := hfound _ _ (by rw [hquery, List.append_assoc]) hlist
  have havoids : Avoids field.quoted (selectHead w.distinct ++ (blanks lead ++ items l₁) ++ [',', ' '])
      (field.quoted ++ (blanks g ++ follow)) := by
    apply avoids_of_find
    rw [hquery] at hname
    simpa [Nat.add_assoc] using hname
  have hempty : before ++ after ≠ [] := by simp [hbefore]
  rw [hfilter, List.isEmpty_eq_false_iff.mpr hempty, hquery, removeFromText_next havoids] at hremove
  obtain rfl := Option.some.inj hremove
  refine ⟨lead, bump g l₁ ++ l₂, ?_, ?_⟩
  · simp only [addRemoveField, hfilter, shown, hempty, if_false, List.map_append, map_fst_bump, hl₁, hl₂]
  · have hitems : items (bump g l₁ ++ l₂) = items l₁ ++ (blanks g ++ if l₂ = [] then [] else ',' :: ' ' :: items l₂) := by
      cases l₂ with
      | nil => simp [items_bump hl₁ne]
      | cons item l₂ => simp [items_append (bump_ne_nil hl₁ne), items_bump hl₁ne]
    simp only [hitems, hfollow, List.append_assoc]

theorem selectStep_built (e : SelectEvent) (htail : "FROM".toList <+: tail) (h : Built tail w) (hsound : e.Sound tail w)
    (hstep : selectStep w e = some w') : Built tail w' := by
  cases e with
  | addField field =>
    simp only [SelectEvent.Sound] at hsound
    split_ifs at hsound with hempty
    · exact addFirst_built h hempty hsound hstep
    · exact addNext_built h hempty htail hsound.1 hsound.2 hstep
  | removeField field =>
    obtain ⟨hcount, hsound⟩ := hsound
    have hmem : field ∈ w.doc.queryFields := List.count_pos_iff.mp (by omega)
    split_ifs at hsound with honly hfirst
    · exact removeOnly_built h honly hsound hstep
    · obtain ⟨after, hfields⟩ := List.head?_eq_some_iff.mp hfirst
      have hafter : after ≠ [] := by
        rintro rfl
        exact honly hfields
      exact removeFirst_built h hfields hafter hcount hsound.1 hsound.2.1 hsound.2.2 hstep
    · exact removeLater_built h hmem hfirst hcount hsound hstep
  | toggleDistinct isChecked => exact toggle_built h hsound hstep

end Steps

def generated (d : Document) (tail : Text) : SelectView :=
  ⟨{ d with queryFields := [] }, select ++ (unknownFields ++ '\n' :: tail), false⟩

theorem query_shows_fields (d : Document) (rest : Text) (es : List SelectEvent)
    (hsound : EachStep selectStep (fun w e _ => e.Sound ("FROM".toList ++ rest) w) (generated d ("FROM".toList ++ rest)) es) :
    Throughout selectStep (ShowsFields ("FROM".toList ++ rest)) (generated d ("FROM".toList ++ rest)) es := by
  set tail := "FROM".toList ++ rest with htail
  have hstart : Built tail (generated d tail) := ⟨0, [(unknownFields, 0)], rfl, rfl⟩
  have hbuilt : Throughout selectStep (Built tail) (generated d tail) es := by
    rw [throughout_iff]
    refine ⟨hstart, eachStep_of_condition (P := Built tail) (fun _ _ _ _ _ hq => hq) ?_ hstart es hsound⟩
    exact fun w e w' h hstep hs => selectStep_built e (List.prefix_append _ _) h hs hstep
  exact fun pre hpre w hw => (hbuilt pre hpre w hw).showsFields

def clientTail : Text := "FROM client;".toList

def noFields : Document := ⟨[], [], [], [], []⟩

def idField : TableField := ⟨"client".toList, "id".toList⟩

def nameField : TableField := ⟨"client".toList, "name".toList⟩

theorem two_fields_shown : Throughout selectStep (ShowsFields clientTail) (generated noFields clientTail)
    [.addField idField, .toggleDistinct false, .addField nameField] := by
  refine query_shows_fields noFields " client;".toList _ ?_
  rw [eachStep_cons]
  intro w hw
  obtain rfl := Option.some.inj hw
  refine ⟨by unfold SelectEvent.Sound; decide, ?_⟩
  rw [eachStep_cons]
  intro w hw
  obtain rfl := Option.some.inj hw
  refine ⟨by unfold SelectEvent.Sound; decide, ?_⟩
  rw [eachStep_cons]
  intro w hw
  refine ⟨⟨by decide, ?_⟩, eachStep_nil _ _⟩
  intro temp htemp
  obtain rfl : " DISTINCT \"client.id\" ".toList = temp := Option.some.inj htemp
  decide

def removedTwice : List SelectEvent :=
  [.addField idField, .removeField idField, .addField idField, .addField nameField, .removeField idField]

theorem comma_left_behind :
    ¬ Throughout selectStep (ShowsFields clientTail) (generated noFields clientTail) removedTwice := by
  intro h
  have hrun : run selectStep (generated noFields clientTail) removedTwice =
      some ⟨⟨[nameField], [], [], ["name".toList], []⟩, "SELECT , \"client.name\" \nFROM client;".toList, false⟩ := by
    decide
  obtain ⟨list, hquery, hlist⟩ := h removedTwice (List.prefix_refl _) _ hrun
  have hsame : select ++ (list ++ clientTail) = select ++ ", \"client.name\" \nFROM client;".toList := hquery.symm
  have hcomma := List.append_cancel_left hsame
  have hlist : SelectList [nameField.quoted] list := hlist
  cases hlist with
  | @last _ before after hbefore hafter =>
    cases before with
    | nil => exact absurd (List.head_eq_of_cons_eq hcomma) (by decide)
    | cons c before =>
      obtain rfl : c = ',' := List.head_eq_of_cons_eq hcomma
      exact absurd (hbefore ',' (by simp)) (by decide)
  | cons _ _ hrest => cases hrest

end DbHandler.QueryBuilder
