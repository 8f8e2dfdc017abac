import DbHandler.Foundation.Runs
import DbHandler.Foundation.Sql.Tokens
import DbHandler.QueryBuilder.Clauses

namespace DbHandler.QueryBuilder

open Foundation.Runs Foundation.Search
open Foundation.Sql (quotation)

inductive ClausePage
  | sort
  | group
  deriving DecidableEq, Repr

def ClausePage.queryType : ClausePage → ℕ
  | sort => sortPage
  | group => groupByPage

def ClausePage.available (page : ClausePage) (d : Document) : List Text :=
  match page with
  | sort => d.sortedFieldsAll
  | group => d.groupByFieldsAll

def ClausePage.selected (page : ClausePage) (d : Document) : List Text :=
  match page with
  | sort => d.sortedFields
  | group => d.groupByFields

structure FieldEvent where
  page : ClausePage
  type : FieldChange
  fieldName : Text
  pos : Positions
  deriving DecidableEq, Repr

structure QueryView where
  doc : Document
  query : Text
  deriving DecidableEq, Repr

def FieldEvent.InRange (e : FieldEvent) (d : Document) : Prop :=
  match e.type with
  | .addField => e.fieldName ∈ e.page.available d ∧ e.pos.position ≤ (e.page.selected d).length
  | .removeField => e.fieldName ∈ e.page.selected d ∧ e.pos.originalPosition ≤ (e.page.available d).length
  | .changeField => e.fieldName ∈ e.page.selected d ∧ e.pos.position < (e.page.selected d).length

instance (e : FieldEvent) (d : Document) : Decidable (e.InRange d) := by
  unfold FieldEvent.InRange
  cases e.type <;> exact inferInstance

def clauseStep (w : QueryView) (e : FieldEvent) : Option QueryView :=
  if e.InRange w.doc then
    (sortGroupByHandling e.type e.fieldName e.page.queryType w.query e.pos w.doc).map fun r => ⟨r.1, r.2⟩
  else none

def clause (gap keyword : Text) (names : List Text) : Text :=
  if names = [] then [] else gap ++ (keyword ++ joined names)

def Apart (before gap : Text) : Prop :=
  (∀ c ∈ gap, c.isWhitespace = true) ∧ (gap = [] → before.getLast? = some quotation)

def HasClauses (fixed : Text) (w : QueryView) : Prop :=
  ∃ gap₁ gap₂, Apart fixed gap₁ ∧ Apart (fixed ++ clause gap₁ groupBy w.doc.groupByFields) gap₂ ∧
    w.query = fixed ++ (clause gap₁ groupBy w.doc.groupByFields ++ (clause gap₂ orderBy w.doc.sortedFields ++ [';']))

def Plain (t : Text) : Prop :=
  ¬ "GROUP BY".toList <:+: t ∧ ¬ "HAVING".toList <:+: t ∧ ¬ "ORDER BY".toList <:+: t ∧ ';' ∉ t

def FieldEvent.Sound (e : FieldEvent) (w : QueryView) : Prop :=
  match e.page, e.type with
  | .group, .addField => Plain e.fieldName ∧ (w.doc.sortedFields = [] ∨ w.doc.groupByFields ≠ [] ∧
      (joined (w.doc.groupByFields.insertIdx e.pos.position e.fieldName)).getLast? = some quotation)
  | .group, .removeField =>
    let fields := w.doc.groupByFields.filter (· ≠ e.fieldName)
    fields ≠ [] ∧ (w.doc.sortedFields = [] ∨ (joined fields).getLast? = some quotation)
  | .sort, .addField => Plain e.fieldName
  | .sort, .removeField =>
    w.doc.sortedFields.filter (· ≠ e.fieldName) = [] ∧
      ∀ start, findOrderBy w.query = some start → w.query[start - 1]? = some '\n'
  | _, .changeField => False

structure Keyword (k : Text) : Prop where
  head : ∃ h t, k = h :: t ∧ h ∉ fieldSeparator
  stops : ∀ c ∈ [',', '\n', ';', quotation], c ∉ k

theorem keyword_of_all {k : Text} (h : ∃ c t, k = c :: t ∧ c ∉ fieldSeparator)
    (hstops : [',', '\n', ';', quotation].all (fun c => decide (c ∉ k)) = true) : Keyword k where
  head := h
  stops c hc := of_decide_eq_true (List.all_eq_true.mp hstops c hc)

theorem keyword_groupBy : Keyword "GROUP BY".toList := keyword_of_all ⟨'G', _, rfl, by decide⟩ (by decide)

theorem keyword_having : Keyword "HAVING".toList := keyword_of_all ⟨'H', _, rfl, by decide⟩ (by decide)

theorem keyword_orderBy : Keyword "ORDER BY".toList := keyword_of_all ⟨'O', _, rfl, by decide⟩ (by decide)

theorem Keyword.ne_nil {k : Text} (h : Keyword k) : k ≠ [] := by
  obtain ⟨c, t, rfl, -⟩ := h.head
  simp

def Ends (k a rest : Text) : Prop := (∃ x rest', rest = x :: rest' ∧ x ∉ k) ∨ a.getLast? = some quotation

theorem Keyword.avoids_single {k : Text} (h : Keyword k) {c : Char} (hc : c ∉ k) (rest : Text) : Avoids k [c] rest := by
  obtain ⟨d, t, rfl, -⟩ := h.head
  exact avoids_of_head fun hd => hc (by simp [List.mem_singleton.mp hd])

theorem Keyword.avoids_of_ends {k a rest : Text} (h : Keyword k) (ha : ¬ k <:+: a) (hends : Ends k a rest) :
    Avoids k a rest := by
  rcases hends with ⟨x, rest', rfl, hx⟩ | hlast
  · exact avoids_of_stop hx ha
  · obtain ⟨b, rfl⟩ := List.getLast?_eq_some_iff.mp hlast
    have hq : quotation ∉ k := h.stops _ (by simp)
    refine avoids_append.mpr ⟨avoids_of_stop hq fun hb => ha ?_, h.avoids_single hq rest⟩
    exact hb.trans (List.prefix_append b [quotation]).isInfix

theorem joined_cons_cons (name next : Text) (names : List Text) :
    joined (name :: next :: names) = name ++ (fieldSeparator ++ joined (next :: names)) := by
  simp [joined]

theorem Ends.of_append {k a b rest : Text} (h : Ends k (a ++ b) rest) (ha : a.getLast? ≠ some quotation) :
    Ends k b rest := by
  rcases h with h | h
  · exact .inl h
  · refine .inr ?_
    rw [List.getLast?_append] at h
    cases hb : b.getLast? with
    | none => exact absurd (by simpa [hb] using h) ha
    | some c => simpa [hb] using h

theorem Keyword.avoids_joined {k rest : Text} (h : Keyword k) {names : List Text}
    (hnames : ∀ name ∈ names, ¬ k <:+: name) (hends : Ends k (joined names) rest) : Avoids k (joined names) rest := by
  induction names with
  | nil => exact avoids_nil k rest
  | cons name names ih =>
    cases names with
    | nil =>
      have hsingle : joined [name] = name := by simp [joined]
      rw [hsingle] at hends ⊢
      exact h.avoids_of_ends (hnames name (by simp)) hends
    | cons next names =>
      rw [joined_cons_cons] at hends ⊢
      rw [avoids_append, avoids_append]
      obtain ⟨c, t, rfl, hc⟩ := h.head
      refine ⟨avoids_of_stop (h.stops ',' (by simp)) (hnames name (by simp)), avoids_of_head hc, ?_⟩
      refine ih (fun n hn => hnames n (by simp [List.mem_cons.mp hn])) ?_
      rw [← List.append_assoc] at hends
      have hlast : fieldSeparator.getLast? = some ' ' := by decide
      refine hends.of_append ?_
      rw [List.getLast?_append, hlast, Option.some_or]
      decide

theorem Keyword.avoids_clause {k keyword gap rest : Text} (h : Keyword k) {names : List Text}
    (hkeyword : ∀ rest, Avoids k keyword rest) (hgap : ∀ c ∈ gap, c = '\n')
    (hnames : ∀ name ∈ names, ¬ k <:+: name) (hends : names ≠ [] → Ends k (joined names) rest) :
    Avoids k (clause gap keyword names) rest := by
  by_cases hempty : names = []
  · simp [clause, hempty]
  · rw [clause, if_neg hempty, avoids_append, avoids_append]
    refine ⟨?_, hkeyword _, h.avoids_joined hnames (hends hempty)⟩
    obtain ⟨c, t, rfl, hc⟩ := h.head
    refine avoids_of_head fun hmem => hc ?_
    rw [hgap c hmem]
    decide

/-- What the handler keeps of the texts: the gap before `ORDER BY` is lost when the other clause is edited. -/
structure Layout (fixed : Text) (g s : List Text) (gap : Text) : Prop where
  fixed : Plain fixed
  group : ∀ name ∈ g, Plain name
  sort : ∀ name ∈ s, Plain name
  gap : gap = ['\n'] ∨ gap = [] ∧ g ≠ [] ∧ (joined g).getLast? = some quotation

def groupPart (g : List Text) : Text := clause ['\n'] groupBy g

def orderPart (gap : Text) (s : List Text) : Text := clause gap orderBy s ++ [';']

def queryText (fixed gap : Text) (g s : List Text) : Text := fixed ++ (groupPart g ++ orderPart gap s)

section Layout

variable {fixed gap : Text} {g s : List Text}

theorem Layout.gap_newlines (h : Layout fixed g s gap) : ∀ c ∈ gap, c = '\n' := by
  rcases h.gap with rfl | ⟨rfl, -⟩ <;> simp

theorem Layout.ends {k : Text} (h : Layout fixed g s gap) (hk : Keyword k) :
    Ends k (joined g) (orderPart gap s) := by
  by_cases hs : s = []
  · exact .inl ⟨';', [], by simp [orderPart, clause, hs], hk.stops _ (by simp)⟩
  · rcases h.gap with rfl | ⟨rfl, -, hlast⟩
    · exact .inl ⟨'\n', _, by rw [orderPart, clause, if_neg hs]; rfl, hk.stops _ (by simp)⟩
    · exact .inr hlast

theorem Layout.tail_head (h : Layout fixed g s gap) :
    ∃ x rest, groupPart g ++ orderPart gap s = x :: rest ∧ x ∈ [',', '\n', ';', quotation] := by
  by_cases hg : g = []
  · by_cases hs : s = []
    · exact ⟨';', [], by simp [groupPart, orderPart, clause, hg, hs], by simp⟩
    · obtain rfl := h.gap.resolve_right fun hgap => hgap.2.1 hg
      exact ⟨'\n', _, by rw [groupPart, orderPart, clause, clause, if_pos hg, if_neg hs]; rfl, by simp⟩
  · exact ⟨'\n', _, by rw [groupPart, clause, if_neg hg]; rfl, by simp⟩

theorem Layout.avoids_fixed {k : Text} (h : Layout fixed g s gap) (hk : Keyword k) (hfixed : ¬ k <:+: fixed) :
    Avoids k fixed (groupPart g ++ orderPart gap s) := by
  obtain ⟨x, rest, htail, hx⟩ := h.tail_head
  rw [htail]
  exact avoids_of_stop (hk.stops x hx) hfixed

theorem Keyword.avoids_orderPart {k : Text} (hk : Keyword k) (hkeyword : ∀ rest, Avoids k orderBy rest)
    (hgap : ∀ c ∈ gap, c = '\n') (hnames : ∀ name ∈ s, ¬ k <:+: name) : Avoids k (orderPart gap s) [] := by
  rw [orderPart, avoids_append]
  refine ⟨hk.avoids_clause hkeyword hgap hnames fun _ => ?_, hk.avoids_single (hk.stops _ (by simp)) []⟩
  exact .inl ⟨';', [], rfl, hk.stops _ (by simp)⟩

theorem Layout.avoids_groupPart {k : Text} (h : Layout fixed g s gap) (hk : Keyword k)
    (hkeyword : ∀ rest, Avoids k groupBy rest) (hnames : ∀ name ∈ g, ¬ k <:+: name) :
    Avoids k (groupPart g) (orderPart gap s) :=
  hk.avoids_clause hkeyword (by simp) hnames fun _ => h.ends hk

theorem groupBy_avoids_orderBy (rest : Text) : Avoids "GROUP BY".toList orderBy rest :=
  avoids_of_head (t := "ROUP BY".toList) (by decide)

theorem having_avoids_orderBy (rest : Text) : Avoids "HAVING".toList orderBy rest :=
  avoids_of_head (t := "AVING".toList) (by decide)

theorem having_avoids_groupBy (rest : Text) : Avoids "HAVING".toList groupBy rest :=
  avoids_of_head (t := "AVING".toList) (by decide)

theorem orderBy_avoids_groupBy (rest : Text) : Avoids "ORDER BY".toList groupBy rest := by
  have hliteral : Avoids ['O', 'R', 'D', 'E', 'R', ' ', 'B', 'Y'] ['G', 'R', 'O', 'U', 'P', ' ', 'B', 'Y', ' '] rest := by
    simp [Avoids]
  exact hliteral

theorem Layout.findHaving (h : Layout fixed g s gap) : findHaving (queryText fixed gap g s) = none := by
  refine find_none (by decide) ?_
  rw [queryText, avoids_append, avoids_append, List.append_nil, List.append_nil]
  refine ⟨h.avoids_fixed keyword_having h.fixed.2.1, ?_, ?_⟩
  · exact h.avoids_groupPart keyword_having having_avoids_groupBy fun name hname => (h.group name hname).2.1
  · exact keyword_having.avoids_orderPart having_avoids_orderBy h.gap_newlines fun name hname => (h.sort name hname).2.1

theorem Layout.findGroupBy (h : Layout fixed g s gap) :
    findGroupBy (queryText fixed gap g s) = if g = [] then none else some (fixed.length + 1) := by
  have hfixed := h.avoids_fixed keyword_groupBy h.fixed.1
  have horder := keyword_groupBy.avoids_orderPart groupBy_avoids_orderBy h.gap_newlines fun name hname => (h.sort name hname).1
  by_cases hg : g = []
  · rw [if_pos hg]
    refine find_none (by decide) ?_
    rw [queryText, avoids_append, List.append_nil]
    refine ⟨hfixed, ?_⟩
    simpa [groupPart, clause, hg] using horder
  · have hpart : groupPart g ++ orderPart gap s = ['\n'] ++ (groupBy ++ (joined g ++ orderPart gap s)) := by
      simp [groupPart, clause, hg]
    rw [if_neg hg, queryText, hpart, ← List.append_assoc]
    have hprefix : "GROUP BY".toList <+: groupBy ++ (joined g ++ orderPart gap s) := ⟨' ' :: (joined g ++ orderPart gap s), rfl⟩
    have hplace := find_at (a := fixed ++ ['\n']) ?_ hprefix
    · rw [QueryBuilder.findGroupBy, hplace, List.length_append]
      rfl
    · rw [avoids_append]
      exact ⟨by simpa [hpart] using hfixed, keyword_groupBy.avoids_single (by decide) _⟩

theorem Layout.avoids_before_orderBy (h : Layout fixed g s gap) (hs : s ≠ []) :
    Avoids "ORDER BY".toList (fixed ++ (groupPart g ++ gap)) (orderBy ++ (joined s ++ [';'])) := by
  have hfixed := h.avoids_fixed keyword_orderBy h.fixed.2.2.1
  have hgroup := h.avoids_groupPart keyword_orderBy orderBy_avoids_groupBy fun name hname => (h.group name hname).2.2.1
  have hpart : orderPart gap s = gap ++ (orderBy ++ (joined s ++ [';'])) := by simp [orderPart, clause, hs]
  rw [avoids_append, avoids_append]
  refine ⟨by simpa [hpart] using hfixed, by simpa [hpart] using hgroup, ?_⟩
  rcases h.gap with rfl | ⟨rfl, -⟩
  · exact keyword_orderBy.avoids_single (by decide) _
  · exact avoids_nil _ _

theorem Layout.findOrderBy (h : Layout fixed g s gap) :
    findOrderBy (queryText fixed gap g s) =
      if s = [] then none else some (fixed ++ (groupPart g ++ gap)).length := by
  by_cases hs : s = []
  · rw [if_pos hs]
    refine find_none (by decide) ?_
    rw [queryText, avoids_append, avoids_append, List.append_nil, List.append_nil]
    refine ⟨h.avoids_fixed keyword_orderBy h.fixed.2.2.1, ?_, ?_⟩
    · exact h.avoids_groupPart keyword_orderBy orderBy_avoids_groupBy fun name hname => (h.group name hname).2.2.1
    · rw [orderPart, clause, if_pos hs]
      exact keyword_orderBy.avoids_single (by decide) []
  · have htext : queryText fixed gap g s = (fixed ++ (groupPart g ++ gap)) ++ (orderBy ++ (joined s ++ [';'])) := by
      simp [queryText, orderPart, clause, hs]
    rw [if_neg hs, htext]
    exact find_at (h.avoids_before_orderBy hs) ⟨' ' :: (joined s ++ [';']), rfl⟩

theorem Layout.ne_nil (fixed gap : Text) (g s : List Text) : queryText fixed gap g s ≠ [] := by
  simp [queryText, orderPart]

theorem lastIndex_queryText (fixed gap : Text) (g s : List Text) :
    lastIndex (queryText fixed gap g s) = some (fixed ++ (groupPart g ++ clause gap orderBy s)).length := by
  rw [lastIndex, if_neg (Layout.ne_nil fixed gap g s)]
  simp only [queryText, orderPart, List.length_append, List.length_singleton, Option.some.injEq]
  omega

theorem located_of_locate {queryType : ℕ} {query a b c : Text}
    (hplace : locate queryType query = (some a.length, some (a ++ b).length)) (hquery : query = a ++ (b ++ c)) :
    located queryType query = some b := by
  have hle : ¬ (a ++ b).length < a.length := by simp
  simp only [located, hplace, hle, if_false]
  simp [hquery]

theorem Layout.located_group (h : Layout fixed g s gap) (hg : g ≠ []) :
    located groupByPage (queryText fixed gap g s) =
      some (groupBy ++ (joined g ++ if s = [] then [] else gap)) := by
  have hstart := h.findGroupBy
  have hstop := h.findOrderBy
  have hlast := lastIndex_queryText fixed gap g s
  rw [if_neg hg] at hstart
  by_cases hs : s = []
  · subst hs
    rw [if_pos rfl] at hstop ⊢
    refine located_of_locate (a := fixed ++ ['\n']) (c := [';']) ?_ ?_
    · simp [locate, hstart, hstop, hlast, h.findHaving, groupPart, clause, hg]
    · simp [queryText, groupPart, orderPart, clause, hg]
  · rw [if_neg hs] at hstop ⊢
    refine located_of_locate (a := fixed ++ ['\n']) (c := orderBy ++ (joined s ++ [';'])) ?_ ?_
    · simp [locate, hstart, hstop, h.findHaving, groupPart, clause, hg]
    · simp [queryText, groupPart, orderPart, clause, hs, hg]

theorem Layout.located_semicolon_group (h : Layout fixed [] [] gap) :
    located groupByPage (queryText fixed gap [] []) = some [';'] := by
  refine located_of_locate (a := fixed) (c := []) ?_ (by simp [queryText, groupPart, orderPart, clause])
  simp [locate, h.findGroupBy, h.findOrderBy, h.findHaving, lastIndex_queryText, groupPart, clause]

theorem Layout.located_semicolon_sort (h : Layout fixed g [] gap) :
    located sortPage (queryText fixed gap g []) = some [';'] := by
  refine located_of_locate (a := fixed ++ groupPart g) (c := []) ?_ (by simp [queryText, orderPart, clause])
  simp [locate, h.findOrderBy, lastIndex_queryText, clause, sortPage, groupByPage, Nat.add_assoc]

theorem Layout.located_sort (h : Layout fixed g s gap) (hs : s ≠ []) :
    located sortPage (queryText fixed gap g s) = some (orderBy ++ joined s) := by
  have hpage : sortPage ≠ groupByPage := by decide
  have hstart := h.findOrderBy
  rw [if_neg hs] at hstart
  refine located_of_locate (a := fixed ++ (groupPart g ++ gap)) (c := [';']) ?_ ?_
  · simp [locate, hpage, hstart, lastIndex_queryText, clause, hs]
  · simp [queryText, orderPart, clause, hs]

theorem Layout.replaceAll_group (h : Layout fixed g s gap) (hg : g ≠ []) (r : Text) :
    replaceAll (groupBy ++ (joined g ++ if s = [] then [] else gap)) r (queryText fixed gap g s) =
      fixed ++ ('\n' :: (r ++ orderPart [] s)) := by
  have hkeyword : "GROUP BY".toList <+: groupBy ++ (joined g ++ if s = [] then [] else gap) := ⟨_, rfl⟩
  have htail : groupPart g ++ orderPart gap s =
      '\n' :: ((groupBy ++ (joined g ++ if s = [] then [] else gap)) ++ orderPart [] s) := by
    by_cases hs : s = [] <;> simp [groupPart, orderPart, clause, hg, hs]
  have hbefore : Avoids "GROUP BY".toList (fixed ++ ['\n'])
      ((groupBy ++ (joined g ++ if s = [] then [] else gap)) ++ orderPart [] s) := by
    rw [avoids_append]
    refine ⟨?_, keyword_groupBy.avoids_single (by decide) _⟩
    have hfixed := h.avoids_fixed keyword_groupBy h.fixed.1
    rwa [htail] at hfixed
  have hafter : Avoids "GROUP BY".toList (orderPart [] s) [] :=
    keyword_groupBy.avoids_orderPart groupBy_avoids_orderBy (by simp) fun name hname => (h.sort name hname).1
  have honce := replaceAll_once (List.append_ne_nil_of_left_ne_nil (by decide) _) (hbefore.of_prefix hkeyword)
    (hafter.of_prefix hkeyword) r
  rw [queryText, htail]
  simpa using honce

theorem not_mem_joined {c : Char} (hc : c ∉ fieldSeparator) {names : List Text} (hnames : ∀ name ∈ names, c ∉ name) :
    c ∉ joined names := by
  cases names with
  | nil => simp [joined]
  | cons name names =>
    simp only [joined, List.mem_append, List.mem_flatMap, not_or, not_exists, not_and]
    exact ⟨hnames name (by simp), fun next hnext => ⟨hc, hnames next (by simp [hnext])⟩⟩

theorem Layout.replaceAll_semicolon (h : Layout fixed g [] gap) (r : Text) :
    replaceAll [';'] r (queryText fixed gap g []) = fixed ++ (groupPart g ++ r) := by
  have hgroup : ';' ∉ groupPart g := by
    by_cases hg : g = []
    · simp [groupPart, clause, hg]
    · have hjoined := not_mem_joined (c := ';') (by decide) fun name hname => (h.group name hname).2.2.2
      have hkeyword : ';' ∉ groupBy := by decide
      simp [groupPart, clause, hg, hjoined, hkeyword]
  have hbefore : Avoids [';'] (fixed ++ groupPart g) ([';'] ++ []) :=
    avoids_of_head fun hmem => (List.mem_append.mp hmem).elim h.fixed.2.2.2 hgroup
  have honce := replaceAll_once (by simp) hbefore (avoids_nil _ _) r
  simpa [queryText, orderPart, clause] using honce

theorem Layout.replaceAll_sort (h : Layout fixed g s gap) (hs : s ≠ []) (r : Text) :
    replaceAll (orderBy ++ joined s) r (queryText fixed gap g s) = fixed ++ (groupPart g ++ (gap ++ (r ++ [';']))) := by
  have hkeyword : "ORDER BY".toList <+: orderBy ++ joined s := ⟨_, rfl⟩
  have hbefore := h.avoids_before_orderBy hs
  rw [← List.append_assoc orderBy] at hbefore
  have hafter : Avoids "ORDER BY".toList [';'] [] := keyword_orderBy.avoids_single (by decide) []
  have honce := replaceAll_once (List.append_ne_nil_of_left_ne_nil (by decide) _) (hbefore.of_prefix hkeyword)
    (hafter.of_prefix hkeyword) r
  simpa [queryText, orderPart, clause, hs] using honce

theorem Layout.replaceAll_sort_newline (h : Layout fixed g s ['\n']) (hs : s ≠ []) :
    replaceAll ('\n' :: (orderBy ++ joined s)) [] (queryText fixed ['\n'] g s) = fixed ++ (groupPart g ++ [';']) := by
  have hkeyword : '\n' :: "ORDER BY".toList <+: '\n' :: (orderBy ++ joined s) := ⟨_, rfl⟩
  have hbefore : Avoids ('\n' :: "ORDER BY".toList) (fixed ++ groupPart g)
      ('\n' :: (orderBy ++ joined s) ++ [';']) := by
    have hplace := h.avoids_before_orderBy hs
    rw [← List.append_assoc fixed, ← List.append_assoc orderBy] at hplace
    exact hplace.cons '\n'
  have hafter : Avoids ('\n' :: "ORDER BY".toList) [';'] [] := avoids_of_head (by decide)
  have honce := replaceAll_once (by simp) (hbefore.of_prefix hkeyword) (hafter.of_prefix hkeyword) []
  simpa [queryText, orderPart, clause, hs] using honce

end Layout

def Laid (fixed : Text) (w : QueryView) : Prop :=
  ∃ gap, Layout fixed w.doc.groupByFields w.doc.sortedFields gap ∧
    w.query = queryText fixed gap w.doc.groupByFields w.doc.sortedFields

theorem Laid.hasClauses {fixed : Text} {w : QueryView} (h : Laid fixed w) : HasClauses fixed w := by
  obtain ⟨gap, hlayout, hquery⟩ := h
  refine ⟨['\n'], gap, ⟨by simp, by simp⟩, ⟨fun c hc => ?_, fun hgap => ?_⟩, hquery⟩
  · rw [hlayout.gap_newlines c hc]
    decide
  · rcases hlayout.gap with hnewline | ⟨-, hg, hlast⟩
    · simp [hgap] at hnewline
    · rw [clause, if_neg hg, ← List.append_assoc, ← List.append_assoc, List.getLast?_append, hlast]
      rfl

theorem queryText_group {fixed : Text} {g s : List Text} (hg : g ≠ []) :
    fixed ++ ('\n' :: (groupBy ++ joined g ++ orderPart [] s)) =
      queryText fixed (if s = [] then ['\n'] else []) g s := by
  by_cases hs : s = [] <;> simp [queryText, groupPart, orderPart, clause, hg, hs]

theorem Layout.of_group {fixed gap : Text} {g g' s : List Text} (h : Layout fixed g s gap)
    (hnames : ∀ name ∈ g', Plain name) (hg' : g' ≠ [])
    (hlast : s = [] ∨ (joined g').getLast? = some quotation) :
    Layout fixed g' s (if s = [] then ['\n'] else []) := by
  refine ⟨h.fixed, hnames, h.sort, ?_⟩
  by_cases hs : s = []
  · exact .inl (if_pos hs)
  · exact .inr ⟨if_neg hs, hg', hlast.resolve_left hs⟩

theorem Layout.gap_of_newline {fixed gap : Text} {g s : List Text} (h : Layout fixed g s gap) (hs : s ≠ [])
    (hnewline : ∀ start, QueryBuilder.findOrderBy (queryText fixed gap g s) = some start →
      (queryText fixed gap g s)[start - 1]? = some '\n') : gap = ['\n'] := by
  refine h.gap.resolve_right ?_
  rintro ⟨rfl, hg, hlast⟩
  have hstart := h.findOrderBy
  rw [if_neg hs] at hstart
  have hbefore : (fixed ++ groupPart g).getLast? = some quotation := by
    rw [groupPart, clause, if_neg hg, ← List.append_assoc, ← List.append_assoc, List.getLast?_append, hlast]
    rfl
  have hchar := hnewline _ hstart
  have hlength : 0 < (fixed ++ groupPart g).length := List.length_pos_of_ne_nil fun hnil => by simp [hnil] at hbefore
  rw [queryText, ← List.append_assoc, List.append_nil, List.getElem?_append_left (by omega),
    ← List.getLast?_eq_getElem?, hbefore] at hchar
  exact absurd hchar (by decide)

theorem clauseStep_cases {w w' : QueryView} {e : FieldEvent} (h : clauseStep w e = some w') :
    e.InRange w.doc ∧ ∃ str changed, located e.page.queryType w.query = some str ∧
      changeFields e.type e.page.queryType e.fieldName e.pos w.doc = some changed ∧
      w' = ⟨changed.1, replaceClause e.type e.page.queryType str changed.2 w.query⟩ := by
  by_cases hrange : e.InRange w.doc
  · rw [clauseStep, if_pos hrange] at h
    obtain ⟨r, hr, rfl⟩ := Option.map_eq_some_iff.mp h
    obtain ⟨str, hstr, hr⟩ := Option.bind_eq_some_iff.mp hr
    obtain ⟨changed, hchanged, rfl⟩ := Option.map_eq_some_iff.mp hr
    exact ⟨hrange, str, changed, hstr, hchanged, rfl⟩
  · rw [clauseStep, if_neg hrange] at h
    cases h

theorem groupBy_ne_semicolon (rest : Text) : groupBy ++ rest ≠ [';'] := by
  have hlength : 1 < groupBy.length := by decide
  intro h
  have hsum := congrArg List.length h
  simp only [List.length_append, List.length_singleton] at hsum
  omega

theorem orderBy_ne_semicolon (rest : Text) : orderBy ++ rest ≠ [';'] := by
  have hlength : 1 < orderBy.length := by decide
  intro h
  have hsum := congrArg List.length h
  simp only [List.length_append, List.length_singleton] at hsum
  omega

theorem plain_insertIdx {names : List Text} (h : ∀ name ∈ names, Plain name) {fieldName : Text} (hplain : Plain fieldName)
    (position : ℕ) : ∀ name ∈ names.insertIdx position fieldName, Plain name := by
  intro name hname
  rcases List.eq_or_mem_of_mem_insertIdx hname with rfl | hname
  · exact hplain
  · exact h name hname

theorem insertIdx_ne_nil {names : List Text} {position : ℕ} (h : position ≤ names.length) (name : Text) :
    names.insertIdx position name ≠ [] := by
  apply List.ne_nil_of_length_pos
  rw [List.length_insertIdx_of_le_length h]
  omega

section Steps

variable {fixed : Text} {w w' : QueryView} {fieldName : Text} {pos : Positions}

theorem addGroup_laid (h : Laid fixed w) (hplain : Plain fieldName)
    (hsound : w.doc.sortedFields = [] ∨ w.doc.groupByFields ≠ [] ∧
      (joined (w.doc.groupByFields.insertIdx pos.position fieldName)).getLast? = some quotation)
    (hstep : clauseStep w ⟨.group, .addField, fieldName, pos⟩ = some w') : Laid fixed w' := by
  obtain ⟨gap, hlayout, hquery⟩ := h
  obtain ⟨⟨-, hrange⟩, str, changed, hstr, hchanged, rfl⟩ := clauseStep_cases hstep
  obtain ⟨fields, hfields, rfl⟩ := Option.map_eq_some_iff.mp hchanged
  obtain ⟨-, rfl⟩ := insertAt_eq.mp hfields
  have hnames := plain_insertIdx hlayout.group hplain pos.position
  have hne : w.doc.groupByFields.insertIdx pos.position fieldName ≠ [] := insertIdx_ne_nil hrange fieldName
  refine ⟨_, hlayout.of_group hnames hne (hsound.imp id And.right), ?_⟩
  refine Eq.trans ?_ (queryText_group hne)
  by_cases hg : w.doc.groupByFields = []
  · have hs : w.doc.sortedFields = [] := hsound.resolve_right fun hgroup => hgroup.1 hg
    rw [hg, hs] at hlayout hquery
    rw [hquery] at hstr ⊢
    obtain rfl := Option.some.inj (hlayout.located_semicolon_group.symm.trans hstr)
    simp only [replaceClause, if_true, hlayout.replaceAll_semicolon, hs]
    simp [groupPart, orderPart, clause]
  · rw [hquery] at hstr ⊢
    obtain rfl := Option.some.inj ((hlayout.located_group hg).symm.trans hstr)
    simp only [replaceClause, groupBy_ne_semicolon, if_false, hlayout.replaceAll_group hg]

theorem removeGroup_laid (h : Laid fixed w) (hne : w.doc.groupByFields.filter (· ≠ fieldName) ≠ [])
    (hlast : w.doc.sortedFields = [] ∨
      (joined (w.doc.groupByFields.filter (· ≠ fieldName))).getLast? = some quotation)
    (hstep : clauseStep w ⟨.group, .removeField, fieldName, pos⟩ = some w') : Laid fixed w' := by
  obtain ⟨gap, hlayout, hquery⟩ := h
  obtain ⟨-, str, changed, hstr, hchanged, rfl⟩ := clauseStep_cases hstep
  obtain ⟨all, -, rfl⟩ := Option.map_eq_some_iff.mp hchanged
  have hnames : ∀ name ∈ w.doc.groupByFields.filter (· ≠ fieldName), Plain name :=
    fun name hname => hlayout.group name (List.mem_of_mem_filter hname)
  have hg : w.doc.groupByFields ≠ [] := fun hg => hne (by simp [hg])
  refine ⟨_, hlayout.of_group hnames hne hlast, ?_⟩
  refine Eq.trans ?_ (queryText_group hne)
  rw [hquery] at hstr ⊢
  obtain rfl := Option.some.inj ((hlayout.located_group hg).symm.trans hstr)
  have hreplace : groupBy ++ joined (w.doc.groupByFields.filter (· ≠ fieldName)) ≠ [] :=
    List.append_ne_nil_of_left_ne_nil (by decide) _
  simp only [replaceClause, remaining, if_neg hne, if_neg hreplace]
  exact hlayout.replaceAll_group hg _

theorem addSort_laid (h : Laid fixed w) (hplain : Plain fieldName)
    (hstep : clauseStep w ⟨.sort, .addField, fieldName, pos⟩ = some w') : Laid fixed w' := by
  obtain ⟨gap, hlayout, hquery⟩ := h
  obtain ⟨⟨-, hrange⟩, str, changed, hstr, hchanged, rfl⟩ := clauseStep_cases hstep
  obtain ⟨fields, hfields, rfl⟩ := Option.map_eq_some_iff.mp hchanged
  obtain ⟨-, rfl⟩ := insertAt_eq.mp hfields
  have hnames := plain_insertIdx hlayout.sort hplain pos.position
  have hne : w.doc.sortedFields.insertIdx pos.position fieldName ≠ [] := insertIdx_ne_nil hrange fieldName
  by_cases hs : w.doc.sortedFields = []
  · refine ⟨['\n'], ⟨hlayout.fixed, hlayout.group, hnames, .inl rfl⟩, ?_⟩
    rw [hs] at hlayout hquery
    rw [hquery] at hstr ⊢
    obtain rfl := Option.some.inj (hlayout.located_semicolon_sort.symm.trans hstr)
    simp only [replaceClause, if_true, hlayout.replaceAll_semicolon]
    simp [queryText, orderPart, clause, hne]
  · refine ⟨gap, ⟨hlayout.fixed, hlayout.group, hnames, hlayout.gap⟩, ?_⟩
    rw [hquery] at hstr ⊢
    obtain rfl := Option.some.inj ((hlayout.located_sort hs).symm.trans hstr)
    simp only [replaceClause, orderBy_ne_semicolon, if_false, hlayout.replaceAll_sort hs]
    simp [queryText, orderPart, clause, hne]

theorem removeSort_laid (h : Laid fixed w) (hempty : w.doc.sortedFields.filter (· ≠ fieldName) = [])
    (hnewline : ∀ start, findOrderBy w.query = some start → w.query[start - 1]? = some '\n')
    (hstep : clauseStep w ⟨.sort, .removeField, fieldName, pos⟩ = some w') : Laid fixed w' := by
  obtain ⟨gap, hlayout, hquery⟩ := h
  obtain ⟨⟨hmem, -⟩, str, changed, hstr, hchanged, rfl⟩ := clauseStep_cases hstep
  obtain ⟨all, -, rfl⟩ := Option.map_eq_some_iff.mp hchanged
  have hs : w.doc.sortedFields ≠ [] := List.ne_nil_of_mem hmem
  rw [hquery] at hstr hnewline ⊢
  obtain rfl := Option.some.inj ((hlayout.located_sort hs).symm.trans hstr)
  obtain rfl := hlayout.gap_of_newline hs hnewline
  have hnames : ∀ name ∈ w.doc.sortedFields.filter (· ≠ fieldName), Plain name :=
    fun name hname => hlayout.sort name (List.mem_of_mem_filter hname)
  refine ⟨['\n'], ⟨hlayout.fixed, hlayout.group, hnames, .inl rfl⟩, ?_⟩
  have hreplace := hlayout.replaceAll_sort_newline hs
  have hpage : sortPage ≠ groupByPage := by decide
  simp only [replaceClause, remaining, hempty, if_true, ClausePage.queryType, hpage, if_false, hreplace]
  simp [queryText, orderPart, clause]

theorem clauseStep_laid (e : FieldEvent) (h : Laid fixed w) (hsound : e.Sound w)
    (hstep : clauseStep w e = some w') : Laid fixed w' := by
  obtain ⟨page, type, fieldName, pos⟩ := e
  cases page with
  | group =>
    cases type with
    | addField => exact addGroup_laid h hsound.1 hsound.2 hstep
    | removeField => exact removeGroup_laid h hsound.1 hsound.2 hstep
    | changeField => exact hsound.elim
  | sort =>
    cases type with
    | addField => exact addSort_laid h hsound hstep
    | removeField => exact removeSort_laid h hsound.1 hsound.2 hstep
    | changeField => exact hsound.elim

end Steps

def opened (fixed : Text) (groupFields sortFields : List Text) : QueryView :=
  ⟨⟨[], groupFields, [], sortFields, []⟩, fixed ++ [';']⟩

theorem clauses_follow_lists {fixed : Text} (hfixed : Plain fixed) (groupFields sortFields : List Text)
    (es : List FieldEvent)
    (hsound : EachStep clauseStep (fun w e _ => e.Sound w) (opened fixed groupFields sortFields) es) :
    Throughout clauseStep (HasClauses fixed) (opened fixed groupFields sortFields) es := by
  have hstart : Laid fixed (opened fixed groupFields sortFields) :=
    ⟨['\n'], ⟨hfixed, by simp [opened], by simp [opened], .inl rfl⟩, by simp [opened, queryText, groupPart, orderPart, clause]⟩
  have hlaid : Throughout clauseStep (Laid fixed) (opened fixed groupFields sortFields) es := by
    rw [throughout_iff]
    refine ⟨hstart, eachStep_of_condition (P := Laid fixed) (fun _ _ _ _ _ hq => hq) ?_ hstart es hsound⟩
    exact fun w e w' h hstep hs => clauseStep_laid e h hs hstep
  exact fun pre hpre w hw => (hlaid pre hpre w hw).hasClauses

def clientQuery : Text := "SELECT id FROM client".toList

def clientFields : List Text := ["id".toList, "name".toList]

theorem client_clauses_follow_lists :
    Throughout clauseStep (HasClauses clientQuery) (opened clientQuery clientFields clientFields)
      [⟨.group, .addField, "id".toList, ⟨0, 0⟩⟩, ⟨.sort, .addField, "name".toList, ⟨0, 1⟩⟩] := by
  refine clauses_follow_lists (by unfold Plain; decide) clientFields clientFields _ ?_
  rw [eachStep_cons]
  intro w hw
  refine ⟨⟨by unfold Plain; decide, .inl rfl⟩, ?_⟩
  rw [eachStep_cons]
  intro v hv
  exact ⟨by simp only [FieldEvent.Sound]; unfold Plain; decide, eachStep_nil _ _⟩

def shorterOrder : List FieldEvent :=
  [⟨.sort, .addField, "id".toList, ⟨0, 0⟩⟩, ⟨.sort, .addField, "name".toList, ⟨1, 0⟩⟩,
    ⟨.sort, .removeField, "id".toList, ⟨0, 0⟩⟩]

theorem shorter_order_becomes_group :
    ¬ Throughout clauseStep (HasClauses clientQuery) (opened clientQuery clientFields clientFields) shorterOrder := by
  intro h
  have hrun : run clauseStep (opened clientQuery clientFields clientFields) shorterOrder =
      some ⟨⟨[], clientFields, [], ["id".toList], ["name".toList]⟩, "SELECT id FROM client\nGROUP BY name;".toList⟩ := by
    decide
  obtain ⟨gap₁, gap₂, -, -, hquery⟩ := h shorterOrder (List.prefix_refl _) _ hrun
  have hsuffix : orderBy ++ (joined ["name".toList] ++ [';']) <:+ "SELECT id FROM client\nGROUP BY name;".toList :=
    ⟨clientQuery ++ gap₂, by simpa [clause] using hquery.symm⟩
  exact absurd hsuffix (by decide)

end DbHandler.QueryBuilder
