import DbHandler.Foundation.Faults
import DbHandler.QueryBuilder.FromList
import DbHandler.QueryBuilder.JoinSigns

namespace DbHandler.QueryBuilder

open Foundation Foundation.Search
open Foundation.Separators (before after)
open Foundation.Sql (quotation)
open Foundation.Faults (bind_ok Returns)

/-- No quotation mark stands behind a newline. -/
def QuotesFirst (t : Text) : Prop := quotation ∉ t.dropWhile (· ≠ '\n')

def fromQuoted : Text := "\nFROM \"".toList

def whereClause (conditions : List Text) : Text :=
  if conditions = [] then [] else Diagram.whereText ++ joinWhere conditions

/-- A query of the builder with these tables and conditions, in any order. -/
def SameQuery (tables conditions : List Text) (query : Text) : Prop :=
  ∃ line tables' conditions' rest, tables'.Perm tables ∧ conditions'.Perm conditions ∧
    query = line ++ ("\nFROM ".toList ++ (fromList tables' ++ (whereClause conditions' ++ rest)))

/-- The names of the constraint can be quoted. -/
structure Quotable (type : QueryConstraint) : Prop where
  fkTable : quotation ∉ type.fkTable
  localColumn : quotation ∉ type.localColumn
  refTable : quotation ∉ type.refTable
  refColumn : quotation ∉ type.refColumn

section Loops

variable {type : QueryConstraint} {rounds : ℕ} {query result r : Text}

theorem cut_ok {t rest : Text} {pos : ℤ} (h : cut t pos = .ok rest) :
    0 ≤ pos ∧ pos ≤ t.length ∧ rest = t.drop pos.toNat := by
  rw [cut, substrLength] at h
  by_cases hpos : 0 ≤ pos ∧ pos ≤ t.length
  · rw [if_pos hpos] at h
    exact ⟨hpos.1, hpos.2, (Except.ok.inj h).symm⟩
  · rw [if_neg hpos] at h
    cases h

theorem cut_of_le {t : Text} {pos : ℤ} (h : 0 ≤ pos) (h' : pos ≤ t.length) : cut t pos = .ok (t.drop pos.toNat) := by
  rw [cut, substrLength, if_pos ⟨h, h'⟩]
  rfl

/-- A round that begins with a comma ends with the same text. -/
theorem tableLoop_comma (rest : Text) : tableLoop type rounds (',' :: rest) result = .error .unfinished := by
  induction rounds generalizing result with
  | zero => rfl
  | succ rounds ih =>
    have hfind : findInt [','] (',' :: rest) = 0 := findInt_of_find (find_at_start ⟨rest, rfl⟩)
    rw [tableLoop, if_neg (List.cons_ne_nil _ _), hfind, cut_of_le (le_refl 0) (Int.natCast_nonneg _)]
    exact ih

/-- The loop over the other tables returns only if there are none. -/
theorem tableLoop_ok {temp1 : Text} (h : tableLoop type rounds temp1 result = .ok r) : temp1 = [] ∧ r = result := by
  cases rounds with
  | zero => cases h
  | succ rounds =>
    rw [tableLoop] at h
    split_ifs at h with hempty
    · exact ⟨hempty, (Except.ok.inj h).symm⟩
    · obtain ⟨rest, hrest, hloop⟩ := bind_ok h
      obtain ⟨hpos, -, rfl⟩ := cut_ok hrest
      exfalso
      cases hfind : find [','] temp1 with
      | none =>
        rw [findInt_of_none hfind] at hpos
        omega
      | some n =>
        obtain ⟨-, more, hmore⟩ := find_split hfind
        rw [findInt_of_find hfind, Int.toNat_natCast, ← hmore] at hloop
        rw [List.singleton_append, tableLoop_comma] at hloop
        cases hloop

/-- Every round of the loop over the conditions takes something from the text or throws. -/
theorem conditionLoop_finishes (h : query.length < rounds) :
    conditionLoop type rounds query result ≠ .error .unfinished := by
  induction rounds generalizing query result with
  | zero => exact absurd h (Nat.not_lt_zero _)
  | succ rounds ih =>
    rw [conditionLoop]
    dsimp only
    split_ifs with hown
    · exact fun hfault => by cases hfault
    · cases hand : find " AND ".toList query with
      | some pos =>
        have hle := find_le hand
        apply ih
        rw [List.length_drop]
        change pos + 5 ≤ query.length at hle
        omega
      | none =>
        have hor : 3 ≤ findInt " OR ".toList query + 4 := by
          cases hfind : find " OR ".toList query with
          | none => rw [findInt_of_none hfind]; omega
          | some n => rw [findInt_of_find hfind]; omega
        by_cases hcut : findInt " OR ".toList query + 4 ≤ query.length
        · rw [cut_of_le (by omega) hcut]
          apply ih
          rw [List.length_drop]
          omega
        · intro hfault
          rw [cut, substrLength, if_neg fun hpos => hcut hpos.2] at hfault
          cases hfault

/-- A sign that is put in makes no quoted list of tables. -/
theorem sign_absent (habsent : ¬ fromQuoted <:+: result ++ query) :
    ¬ fromQuoted <:+: result ++ before ' ' query ++ " = ".toList ++ after ' ' (after ' ' query) := by
  obtain ⟨more, hmore⟩ := Separators.before_prefix ' ' query
  have hsuffix := (Separators.after_suffix ' ' (after ' ' query)).trans (Separators.after_suffix ' ' query)
  have hsplit : result ++ before ' ' query ++ " = ".toList ++ after ' ' (after ' ' query) =
      (result ++ before ' ' query ++ [' ']) ++ '=' :: ' ' :: after ' ' (after ' ' query) := by
    simp only [List.append_assoc]
    rfl
  rw [hsplit]
  apply infix_stop (by decide) (by decide)
  · intro hinfix
    rcases List.infix_concat_iff.mp hinfix with hend | hinside
    · obtain ⟨front, hfront⟩ := hend
      have hlast := congrArg List.getLast? hfront
      rw [List.getLast?_append, List.getLast?_append] at hlast
      have hquotation : some quotation = some ' ' := hlast
      exact absurd hquotation (by decide)
    · exact habsent (hinside.trans ⟨[], more, by rw [List.nil_append, List.append_assoc, hmore]⟩)
  · intro hinfix
    rcases List.infix_cons_iff.mp hinfix with hstart | hinside
    · exact absurd (List.cons_prefix_cons.mp hstart).1 (by decide)
    · exact habsent (hinside.trans (hsuffix.isInfix.trans (List.suffix_append result query).isInfix))

/-- The text on both sides of the place that the loop has reached changes in the sign only. -/
theorem conditionLoop_absent (hsign : type.sign = 0) (h : conditionLoop type rounds query result = .ok r)
    (habsent : ¬ fromQuoted <:+: result ++ query) : ¬ fromQuoted <:+: r := by
  induction rounds generalizing query result with
  | zero => cases h
  | succ rounds ih =>
    rw [conditionLoop] at h
    dsimp only at h
    split_ifs at h with hown
    · obtain rfl := Except.ok.inj h
      rw [hsign]
      exact sign_absent habsent
    · cases hand : find " AND ".toList query with
      | some pos =>
        rw [hand] at h
        apply ih h
        rwa [List.append_assoc, List.take_append_drop]
      | none =>
        rw [hand] at h
        obtain ⟨rest, hrest, hloop⟩ := bind_ok h
        obtain ⟨-, -, rfl⟩ := cut_ok hrest
        apply ih hloop
        rwa [List.append_assoc, List.take_append_drop]

end Loops

section Texts

theorem QuotesFirst.behind {a b : Text} (h : QuotesFirst (a ++ '\n' :: b)) : quotation ∉ b := by
  intro hmem
  apply h
  rw [List.dropWhile_append]
  split_ifs with hempty
  · simp [hmem]
  · exact List.mem_append_right _ (List.mem_cons_of_mem _ hmem)

theorem quotesFirst_of_behind {a b : Text} (ha : '\n' ∉ a) (hb : quotation ∉ b) : QuotesFirst (a ++ '\n' :: b) := by
  rw [QuotesFirst, Separators.dropWhile_append ha, List.mem_cons, not_or]
  exact ⟨by decide, hb⟩

theorem QuotesFirst.absent {t : Text} (h : QuotesFirst t) : ¬ fromQuoted <:+: t := by
  rintro ⟨a, b, rfl⟩
  have hbehind : quotation ∉ "FROM \"".toList ++ b := by
    have hsplit : a ++ fromQuoted ++ b = a ++ '\n' :: ("FROM \"".toList ++ b) := List.append_assoc ..
    rw [hsplit] at h
    exact h.behind
  exact hbehind (List.mem_append_left _ (by decide))

/-- What stands behind the first WHERE and a newline does not begin with a quoted table. -/
theorem not_from_behind {x rest : Text} {b : ℕ} (hquotes : QuotesFirst (x ++ ("WHERE ".toList ++ '\n' :: rest)))
    (hselect : select <+: x ++ ("WHERE ".toList ++ '\n' :: rest))
    (hwhere : find "WHERE ".toList (x ++ ("WHERE ".toList ++ '\n' :: rest)) = some x.length)
    (hb : (findInt " WHERE ".toList (x ++ ("WHERE ".toList ++ '\n' :: rest)) + 7).toNat = b) :
    ¬ "FROM \"".toList <+: (x ++ ("WHERE ".toList ++ '\n' :: rest)).drop b := by
  generalize ht : x ++ ("WHERE ".toList ++ '\n' :: rest) = t at *
  rintro ⟨w, hw⟩
  cases hblank : find " WHERE ".toList t with
  | none =>
    rw [findInt_of_none hblank] at hb
    obtain rfl : b = 6 := hb.symm
    obtain ⟨s, rfl⟩ := hselect
    exact absurd (List.cons.inj (hw : _ = ' ' :: s)).1 (by decide)
  | some m =>
    rw [findInt_of_find hblank] at hb
    have hlength := find_le hblank
    obtain ⟨-, hpre⟩ := find_split hblank
    -- the first WHERE is at most one place behind
    have hle : x.length ≤ m + 1 := by
      have hinside : "WHERE ".toList <+: t.drop (m + 1) := by
        obtain ⟨s, hs⟩ := hpre
        refine ⟨s, ?_⟩
        rw [← List.drop_drop, ← hs]
        rfl
      obtain ⟨k, hk, hfind⟩ := find_append_prefix (a := t.take (m + 1)) hinside
      rw [List.take_append_drop, hwhere] at hfind
      have := List.length_take_le (m + 1) t
      have := Option.some.inj hfind
      omega
    obtain ⟨k, hk⟩ : ∃ k, b = (x ++ "WHERE ".toList).length + k := by
      refine ⟨b - (x ++ "WHERE ".toList).length, ?_⟩
      have : (x ++ "WHERE ".toList).length = x.length + 6 := by simp
      omega
    have hdrop : t.drop b = ('\n' :: rest).drop k := by
      rw [hk, ← ht, ← List.append_assoc, List.drop_length_add_append]
    rw [hdrop] at hw
    cases k with
    | zero => exact absurd (List.cons.inj hw).1 (by decide)
    | succ k =>
      rw [← ht, ← List.append_assoc] at hquotes
      apply hquotes.behind
      apply (List.drop_suffix k rest).subset
      rw [← List.drop_succ_cons, ← hw]
      exact List.mem_append_left _ (by decide)

/-- The beginning up to the first WHERE and the rest behind the first one with a blank before it: the quoted list
of tables does not come about between them. -/
theorem fromOuter_start {t : Text} (hquotes : QuotesFirst t) (hselect : select <+: t) :
    ¬ fromQuoted <:+: t.take (findInt "WHERE ".toList t + 7).toNat ++ t.drop (findInt " WHERE ".toList t + 7).toNat := by
  cases hwhere : find "WHERE ".toList t with
  | none =>
    have hblank : find " WHERE ".toList t = none := by
      rw [find_eq_none_iff (by decide)] at hwhere ⊢
      exact fun hinfix => hwhere ((List.suffix_cons ' ' "WHERE ".toList).isInfix.trans hinfix)
    rw [findInt_of_none hwhere, findInt_of_none hblank, List.take_append_drop]
    exact hquotes.absent
  | some n =>
    obtain ⟨-, rest, hrest⟩ := find_split hwhere
    have hlength := find_le hwhere
    obtain ⟨x, hx, rfl⟩ : ∃ x, x.length = n ∧ t = x ++ ("WHERE ".toList ++ rest) :=
      ⟨t.take n, List.length_take_of_le (by omega), by rw [hrest, List.take_append_drop]⟩
    have hpart {s : Text} (hs : s <:+: x ++ ("WHERE ".toList ++ rest)) : ¬ fromQuoted <:+: s :=
      fun h => hquotes.absent (h.trans hs)
    have htake : (x ++ ("WHERE ".toList ++ rest)).take (findInt "WHERE ".toList (x ++ ("WHERE ".toList ++ rest)) + 7).toNat =
        (x ++ 'W' :: "HER".toList) ++ 'E' :: ' ' :: rest.take 1 := by
      have hcount : ((n : ℤ) + 7).toNat = x.length + 7 := by omega
      rw [findInt_of_find hwhere, hcount, List.take_length_add_append]
      simp
    generalize hbehind : (findInt " WHERE ".toList (x ++ ("WHERE ".toList ++ rest)) + 7).toNat = b
    rw [htake, List.append_assoc, List.cons_append, List.cons_append]
    have hdrop := hpart (List.drop_suffix b _).isInfix
    apply infix_stop (by decide) (by decide)
    · exact infix_stop (by decide) (by decide) (hpart (List.prefix_append x _).isInfix) (by decide)
    · intro hinfix
      rcases List.infix_cons_iff.mp hinfix with hstart | hinside
      · exact absurd (List.cons_prefix_cons.mp hstart).1 (by decide)
      · cases rest with
        | nil => exact hdrop hinside
        | cons c rest =>
          rcases List.infix_cons_iff.mp hinside with hstart | hinside
          · -- a newline behind WHERE: the table would stand behind it
            obtain ⟨hc, hfrom⟩ := List.cons_prefix_cons.mp hstart
            obtain rfl : '\n' = c := hc
            exact not_from_behind hquotes hselect (hx ▸ hwhere) hbehind hfrom
          · exact hdrop hinside

end Texts

section RoundTrip

variable {type : QueryConstraint} {rounds : ℕ} {oldSign : ℕ} {v v' : JoinView}

theorem quotation_not_mem_outerJoin (h : Quotable type) : quotation ∉ outerJoin type := by
  have hjoin : quotation ∉ " LEFT OUTER JOIN ".toList := by decide
  have hon : quotation ∉ " ON ".toList := by decide
  have hequal : quotation ∉ " = ".toList := by decide
  have hdot : quotation ≠ '.' := by decide
  rw [outerJoin]
  split_ifs <;>
    simp only [localSide, refSide, List.mem_append, List.mem_cons, h.fkTable, h.localColumn, h.refTable, h.refColumn,
      hjoin, hon, hequal, hdot, or_self, not_false_eq_true]

/-- The line of the fields, the join, and a semicolon or nothing. -/
theorem toOuter_ok {out : Text × Text} (h : toOuter rounds type v = .ok out) :
    ∃ last ∈ [[], [';']], out.2 = through '\n' v.query ++ ("FROM ".toList ++ (outerJoin type ++ last)) := by
  obtain ⟨query, -, hrest⟩ := bind_ok h
  split_ifs at hrest
  · obtain ⟨clauses, -, hout⟩ := bind_ok hrest
    obtain rfl := Except.ok.inj hout
    dsimp only
    split_ifs
    · exact ⟨[';'], by simp, by simp only [List.append_assoc]⟩
    · exact ⟨[], by simp, by simp only [List.append_assoc, List.append_nil]⟩
  · obtain ⟨r, hloop, hout⟩ := bind_ok hrest
    obtain rfl := Except.ok.inj hout
    obtain ⟨-, rfl⟩ := tableLoop_ok hloop
    exact ⟨[], by simp, by simp only [List.append_assoc, List.append_nil]⟩

theorem findInt_bounds (p t : Text) : -1 ≤ findInt p t ∧ findInt p t ≤ t.length := by
  cases h : find p t with
  | none =>
    rw [findInt_of_none h]
    omega
  | some n =>
    have := find_le h
    rw [findInt_of_find h]
    omega

theorem clausesPos_bounds {query : Text} (h : query ≠ []) : 0 ≤ clausesPos query ∧ clausesPos query ≤ query.length := by
  have hlength := List.length_pos_of_ne_nil h
  have hgroup := findInt_bounds "GROUP BY".toList query
  have hhaving := findInt_bounds "HAVING".toList query
  have horder := findInt_bounds "ORDER BY".toList query
  rw [clausesPos]
  split_ifs <;> omega

/-- The only relation and no condition, or nothing in the line of WHERE: otherwise the loop throws or does not end. -/
theorem toOuter_returns_iff : (∃ rounds out, toOuter rounds type v = .ok out) ↔
    ∃ pos, find "WHERE".toList (after '\n' v.query) = some pos ∧
      (v.whereRelations.length = 1 ∧ v.whereConditions.size = 0 ∨
        after ' ' (through '\n' ((after '\n' v.query).drop pos)) = []) := by
  constructor
  · rintro ⟨rounds, out, h⟩
    obtain ⟨query, hcut, hrest⟩ := bind_ok h
    obtain ⟨hpos, -, hquery⟩ := cut_ok hcut
    cases hfind : find "WHERE".toList (after '\n' v.query) with
    | none =>
      rw [findInt_of_none hfind] at hpos
      omega
    | some pos =>
      rw [findInt_of_find hfind, Int.toNat_natCast] at hquery
      subst hquery
      refine ⟨pos, rfl, ?_⟩
      split_ifs at hrest with hsingle
      · exact .inl hsingle
      · obtain ⟨r, hloop, -⟩ := bind_ok hrest
        exact .inr (tableLoop_ok hloop).1
  · rintro ⟨pos, hfind, hcase⟩
    have hle := find_le hfind
    have hcut : cut (after '\n' v.query) (findInt "WHERE".toList (after '\n' v.query)) =
        .ok ((after '\n' v.query).drop pos) := by
      rw [findInt_of_find hfind, cut_of_le (by omega) (by omega), Int.toNat_natCast]
    have hreturns : Returns (toOuter 1 type v) fun _ => True := by
      rw [toOuter, hcut]
      by_cases hsingle : v.whereRelations.length = 1 ∧ v.whereConditions.size = 0
      · have hnil : (after '\n' v.query).drop pos ≠ [] := by
          apply List.ne_nil_of_length_pos
          rw [List.length_drop]
          change pos + 5 ≤ _ at hle
          omega
        obtain ⟨hnonneg, hend⟩ := clausesPos_bounds hnil
        simp [hsingle, cut_of_le hnonneg hend]
      · simp [hsingle, hcase.resolve_left hsingle, tableLoop]
    obtain ⟨out, hout, -⟩ := hreturns
    exact ⟨1, out, hout⟩

theorem update_ok (h : updateQueryFromSignChange rounds type oldSign v = .ok v') :
    ∃ orig out, signChange rounds type oldSign orig v = .ok out ∧ v'.query = out.2 := by
  rw [updateQueryFromSignChange] at h
  cases hfind : v.whereRelations.find? (picks type) with
  | none =>
    rw [hfind] at h
    cases h
  | some orig =>
    rw [hfind] at h
    dsimp only at h
    cases hchange : signChange rounds type oldSign orig v with
    | error fault =>
      rw [hchange] at h
      cases h
    | ok out =>
      rw [hchange] at h
      obtain rfl := Except.ok.inj h
      exact ⟨orig, out, hchange, rfl⟩

theorem update_toOuter (hsign : outer type.sign = true) (hold : outer oldSign = false)
    (h : updateQueryFromSignChange rounds type oldSign v = .ok v') :
    ∃ out, toOuter rounds type v = .ok out ∧ v'.query = out.2 := by
  obtain ⟨orig, out, hchange, hquery⟩ := update_ok h
  rw [signChange, if_neg (by simp [hsign]), if_pos (by simp [hsign, hold])] at hchange
  exact ⟨out, hchange, hquery⟩

theorem update_fromOuter (hsign : outer type.sign = false) (hold : outer oldSign = true)
    (h : updateQueryFromSignChange rounds type oldSign v = .ok v') : fromOuter rounds type v = .ok v'.query := by
  obtain ⟨orig, out, hchange, hquery⟩ := update_ok h
  rw [signChange, if_neg (by simp [hold]), if_neg (by simp [hsign]), if_pos (by simp [hsign, hold])] at hchange
  cases hfrom : fromOuter rounds type v with
  | error fault =>
    rw [hfrom] at hchange
    cases hchange
  | ok r =>
    rw [hfrom] at hchange
    rw [hquery, ← Except.ok.inj hchange]

theorem fromOuter_absent (hsign : type.sign = 0) (hquotes : QuotesFirst v.query) (hselect : select <+: v.query)
    {r : Text} (h : fromOuter rounds type v = .ok r) : ¬ fromQuoted <:+: r := by
  obtain ⟨query, hcut, hloop⟩ := bind_ok h
  obtain ⟨-, -, rfl⟩ := cut_ok hcut
  exact conditionLoop_absent hsign hloop (fromOuter_start hquotes hselect)

theorem through_append {a b : Text} {c : Char} (h : c ∉ a) : through c (a ++ c :: b) = a ++ [c] := by
  have hfind : find [c] (a ++ c :: b) = some a.length := find_at (avoids_of_head h) ⟨b, rfl⟩
  have hcount : ((a.length : ℤ) + 1).toNat = a.length + 1 := by omega
  rw [through, findInt_of_find hfind, hcount, List.take_length_add_append]
  rfl

theorem toOuter_quotesFirst {list rest : Text} (hnames : Quotable type)
    (hquery : v.query = select ++ (list ++ '\n' :: rest)) {out : Text × Text} (h : toOuter rounds type v = .ok out) :
    QuotesFirst out.2 ∧ select <+: out.2 := by
  obtain ⟨last, hlast, hout⟩ := toOuter_ok h
  have hmem : '\n' ∈ list ++ '\n' :: rest := by simp
  obtain ⟨line, more, hline, hnewline⟩ := List.eq_append_cons_of_mem hmem
  have hend : quotation ∉ last := fun hquote => by
    rcases List.mem_pair.mp hlast with rfl | rfl
    · exact List.not_mem_nil hquote
    · exact absurd hquote (by decide)
  have hselect : '\n' ∉ select ++ line := by
    rw [List.mem_append, not_or]
    exact ⟨by decide, hnewline⟩
  have hjoined : quotation ∉ "FROM ".toList ++ (outerJoin type ++ last) := by
    simp only [List.mem_append, quotation_not_mem_outerJoin hnames, hend, or_self, or_false]
    decide
  rw [hquery, hline, ← List.append_assoc select, through_append hselect,
    List.append_assoc (select ++ line), List.singleton_append] at hout
  rw [hout]
  exact ⟨quotesFirst_of_behind hselect hjoined, line ++ _, (List.append_assoc ..).symm⟩

/-- What comes back is no query of the builder's. -/
theorem outer_and_back_absent {list rest : Text} {rounds' : ℕ} {v₁ v₂ : JoinView} (hnames : Quotable type)
    (hsign : outer type.sign = true) (hold : outer oldSign = false) (hquery : v.query = select ++ (list ++ '\n' :: rest))
    (hto : updateQueryFromSignChange rounds type oldSign v = .ok v₁)
    (hback : updateQueryFromSignChange rounds' { type with sign := 0 } type.sign v₁ = .ok v₂) :
    ¬ fromQuoted <:+: v₂.query := by
  obtain ⟨out, hout, htext⟩ := update_toOuter hsign hold hto
  obtain ⟨hquotes, hselect⟩ := toOuter_quotesFirst hnames hquery hout
  rw [← htext] at hquotes hselect
  exact fromOuter_absent rfl hquotes hselect (update_fromOuter rfl hsign hback)

theorem fromList_quoted {tables : List Text} (h : tables ≠ []) : ∃ rest, fromList tables = quotation :: rest := by
  obtain ⟨name, tables, rfl⟩ := List.exists_cons_of_ne_nil h
  cases tables with
  | nil => exact ⟨_, rfl⟩
  | cons next rest => exact ⟨_, rfl⟩

theorem SameQuery.quoted {tables conditions : List Text} {query : Text} (htables : tables ≠ [])
    (h : SameQuery tables conditions query) : fromQuoted <:+: query := by
  obtain ⟨line, tables', conditions', rest, hperm, -, rfl⟩ := h
  obtain ⟨more, hmore⟩ := fromList_quoted fun hnil => htables (List.nil_perm.mp (hnil ▸ hperm))
  refine ⟨line, more ++ (whereClause conditions' ++ rest), ?_⟩
  rw [hmore, List.append_assoc]
  rfl

/-- A change to an outer join and back to equality never restores the query. -/
theorem outer_join_not_undone {tables conditions : List Text} {list rest : Text} (hnames : Quotable type)
    (htables : tables ≠ []) (hsign : outer type.sign = true) (hold : outer oldSign = false)
    (hquery : v.query = select ++ (list ++ ("\nFROM ".toList ++ (fromList tables ++ (whereClause conditions ++ rest))))) :
    ¬ ∃ rounds rounds' v₁ v₂, updateQueryFromSignChange rounds type oldSign v = .ok v₁ ∧
      updateQueryFromSignChange rounds' { type with sign := 0 } type.sign v₁ = .ok v₂ ∧
      SameQuery tables conditions v₂.query := by
  rintro ⟨rounds, rounds', v₁, v₂, hto, hback, hsame⟩
  exact outer_and_back_absent hnames hsign hold hquery hto hback (hsame.quoted htables)

end RoundTrip

theorem orderReferences_quotable {refTable localColumn : String} (href : quotation ∉ refTable.toList)
    (hlocal : quotation ∉ localColumn.toList) (sign : ℕ) : Quotable (orderReferences refTable localColumn sign) where
  fkTable := by
    change quotation ∉ "orders".toList
    decide
  localColumn := hlocal
  refTable := href
  refColumn := by
    change quotation ∉ "id".toList
    decide

theorem item_join_not_undone :
    ¬ ∃ rounds rounds' v₁ v₂,
      updateQueryFromSignChange rounds (orderReferences "item" "item" 1) 0 clientAndItem = .ok v₁ ∧
      updateQueryFromSignChange rounds' { orderReferences "item" "item" 1 with sign := 0 } 1 v₁ = .ok v₂ ∧
      SameQuery ["client".toList, "item".toList, "orders".toList] [conditionText (orderReferences "client" "client" 0)
        "=".toList, conditionText (orderReferences "item" "item" 0) "=".toList] v₂.query := by
  have hquery : clientAndItem.query = select ++ ("*".toList ++ ("\nFROM ".toList ++
      (fromList ["client".toList, "item".toList, "orders".toList] ++ (whereClause [conditionText
        (orderReferences "client" "client" 0) "=".toList, conditionText (orderReferences "item" "item" 0) "=".toList] ++
        ";".toList)))) := by
    decide +kernel
  exact outer_join_not_undone (orderReferences_quotable (by decide) (by decide) 1) (by decide) rfl rfl hquery

/-- The table of the other relation is lost. -/
theorem client_lost : ¬ ∃ rounds v', updateQueryFromSignChange rounds (orderReferences "item" "item" 1) 0 clientAndItem =
    .ok v' ∧ "client".toList <:+: v'.query := by
  rintro ⟨rounds, v', h, hclient⟩
  obtain ⟨out, hout, hquery⟩ := update_toOuter rfl rfl h
  obtain ⟨last, hlast, htext⟩ := toOuter_ok hout
  have hline : through '\n' clientAndItem.query = "SELECT *\n".toList := by decide +kernel
  rw [hquery, htext, hline] at hclient
  rcases List.mem_pair.mp hlast with rfl | rfl
  · exact absurd hclient (by decide +kernel)
  · exact absurd hclient (by decide +kernel)

end DbHandler.QueryBuilder
