import DbHandler.QueryBuilder.JoinSigns

namespace DbHandler.QueryBuilder

open Foundation Foundation.Search

/-- The first three columns of a row of the grid. -/
structure GridRow where
  column : Text
  operator : Text
  value : Text
  deriving DecidableEq, Repr

def operatorChoices : List Text :=
  (["=", "<", ">", "<=", ">=", "<>", "between", "exists", "in", "like", "not between", "not exists", "not in",
    "not like", "is", "is not", "= all", "!= all", "< all", "> all", "<= all", ">= all", "= any", "< any", "> any",
    "<= any", ">= any", "!= any"] : List String).map String.toList

/-- Only for a row without an operator the column is the one that was chosen. -/
def onCellChanged (choice : Text) (row : GridRow) : GridRow × Text :=
  if row.operator = [] then
    ({ row with operator := "=".toList }, choice ++ ' ' :: ("=".toList ++ ' ' :: row.value))
  else (row, row.column ++ ' ' :: (row.operator ++ ' ' :: row.value))

/-- What the page can send. -/
def Entered (condition : Text) : Prop :=
  ∃ choice row, row.operator ∈ [] :: operatorChoices ∧ (onCellChanged choice row).2 = condition

/-- Where the next clause begins, or else the last character. -/
def whereEnd (part : Text) : ℤ :=
  if findInt "GROUP BY".toList part ≠ -1 then findInt "GROUP BY".toList part
  else if findInt "HAVING ".toList part ≠ -1 then findInt "HAVING ".toList part
  else if findInt "ORDER BY".toList part ≠ -1 then findInt "ORDER BY".toList part
  else part.length - 1

/-- Without a WHERE the semicolon, and nothing if another clause is there. -/
def wherePart (query : Text) : Option Text :=
  match find "WHERE".toList query with
  | some pos => (substrLength query (pos + 6) (-1)).bind fun part => substrLength part 0 (whereEnd part)
  | none =>
    if find "GROUP BY".toList query = none ∧ find "HAVING ".toList query = none ∧ find "ORDER BY".toList query = none then
      some [';']
    else some []

def newWherePart (part condition : Text) : Text :=
  (if 1 < part.length ∧ part.getLast? = some '\n' then replaceAll ['\n'] " AND\n".toList part else part ++ ['\n']) ++
    ("       ".toList ++ condition)

/-- The branch of the where page; the conditions that are kept are not read. -/
def onQueryChange (row : ℤ) (condition : Text) (v : JoinView) : Option JoinView :=
  (wherePart v.query).map fun part =>
    { v with
      query := replaceAll part (newWherePart part condition) v.query
      whereConditions :=
        if find "WHERE".toList v.query = none then v.whereConditions
        else v.whereConditions.upsert (row + 1) fun _ => condition }

inductive Conjuncts : List Text → Text → Prop
  | last {condition before after : Text} (hbefore : White before) (hafter : White after) :
      Conjuncts [condition] (before ++ (condition ++ after))
  | cons {condition before after rest : Text} {conditions : List Text} (hbefore : White before) (hafter : White after)
      (hrest : Conjuncts conditions rest) :
      Conjuncts (condition :: conditions) (before ++ (condition ++ (after ++ ("AND".toList ++ rest))))

/-- The clause with the conditions stands between what is before it and what is behind it, with any white space. -/
def ShowsConditions (head : Text) (conditions : List Text) (later query : Text) : Prop :=
  if conditions = [] then query = head ++ later
  else ∃ gap clause, White gap ∧ Conjuncts conditions clause ∧ query = head ++ (gap ++ ("WHERE".toList ++ (clause ++ later)))

def letters (t : Text) : Text := t.filter (! ·.isWhitespace)

section Letters

@[simp] theorem letters_append (a b : Text) : letters (a ++ b) = letters a ++ letters b := List.filter_append ..

theorem White.letters {t : Text} (h : White t) : letters t = [] :=
  List.filter_eq_nil_iff.mpr fun c hc => by simp [h c hc]

theorem letters_conjuncts {conditions : List Text} {clause : Text} (h : Conjuncts conditions clause) :
    letters clause = "AND".toList.intercalate (conditions.map letters) := by
  have hand : letters "AND".toList = "AND".toList := by decide
  induction h with
  | last hbefore hafter => simp [hbefore.letters, hafter.letters]
  | @cons condition before after rest conditions hbefore hafter hrest ih =>
    have hne : conditions.map letters ≠ [] := by
      cases hrest <;> simp
    rw [List.map_cons, List.intercalate_cons_of_ne_nil hne, ← ih]
    simp only [letters_append, hbefore.letters, hafter.letters, hand, List.nil_append, List.append_assoc]

/-- The letters of a text that shows a condition last. -/
theorem letters_shown {head later query condition : Text} {conditions : List Text}
    (h : ShowsConditions head (conditions ++ [condition]) later query) :
    letters query = (letters head ++ ("WHERE".toList ++ conditions.flatMap fun c => letters c ++ "AND".toList)) ++
      (letters condition ++ letters later) := by
  rw [ShowsConditions, if_neg (by simp)] at h
  obtain ⟨gap, clause, hgap, hclause, rfl⟩ := h
  have hwhere : letters "WHERE".toList = "WHERE".toList := by decide
  have hletters := letters_conjuncts hclause
  rw [List.map_append, List.map_singleton, Separators.intercalate_split, List.flatMap_nil, List.append_nil,
    List.flatMap_map] at hletters
  simp only [letters_append, hgap.letters, hwhere, hletters, List.nil_append, List.append_assoc]

theorem letters_operator : ∀ operator ∈ operatorChoices, letters operator ≠ [] := by
  decide +kernel

theorem letters_entered {condition : Text} (h : Entered condition) : letters condition ≠ [] := by
  obtain ⟨choice, row, hoperator, rfl⟩ := h
  rw [onCellChanged]
  split_ifs with hempty
  · simp [letters]
  · have hletters := letters_operator _ ((List.mem_cons.mp hoperator).resolve_left hempty)
    obtain ⟨c, hc⟩ := List.exists_mem_of_ne_nil _ hletters
    apply List.ne_nil_of_mem (a := c)
    have hcons (t : Text) : letters (' ' :: t) = letters t := rfl
    simp [hcons, hc]

/-- The page can send another condition for any row. -/
theorem entered_differs (condition : Text) : ∃ other, Entered other ∧ letters other ≠ letters condition := by
  refine ⟨_, ⟨[], ⟨[], "=".toList, condition⟩, by simp [operatorChoices], rfl⟩, ?_⟩
  have hletters : letters (onCellChanged [] ⟨[], "=".toList, condition⟩).2 = '=' :: letters condition := rfl
  rw [hletters]
  exact List.cons_ne_self _ _

end Letters

section Edits

variable {row : ℤ} {condition head later : Text} {conditions : List Text} {v v' : JoinView}

def weight (t : Text) : ℕ := (letters t).length

theorem weight_append (a b : Text) : weight (a ++ b) = weight a + weight b := by
  rw [weight, letters_append, List.length_append]
  rfl

theorem weight_newWherePart (part condition : Text) :
    weight part + weight condition ≤ weight (newWherePart part condition) := by
  rw [newWherePart, weight_append, weight_append]
  split_ifs
  · have hle := le_replaceAll weight_append (show weight ['\n'] ≤ weight " AND\n".toList by decide) part
    omega
  · rw [weight_append]
    omega

/-- An edit leaves the text as it is or adds the condition to it. -/
theorem onQueryChange_grows (h : onQueryChange row condition v = some v') :
    v'.query = v.query ∨ weight v.query + weight condition ≤ weight v'.query := by
  obtain ⟨part, -, rfl⟩ := Option.map_eq_some_iff.mp h
  by_cases hpart : part = []
  · left
    subst hpart
    exact replaceAll_nil (newWherePart [] condition) v.query
  · by_cases hinfix : part <:+: v.query
    · exact .inr (add_le_replaceAll weight_append hpart (weight_newWherePart part condition) hinfix)
    · exact .inl (replaceAll_absent hpart hinfix)

theorem weight_shown (h : ShowsConditions head (conditions ++ [condition]) later v.query) :
    weight head + weight condition + weight later + 5 ≤ weight v.query := by
  have hlength := congrArg List.length (letters_shown h)
  have hwhere : "WHERE".toList.length = 5 := rfl
  simp only [List.length_append, hwhere] at hlength
  rw [weight, weight, weight, weight, hlength]
  omega

/-- Where there is no WHERE none is made: the condition comes behind the semicolon, if it comes at all. -/
theorem clause_not_created {fixed : Text} (hwhere : find "WHERE".toList v.query = none)
    (hquery : v.query = fixed ++ [';']) (hsemicolon : ';' ∉ fixed) (hparts : v.query = head ++ later)
    (h : onQueryChange row condition v = some v') : ¬ ShowsConditions head [condition] later v'.query := by
  intro hshown
  have hlast : ShowsConditions head ([] ++ [condition]) later v'.query := hshown
  have hneeded := weight_shown hlast
  have htotal := congrArg weight hparts
  rw [weight_append] at htotal
  obtain ⟨part, hpart, rfl⟩ := Option.map_eq_some_iff.mp h
  rw [wherePart, hwhere] at hpart
  dsimp only at hpart hneeded
  split_ifs at hpart
  · obtain rfl := (Option.some.inj hpart).symm
    have hreplaced : replaceAll [';'] (newWherePart [';'] condition) v.query = fixed ++ newWherePart [';'] condition := by
      rw [hquery, replaceAll_append (avoids_of_head hsemicolon), replaceAll_whole (by simp)]
    have hnew : newWherePart [';'] condition = ";\n       ".toList ++ condition := rfl
    have hline : weight ";\n       ".toList = 1 := rfl
    have hfixed := congrArg weight hquery
    rw [weight_append] at hfixed
    have hsemi : weight [';'] = 1 := rfl
    rw [hreplaced, weight_append, hnew, weight_append, hline] at hneeded
    omega
  · obtain rfl := (Option.some.inj hpart).symm
    rw [replaceAll_nil] at hneeded
    omega

/-- An edit never puts a condition in the place of another. -/
theorem not_replaced {other : Text} (hshown : ShowsConditions head (conditions ++ [condition]) later v.query)
    (hletters : letters condition ≠ []) (hother : letters other ≠ letters condition)
    (h : onQueryChange row other v = some v') : ¬ ShowsConditions head (conditions ++ [other]) later v'.query := by
  intro hshown'
  have htext := letters_shown hshown
  have htext' := letters_shown hshown'
  rcases onQueryChange_grows h with hsame | hmore
  · rw [hsame, htext] at htext'
    exact hother (List.append_cancel_right (List.append_cancel_left htext')).symm
  · have hpos := List.length_pos_of_ne_nil hletters
    rw [weight, weight, weight, htext, htext'] at hmore
    simp only [List.length_append] at hmore
    omega

/-- No edit of a row is entered as the last conjunct so that the next one of the row takes its place. -/
theorem condition_not_entered (head later : Text) (conditions : List Text) (row : ℤ) (v : JoinView)
    (hcondition : Entered condition) :
    ¬ ∃ v₁, onQueryChange row condition v = some v₁ ∧ ShowsConditions head (conditions ++ [condition]) later v₁.query ∧
      ∀ other, Entered other →
        ∃ v₂, onQueryChange row other v₁ = some v₂ ∧ ShowsConditions head (conditions ++ [other]) later v₂.query := by
  rintro ⟨v₁, -, hshown, hagain⟩
  obtain ⟨other, hother, hdiffers⟩ := entered_differs condition
  obtain ⟨v₂, hv₂, hshown'⟩ := hagain other hother
  exact not_replaced hshown (letters_entered hcondition) hdiffers hv₂ hshown'

end Edits

def clientOnly : JoinView := ⟨"SELECT *\nFROM client;".toList, [], .empty⟩

theorem entered_idOne : Entered "client.id = 1".toList :=
  ⟨"client.id".toList, ⟨[], [], "1".toList⟩, by simp, rfl⟩

theorem id_not_entered :
    ¬ ∃ v₁, onQueryChange 0 "client.id = 1".toList clientOnly = some v₁ ∧
      ShowsConditions "SELECT *\nFROM client".toList ([] ++ ["client.id = 1".toList]) ";".toList v₁.query ∧
      ∀ other, Entered other → ∃ v₂, onQueryChange 0 other v₁ = some v₂ ∧
        ShowsConditions "SELECT *\nFROM client".toList ([] ++ [other]) ";".toList v₂.query :=
  condition_not_entered _ _ [] 0 clientOnly entered_idOne

/-- The condition is written behind the semicolon. -/
theorem condition_behind_semicolon :
    ¬ ∃ v₁, onQueryChange 0 "client.id = 1".toList clientOnly = some v₁ ∧
      ShowsConditions "SELECT *\nFROM client".toList ["client.id = 1".toList] ";".toList v₁.query := by
  rintro ⟨v₁, h, hshown⟩
  have hquery : clientOnly.query = "SELECT *\nFROM client".toList ++ [';'] := rfl
  exact clause_not_created (by decide +kernel) hquery (by decide) rfl h hshown

end DbHandler.QueryBuilder
