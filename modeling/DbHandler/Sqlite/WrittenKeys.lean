import DbHandler.Sqlite.SchemaKeys

namespace DbHandler.Sqlite.ForeignKeys

open Foundation Foundation.Search
open AlterTable (ForeignKeyCall)
open Foundation.Sql (Place openStep placeStep quoteEnd)

/-- A character of a name that needs no quotes. -/
def nameChar (c : Char) : Bool := c.isAlphanum || c == '_' || c == '$' || decide (128 ≤ c.toNat)

def wordChar (c : Char) : Bool := nameChar c || c == ' '

def Bare (name : Text) : Prop := name ≠ [] ∧ name.all nameChar = true

instance (name : Text) : Decidable (Bare name) := inferInstanceAs (Decidable (_ ∧ _))

/-- The clause means what the call says where its names need no quotes. -/
structure Writable (c : ForeignKeyCall) (fk : FKField) (fks : List FKField) : Prop where
  keyName : c.keyName.all nameChar = true
  keyName_end : ¬ "REFERENCES".toList <:+ towupper c.keyName
  originalField : ∀ f ∈ fk :: fks, Bare f.originalField
  referencedField : ∀ f ∈ fk :: fks, Bare f.referencedField
  refTable : Bare fk.refTable
  same_table : ∀ f ∈ fks, f.refTable = fk.refTable

def clauseStart (c : ForeignKeyCall) : Text :=
  if c.keyName ≠ [] then " ".toList ++ ("CONSTRAINT".toList ++ (" ".toList ++ (c.keyName ++ " ".toList))) else " ".toList

def actions (c : ForeignKeyCall) : Text :=
  actionClause " ON DELETE ".toList c.deleteProp ++ actionClause " ON UPDATE ".toList c.updateProp

/-- The clause as a definition of the column list. -/
def clauseText (c : ForeignKeyCall) (fk : FKField) (fks : List FKField) : Text :=
  clauseStart c ++ (foreignKey ++ '(' :: (columnNames ((fk :: fks).map FKField.originalField) ++ ' ' :: (references ++
    (fk.refTable ++ '(' :: (columnNames ((fk :: fks).map FKField.referencedField) ++ actions c)))))

theorem constraintClause_eq (c : ForeignKeyCall) (fk : FKField) (fks : List FKField) :
    constraintClause c fk fks = ',' :: (clauseText c fk fks ++ ")".toList) := by
  have hreferences : " REFERENCES ".toList = ' ' :: references := rfl
  have hopen : "(".toList = ['('] := rfl
  unfold constraintClause clauseText clauseStart actions
  rw [hreferences, hopen]
  split_ifs with hname
  · have hstart : ", CONSTRAINT ".toList = ',' :: ' ' :: ("CONSTRAINT".toList ++ " ".toList) := rfl
    have hkey : " FOREIGN KEY(".toList = ' ' :: (foreignKey ++ ['(']) := rfl
    rw [hstart, hkey]
    simp only [List.append_assoc, List.cons_append, List.nil_append]
    rfl
  · have hkey : ", FOREIGN KEY(".toList = ',' :: ' ' :: (foreignKey ++ ['(']) := rfl
    rw [hkey]
    simp only [List.append_assoc, List.cons_append, List.nil_append]
    rfl

section Characters

variable {ch : Char} {t a b : Text} {n : ℕ}

theorem ne_of_nameChar {d : Char} (h : nameChar ch = true) (hd : nameChar d = false) : ch ≠ d := by
  rintro rfl
  exact Bool.noConfusion (h.symm.trans hd)

theorem not_mem_bare {d : Char} (h : t.all nameChar = true) (hd : nameChar d = false) : d ∉ t := fun hmem =>
  ne_of_nameChar (List.all_eq_true.mp h d hmem) hd rfl

theorem openStep_nameChar (h : nameChar ch = true) (n : ℕ) : openStep n ch = some ⟨.plain, n⟩ := by
  have hne (d : Char) (hd : nameChar d = false) : ch ≠ d := ne_of_nameChar h hd
  have hquote : quoteEnd ch = none := by
    unfold quoteEnd
    rw [if_neg, if_neg (hne _ rfl)]
    rintro (hq | hq | hq)
    · exact hne _ rfl hq
    · exact hne _ rfl hq
    · exact hne _ rfl hq
  unfold openStep
  rw [if_neg (hne _ rfl), if_neg (hne _ rfl), if_neg (hne _ rfl), if_neg (hne _ rfl), hquote]

theorem openStep_wordChar (h : wordChar ch = true) (n : ℕ) : openStep n ch = some ⟨.plain, n⟩ := by
  rw [wordChar, Bool.or_eq_true, beq_iff_eq] at h
  obtain hname | rfl := h
  · exact openStep_nameChar hname n
  · rfl

theorem closedFrom_skip (h : ∀ ch ∈ a, openStep n ch = some ⟨.plain, n⟩) (hcomma : n = 1 → ',' ∉ a) (b : Text) :
    closedFrom (some ⟨.plain, n⟩) (a ++ b) = closedFrom (some ⟨.plain, n⟩) b := by
  induction a with
  | nil => rfl
  | cons ch a ih =>
    rw [List.forall_mem_cons] at h
    have hstep : (some (⟨.plain, n⟩ : Place)).bind (placeStep · ch) = some ⟨.plain, n⟩ := h.1
    have hkept : (inList (some ⟨.plain, n⟩) && (ch = ',' || ch = ')')) = false := by
      by_cases hn : n = 1
      · have hnot : ch ≠ ',' := fun hch => hcomma hn (hch ▸ List.mem_cons_self)
        have hclose : ch ≠ ')' := by
          rintro rfl
          have hone := h.1
          rw [hn] at hone
          exact absurd hone (by decide)
        simp [hnot, hclose]
      · simp [inList, hn]
    rw [List.cons_append, closedFrom, hkept, hstep, ih h.2 fun hn hmem => hcomma hn (List.mem_cons_of_mem _ hmem)]
    rfl

theorem closedFrom_words (h : a.all wordChar = true) (b : Text) :
    closedFrom (some ⟨.plain, 1⟩) (a ++ b) = closedFrom (some ⟨.plain, 1⟩) b := by
  rw [List.all_eq_true] at h
  exact closedFrom_skip (fun ch hch => openStep_wordChar (h ch hch) 1) (fun _ hmem => absurd (h _ hmem) (by decide)) b

theorem all_wordChar (h : t.all nameChar = true) : t.all wordChar = true := by
  rw [List.all_eq_true] at h ⊢
  intro ch hch
  rw [wordChar, h ch hch]
  rfl

theorem blank_not_mem_towupper (h : t.all nameChar = true) : ' ' ∉ towupper t := by
  intro hmem
  obtain ⟨ch, hch, heq⟩ := List.mem_map.mp hmem
  rw [toUpper_eq_iff (by decide)] at heq
  subst heq
  exact not_mem_bare h rfl hch

theorem towupper_append (a b : Text) : towupper (a ++ b) = towupper a ++ towupper b := List.map_append

end Characters

section Names

variable {name : Text} {names : List Text} {rest : Text}

/-- The names of a list as they stand between its commas. -/
def spaced : List Text → List Text
  | [] => []
  | name :: names => name :: names.map (' ' :: ·)

theorem columnNames_eq (h : names ≠ []) : columnNames names = joinPieces (spaced names) ++ ")".toList := by
  induction names with
  | nil => exact absurd rfl h
  | cons name names ih =>
    cases names with
    | nil => simp [columnNames, spaced, joinPieces]
    | cons name' names =>
      change name ++ ", ".toList ++ columnNames (name' :: names) = _
      rw [ih (List.cons_ne_nil _ _)]
      cases names <;> simp [spaced, joinPieces]

theorem spaced_ne_nil (h : names ≠ []) : spaced names ≠ [] := by
  cases names with
  | nil => exact absurd rfl h
  | cons name names => exact List.cons_ne_nil _ _

theorem mem_spaced {t : Text} (h : t ∈ spaced names) : ∃ name ∈ names, t = name ∨ t = ' ' :: name := by
  cases names with
  | nil => cases h
  | cons name names =>
    rw [spaced, List.mem_cons, List.mem_map] at h
    obtain rfl | ⟨name', hmem, rfl⟩ := h
    · exact ⟨t, List.mem_cons_self, .inl rfl⟩
    · exact ⟨name', List.mem_cons_of_mem _ hmem, .inr rfl⟩

theorem not_mem_spaced (h : ∀ name ∈ names, Bare name) {d : Char} (hd : wordChar d = false) :
    ∀ t ∈ spaced names, d ∉ t := by
  have hname : nameChar d = false := (Bool.or_eq_false_iff.mp hd).1
  have hblank : d ≠ ' ' := by
    rintro rfl
    exact absurd hd (by decide)
  intro t ht hmem
  obtain ⟨name, hmem', rfl | rfl⟩ := mem_spaced ht
  · exact not_mem_bare (h _ hmem').2 hname hmem
  · rw [List.mem_cons] at hmem
    exact hmem.elim hblank (not_mem_bare (h _ hmem').2 hname)

theorem not_mem_joinPieces {pieces : List Text} {d : Char} (hd : d ≠ ',') (h : ∀ t ∈ pieces, d ∉ t) :
    d ∉ joinPieces pieces := by
  induction pieces with
  | nil => exact List.not_mem_nil
  | cons p pieces ih =>
    rw [List.forall_mem_cons] at h
    cases pieces with
    | nil => simpa [joinPieces] using h.1
    | cons q pieces =>
      have hcut : joinPieces (p :: q :: pieces) = p ++ ',' :: joinPieces (q :: pieces) := by simp [joinPieces]
      rw [hcut, List.mem_append, List.mem_cons, not_or, not_or]
      exact ⟨h.1, hd, ih h.2⟩

/-- A bare name is read up to the parenthesis or the end. -/
theorem tableName_bare (h : Bare name) (hrest : rest = [] ∨ ∃ t, rest = '(' :: t) :
    Item.tableName (name ++ rest) = name ∧ behindName (name ++ rest) = rest := by
  obtain ⟨ch, t, rfl⟩ := List.exists_cons_of_ne_nil h.1
  have hall := h.2
  have hquote : quoteEnd ch = none := by
    have hfirst : nameChar ch = true := List.all_eq_true.mp hall ch List.mem_cons_self
    unfold quoteEnd
    rw [if_neg, if_neg (ne_of_nameChar hfirst rfl)]
    rintro (hq | hq | hq)
    · exact ne_of_nameChar hfirst rfl hq
    · exact ne_of_nameChar hfirst rfl hq
    · exact ne_of_nameChar hfirst rfl hq
  have hchars : ∀ d ∈ ch :: t, decide (d ≠ '(' ∧ d ≠ ' ') = true := by
    intro d hd
    have hname := List.all_eq_true.mp hall d hd
    exact decide_eq_true ⟨ne_of_nameChar hname rfl, ne_of_nameChar hname rfl⟩
  have hstop : rest.takeWhile (fun d => d ≠ '(' ∧ d ≠ ' ') = [] ∧ rest.dropWhile (fun d => d ≠ '(' ∧ d ≠ ' ') = rest := by
    obtain rfl | ⟨u, rfl⟩ := hrest
    · exact ⟨rfl, rfl⟩
    · exact ⟨rfl, rfl⟩
  rw [List.cons_append, Item.tableName, behindName, hquote]
  constructor
  · change List.takeWhile _ ((ch :: t) ++ rest) = _
    rw [List.takeWhile_append_of_pos hchars, hstop.1, List.append_nil]
  · change List.dropWhile _ ((ch :: t) ++ rest) = _
    rw [List.dropWhile_append_of_pos hchars, hstop.2]

theorem dropWhile_bare (h : Bare name) (rest : Text) : (name ++ rest).dropWhile (· = ' ') = name ++ rest := by
  obtain ⟨ch, t, rfl⟩ := List.exists_cons_of_ne_nil h.1
  have hch : ch ≠ ' ' := ne_of_nameChar (List.all_eq_true.mp h.2 ch List.mem_cons_self) rfl
  exact List.dropWhile_cons_of_neg (by simpa using hch)

theorem read_spaced (h : ∀ name ∈ names, Bare name) :
    (spaced names).map (fun name => Item.tableName (name.dropWhile (· = ' '))) = names := by
  have hread (name : Text) (hname : Bare name) : Item.tableName (name.dropWhile (· = ' ')) = name := by
    have hdrop := dropWhile_bare hname []
    have hbare := (tableName_bare hname (.inl rfl)).1
    rw [List.append_nil] at hdrop hbare
    rw [hdrop, hbare]
  cases names with
  | nil => rfl
  | cons name names =>
    rw [List.forall_mem_cons] at h
    rw [spaced, List.map_cons, hread name h.1, List.map_map]
    refine congrArg (name :: ·) ((List.map_congr_left fun name' hname' => ?_).trans (List.map_id _))
    change Item.tableName ((' ' :: name').dropWhile (· = ' ')) = name'
    rw [List.dropWhile_cons_of_pos rfl]
    exact hread name' (h.2 name' hname')

theorem namesIn_columnNames (hne : names ≠ []) (h : ∀ name ∈ names, Bare name) (rest : Text) :
    namesIn ('(' :: (columnNames names ++ rest)) = names := by
  have hinner : ')' ∉ joinPieces (spaced names) := not_mem_joinPieces (by decide) (not_mem_spaced h rfl)
  have htake : (columnNames names ++ rest).takeWhile (· ≠ ')') = joinPieces (spaced names) := by
    rw [columnNames_eq hne, List.append_assoc]
    exact Separators.before_append hinner
  have hsplit : (joinPieces (spaced names)).splitOn ',' = spaced names :=
    List.splitOn_intercalate ',' (not_mem_spaced h rfl) (spaced_ne_nil hne)
  rw [namesIn, List.dropWhile_cons_of_neg (by decide)]
  change ((List.takeWhile _ (columnNames names ++ rest)).splitOn ',').map _ = names
  rw [htake, hsplit]
  exact read_spaced h

/-- The names end with the parenthesis of their list. -/
theorem closedFrom_columnNames (hne : names ≠ []) (h : ∀ name ∈ names, Bare name) (rest : Text) :
    closedFrom (some ⟨.plain, 1⟩) ('(' :: (columnNames names ++ rest)) = closedFrom (some ⟨.plain, 1⟩) rest := by
  have hskip : ∀ ch ∈ joinPieces (spaced names), openStep 2 ch = some ⟨.plain, 2⟩ := by
    intro ch hch
    by_cases hcomma : ch = ','
    · rw [hcomma]
      rfl
    · by_contra hstep
      have hword : wordChar ch = false := Bool.eq_false_iff.mpr fun hword => hstep (openStep_wordChar hword 2)
      exact not_mem_joinPieces hcomma (not_mem_spaced h hword) hch
  have hinner := closedFrom_skip hskip (fun htwo => absurd htwo (by decide)) (")".toList ++ rest)
  rw [columnNames_eq hne, List.append_assoc]
  exact hinner

end Names

section Clause

variable {c : ForeignKeyCall} {fk : FKField} {fks : List FKField} {names : List Text} {u rest : Text}

theorem not_suffix_of_last {w a : Text} {x y : Char} (hw : w.getLast? = some x) (hxy : x ≠ y) : ¬ w <:+ a ++ [y] := by
  rintro ⟨v, hv⟩
  have hlast := congrArg List.getLast? hv
  rw [List.getLast?_append, hw, List.getLast?_concat, Option.some_or] at hlast
  exact hxy (Option.some.inj hlast)

theorem references_eq : references = "REFERENCES".toList ++ ' ' :: [] := rfl

theorem foreignKey_eq : foreignKey = "FOREIGN".toList ++ ' ' :: "KEY".toList := rfl

theorem avoids_blank (a : Text) : Avoids references [' '] a := avoids_of_head (by decide)

/-- A name of a list does not end with the word, since a comma or a parenthesis is behind it. -/
theorem avoids_columnNames (hne : names ≠ []) (h : ∀ name ∈ names, Bare name) (hu : ' ' ∉ u) (rest : Text) :
    Avoids references (u ++ towupper (columnNames names)) (' ' :: rest) := by
  induction names generalizing u with
  | nil => exact absurd rfl hne
  | cons name names ih =>
    rw [List.forall_mem_cons] at h
    have hname : ' ' ∉ towupper name := blank_not_mem_towupper h.1.2
    have hword (x : Char) (hx : x ≠ 'S') (hblank : x ≠ ' ') (t : Text) :
        Avoids references (u ++ (towupper name ++ [x])) (' ' :: t) := by
      rw [references_eq, ← List.append_assoc]
      refine avoids_of_suffix (by decide) ?_ (not_suffix_of_last rfl hx.symm)
      simp [hu, hname, hblank.symm]
    cases names with
    | nil =>
      have hupper : towupper (columnNames [name]) = towupper name ++ [')'] := towupper_append name _
      rw [hupper]
      exact hword ')' (by decide) (by decide) rest
    | cons name' names =>
      have hupper : towupper (columnNames (name :: name' :: names)) =
          towupper name ++ [','] ++ ' ' :: towupper (columnNames (name' :: names)) := by
        change towupper (name ++ ", ".toList ++ columnNames (name' :: names)) = _
        rw [towupper_append, towupper_append, List.append_assoc, List.append_assoc]
        rfl
      have hnext := ih (List.cons_ne_nil _ _) h.2 (u := []) List.not_mem_nil
      rw [List.nil_append] at hnext
      rw [hupper, ← List.append_assoc, avoids_append]
      refine ⟨hword ',' (by decide) (by decide) _, ?_⟩
      exact avoids_append.mpr ⟨avoids_blank _, hnext⟩

theorem avoids_clauseStart {w q : Text} (hw : ' ' ∉ w) (hne : w ≠ []) (hword : ¬ w <:+ "CONSTRAINT".toList)
    (hname : Avoids (w ++ ' ' :: q) (towupper c.keyName) (' ' :: rest)) :
    Avoids (w ++ ' ' :: q) (towupper (clauseStart c)) rest := by
  have hblank (t : Text) : Avoids (w ++ ' ' :: q) [' '] t := by
    obtain ⟨ch, w, rfl⟩ := List.exists_cons_of_ne_nil hne
    exact avoids_of_head fun hmem => hw (List.mem_singleton.mp hmem ▸ List.mem_cons_self)
  unfold clauseStart
  split_ifs with hempty
  · rw [towupper_append, towupper_append, towupper_append, towupper_append]
    change Avoids _ ([' '] ++ ("CONSTRAINT".toList ++ ([' '] ++ (towupper c.keyName ++ [' '])))) rest
    rw [avoids_append, avoids_append, avoids_append, avoids_append]
    exact ⟨hblank _, avoids_of_suffix hw (by decide) hword, hblank _, hname, hblank _⟩
  · exact hblank _

/-- What stands before `REFERENCES ` in the clause. -/
def clauseColumns (c : ForeignKeyCall) (fk : FKField) (fks : List FKField) : Text :=
  clauseStart c ++ (foreignKey ++ '(' :: (columnNames ((fk :: fks).map FKField.originalField) ++ " ".toList))

def clauseTable (c : ForeignKeyCall) (fk : FKField) (fks : List FKField) : Text :=
  fk.refTable ++ '(' :: (columnNames ((fk :: fks).map FKField.referencedField) ++ actions c)

theorem clauseText_eq (c : ForeignKeyCall) (fk : FKField) (fks : List FKField) :
    clauseText c fk fks = clauseColumns c fk fks ++ (references ++ clauseTable c fk fks) := by
  simp only [clauseText, clauseColumns, clauseTable, List.append_assoc, List.cons_append]
  rfl

theorem bare_columns (h : Writable c fk fks) : ∀ name ∈ (fk :: fks).map FKField.originalField, Bare name := by
  rw [List.forall_mem_map]
  exact h.originalField

theorem bare_refColumns (h : Writable c fk fks) : ∀ name ∈ (fk :: fks).map FKField.referencedField, Bare name := by
  rw [List.forall_mem_map]
  exact h.referencedField

theorem map_ne_nil (f : FKField → Text) : (fk :: fks).map f ≠ [] := List.cons_ne_nil _ _

theorem find_clause_references (h : Writable c fk fks) :
    find references (towupper (clauseText c fk fks)) = some (clauseColumns c fk fks).length := by
  have hupper : towupper (clauseColumns c fk fks) = towupper (clauseStart c) ++ ("FOREIGN".toList ++ ([' '] ++
      ("KEY(".toList ++ towupper (columnNames ((fk :: fks).map FKField.originalField)) ++ [' ']))) := by
    have hopen (t : Text) : towupper ('(' :: (t ++ " ".toList)) = '(' :: (towupper t ++ [' ']) :=
      congrArg ('(' :: ·) (towupper_append t _)
    simp only [clauseColumns, towupper_append, hopen, List.append_assoc]
    rfl
  have havoids (rest : Text) : Avoids references (towupper (clauseColumns c fk fks)) rest := by
    rw [hupper, avoids_append, avoids_append, avoids_append, avoids_append]
    refine ⟨?_, ?_, avoids_blank _, avoids_columnNames (map_ne_nil _) (bare_columns h) (by decide) _, avoids_blank _⟩
    · refine avoids_clauseStart (w := "REFERENCES".toList) (q := []) (by decide) (by decide) (by decide) ?_
      exact avoids_of_suffix (by decide) (blank_not_mem_towupper h.keyName) h.keyName_end
    · exact avoids_of_suffix (w := "REFERENCES".toList) (q := []) (by decide) (by decide) (by decide)
  have hreferences : towupper references = references := by decide
  rw [clauseText_eq, towupper_append, towupper_append, hreferences, find_at (havoids _) (List.prefix_append _ _),
    length_towupper]

theorem find_clause_foreignKey (h : Writable c fk fks) :
    find foreignKey (towupper (clauseText c fk fks)) = some (clauseStart c).length := by
  have hforeignKey : towupper foreignKey = foreignKey := by decide
  have hkey (rest : Text) : ¬ "KEY".toList <+: foreignKey ++ rest := fun hprefix => by
    cases (List.cons_prefix_cons.mp hprefix).1
  have havoids (rest : Text) : Avoids foreignKey (towupper (clauseStart c)) (foreignKey ++ rest) := by
    refine avoids_clauseStart (w := "FOREIGN".toList) (by decide) (by decide) (by decide) ?_
    exact avoids_of_word (by decide) (blank_not_mem_towupper h.keyName) (hkey rest)
  rw [clauseText, towupper_append, towupper_append, hforeignKey, find_at (havoids _) (List.prefix_append _ _),
    length_towupper]

/-- The clause that a call writes reads as its foreign key. -/
theorem readKey_clause (h : Writable c fk fks) : readKey (clauseText c fk fks) =
    some { columns := (fk :: fks).map FKField.originalField
           refTable := fk.refTable
           refColumns := (fk :: fks).map FKField.referencedField } := by
  have hcolumns : namesIn ((clauseText c fk fks).drop ((clauseStart c).length + foreignKey.length)) =
      (fk :: fks).map FKField.originalField := by
    rw [clauseText, ← List.append_assoc, ← List.length_append, List.drop_left]
    exact namesIn_columnNames (map_ne_nil _) (bare_columns h) _
  have hbehind : ((clauseText c fk fks).drop ((clauseColumns c fk fks).length + references.length)).dropWhile (· = ' ') =
      clauseTable c fk fks := by
    rw [clauseText_eq, ← List.append_assoc, ← List.length_append, List.drop_left]
    exact dropWhile_bare h.refTable _
  obtain ⟨htable, hnames⟩ := tableName_bare h.refTable
    (.inr ⟨columnNames ((fk :: fks).map FKField.referencedField) ++ actions c, rfl⟩)
  rw [readKey, find_clause_references h, find_clause_foreignKey h, Option.map_some]
  dsimp only
  rw [hcolumns, hbehind]
  unfold clauseTable
  rw [htable, hnames, namesIn_columnNames (map_ne_nil _) (bare_refColumns h)]

theorem actions_words (c : ForeignKeyCall) : (actions c).all wordChar = true := by
  have hclause (clause : Text) (hclause : clause.all wordChar = true) (prop : ℤ) :
      (actionClause clause prop).all wordChar = true := by
    have hname : (actionName prop).all wordChar = true := by
      unfold actionName
      split <;> decide
    unfold actionClause
    split_ifs
    · rw [List.all_append, hclause, hname]
      rfl
    · rfl
  rw [actions, List.all_append, hclause _ (by decide), hclause _ (by decide)]
  rfl

theorem clauseStart_words (h : Writable c fk fks) : (clauseStart c).all wordChar = true := by
  unfold clauseStart
  split_ifs
  · simp only [List.all_append, all_wordChar h.keyName]
    decide
  · decide

theorem closedFrom_clause (h : Writable c fk fks) : closedFrom (some ⟨.plain, 1⟩) (clauseText c fk fks) = true := by
  have hstart : (clauseStart c ++ foreignKey).all wordChar = true := by
    rw [List.all_append, clauseStart_words h]
    decide
  have htable : (" ".toList ++ (references ++ fk.refTable)).all wordChar = true := by
    rw [List.all_append, List.all_append, all_wordChar h.refTable.2]
    decide
  have hmiddle (rest : Text) : ' ' :: (references ++ (fk.refTable ++ rest)) = " ".toList ++ (references ++ fk.refTable) ++ rest := by
    rw [List.append_assoc, List.append_assoc]
    rfl
  have hactions := closedFrom_words (actions_words c) []
  rw [List.append_nil] at hactions
  rw [clauseText, ← List.append_assoc, closedFrom_words hstart, closedFrom_columnNames (map_ne_nil _) (bare_columns h),
    hmiddle, closedFrom_words htable, closedFrom_columnNames (map_ne_nil _) (bare_refColumns h), hactions]
  rfl

end Clause

end DbHandler.Sqlite.ForeignKeys
