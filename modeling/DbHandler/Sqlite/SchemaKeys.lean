import DbHandler.Sqlite.ForeignKeyClauses

namespace DbHandler.Sqlite.ForeignKeys

open Foundation Foundation.Search
open Foundation.Sql (Place openStep placeStep placeStep_open quoteEnd scanPlaces)

/-- What a foreign key of a table says. -/
structure TextKey where
  columns : List Text
  refTable : Text
  refColumns : List Text
  deriving DecidableEq, Repr

/-- The names in the parentheses that the text begins with. -/
def namesIn (t : Text) : List Text :=
  match t.dropWhile (· = ' ') with
  | '(' :: t => ((t.takeWhile (· ≠ ')')).splitOn ',').map fun name => Item.tableName (name.dropWhile (· = ' '))
  | _ => []

def behindName : Text → Text
  | [] => []
  | c :: t =>
    match quoteEnd c with
    | some close => (t.dropWhile (· ≠ close)).tail
    | none => (c :: t).dropWhile fun d => d ≠ '(' ∧ d ≠ ' '

/-- The foreign key of a definition: a clause of its own, or the REFERENCES of a column. -/
def readKey (t : Text) : Option TextKey :=
  (find references (towupper t)).map fun i =>
    let behind := (t.drop (i + references.length)).dropWhile (· = ' ')
    { columns := match find foreignKey (towupper t) with
        | some j => namesIn (t.drop (j + foreignKey.length))
        | none => [Item.tableName (t.dropWhile (· = ' '))]
      refTable := Item.tableName behind
      refColumns := namesIn (behindName behind) }

/-- What stands behind the parenthesis that opens the column list. -/
def columnList : Option Place → Text → Text
  | _, [] => []
  | place, c :: t =>
    if c = '(' ∧ place.any (fun p => p.lexical.isOpen && p.depth == 0) = true then t
    else columnList (place.bind (placeStep · c)) t

/-- The definitions of a column list, cut at the commas that stand in it, up to its parenthesis. -/
def readItems : Option Place → Text → Text → List Text
  | _, item, [] => [item]
  | place, item, c :: t =>
    let next := place.bind (placeStep · c)
    if inList place then
      if c = ',' then item :: readItems next [] t
      else if c = ')' then [item]
      else readItems next (item ++ [c]) t
    else readItems next (item ++ [c]) t

/-- The foreign keys of a CREATE TABLE statement. -/
def keysOfText (sql : Text) : List TextKey :=
  (readItems (some ⟨.plain, 1⟩) [] (columnList (some ⟨.plain, 0⟩) sql)).filterMap readKey

/-- The text ends in the column list, and nothing before its end separates or closes. -/
def closedFrom : Option Place → Text → Bool
  | place, [] => inList place
  | place, c :: t => !(inList place && (c = ',' || c = ')')) && closedFrom (place.bind (placeStep · c)) t

namespace TableText

/-- The first column definition, without the words before the column list. -/
def firstText (d : TableText) : Text := columnList (some ⟨.plain, 0⟩) d.head.text

def definitions (d : TableText) : List Text := d.firstText :: d.items.map Item.text

/-- The parenthesis that ends the column list is the one that closes it. -/
def Closed (d : TableText) : Prop := ∀ t ∈ d.definitions, closedFrom (some ⟨.plain, 1⟩) t = true

def keys (d : TableText) : List TextKey := d.definitions.filterMap readKey

end TableText

section Reading

variable {place : Option Place} {t rest cur : Text} {c : Char}

def scanFrom (place : Option Place) (t : Text) : Option Place := place.bind (scanPlaces · t)

theorem scanFrom_cons (place : Option Place) (c : Char) (t : Text) :
    scanFrom place (c :: t) = scanFrom (place.bind (placeStep · c)) t := by
  cases place with
  | none => rfl
  | some p => rfl

theorem closedFrom_cons : closedFrom place (c :: t) = true ↔
    ¬(inList place = true ∧ (c = ',' ∨ c = ')')) ∧ closedFrom (place.bind (placeStep · c)) t = true := by
  cases hplace : inList place with
  | true => simp [closedFrom, hplace]
  | false => simp [closedFrom, hplace]

theorem inList_of_closed (h : closedFrom place t = true) : inList (scanFrom place t) = true := by
  induction t generalizing place with
  | nil =>
    cases place with
    | none => exact h
    | some p => exact h
  | cons c t ih =>
    rw [scanFrom_cons]
    exact ih (closedFrom_cons.mp h).2

theorem readItems_kept (h : ¬(inList place = true ∧ (c = ',' ∨ c = ')'))) :
    readItems place cur (c :: t) = readItems (place.bind (placeStep · c)) (cur ++ [c]) t := by
  rw [readItems]
  by_cases hin : inList place = true
  · have hc : ¬(c = ',' ∨ c = ')') := fun hc => h ⟨hin, hc⟩
    rw [not_or] at hc
    rw [if_pos hin, if_neg hc.1, if_neg hc.2]
  · exact if_neg hin

theorem readItems_closed (h : closedFrom place t = true) :
    readItems place cur (t ++ rest) = readItems (scanFrom place t) (cur ++ t) rest := by
  induction t generalizing place cur with
  | nil =>
    rw [List.nil_append, List.append_nil]
    cases place with
    | none => rfl
    | some p => rfl
  | cons c t ih =>
    rw [closedFrom_cons] at h
    rw [List.cons_append, readItems_kept h.1, ih h.2, scanFrom_cons, List.append_assoc]
    rfl

/-- After a comma of the list the place is that of its beginning. -/
theorem place_after_comma (h : inList place = true) : place.bind (placeStep · ',') = some ⟨.plain, 1⟩ := by
  obtain ⟨l, hl, rfl⟩ := TableText.inList_eq h
  exact placeStep_open hl (by decide) (by decide) 1

theorem readItems_comma (h : inList place = true) :
    readItems place cur (',' :: rest) = cur :: readItems (some ⟨.plain, 1⟩) [] rest := by
  rw [readItems, place_after_comma h]
  rw [if_pos h, if_pos rfl]

theorem readItems_close (h : inList place = true) : readItems place cur (')' :: rest) = [cur] := by
  rw [readItems]
  rw [if_pos h, if_neg (by decide), if_pos rfl]

/-- The items behind a definition, each with the comma before it. -/
def joinedAfter (items : List Text) : Text := items.flatMap (',' :: ·)

theorem readItems_definitions {first : Text} {items : List Text} (tail : Text)
    (h : ∀ t ∈ first :: items, closedFrom (some ⟨.plain, 1⟩) t = true) :
    readItems (some ⟨.plain, 1⟩) [] (first ++ (joinedAfter items ++ ')' :: tail)) = first :: items := by
  induction items generalizing first with
  | nil =>
    have hfirst := h first List.mem_cons_self
    rw [readItems_closed hfirst]
    exact readItems_close (inList_of_closed hfirst)
  | cons item items ih =>
    rw [List.forall_mem_cons] at h
    have hnext := ih h.2
    rw [readItems_closed h.1, joinedAfter, List.flatMap_cons, List.cons_append, List.cons_append,
      readItems_comma (inList_of_closed h.1), List.append_assoc]
    exact congrArg (first :: ·) hnext

theorem joinPieces_items (head : Item) (items : List Item) :
    joinPieces (piecesOf (head :: items)) = head.text ++ joinedAfter (items.map Item.text) := by
  induction items generalizing head with
  | nil => simp [piecesOf, Item.text, joinedAfter]
  | cons item items ih =>
    have hcut : joinPieces (piecesOf (head :: item :: items)) = head.text ++ ',' :: joinPieces (piecesOf (item :: items)) :=
      joinPieces_append (a := head.pieces) (List.cons_ne_nil _ _) (List.cons_ne_nil _ _)
    rw [hcut, ih]
    rfl

theorem placeStep_depth {p q : Place} (hdepth : p.depth = 0) (hopen : ¬(c = '(' ∧ p.lexical.isOpen = true))
    (h : placeStep p c = some q) : q.depth = 0 := by
  have hplain : p.lexical.isOpen = true → ∀ r, openStep p.depth c = some r → r.depth = 0 := by
    intro hl r hr
    have hc : c ≠ '(' := fun hc => hopen ⟨hc, hl⟩
    unfold openStep at hr
    rw [if_neg hc, hdepth] at hr
    split_ifs at hr <;> first | (cases hr; rfl) | (split at hr <;> cases hr <;> rfl)
  obtain ⟨l, depth⟩ := p
  cases l with
  | plain => exact hplain rfl q h
  | afterDash | afterSlash =>
    unfold placeStep at h
    dsimp only at h
    split_ifs at h
    · cases h
      exact hdepth
    · exact hplain rfl q h
  | quoted | lineComment | blockComment | afterStar =>
    unfold placeStep at h
    dsimp only at h
    split_ifs at h <;> cases h <;> exact hdepth

/-- The column list opens in a text that ends in it. -/
theorem columnList_append (hdepth : ∀ p, place = some p → p.depth = 0) (h : inList (scanFrom place t) = true) :
    columnList place (t ++ rest) = columnList place t ++ rest := by
  induction t generalizing place with
  | nil =>
    cases place with
    | none => cases h
    | some p =>
      have hone : p.depth = 1 := by
        have hin : inList (some p) = true := h
        simp [inList] at hin
        exact hin.2
      exact absurd (hdepth p rfl) (by omega)
  | cons c t ih =>
    rw [scanFrom_cons] at h
    rw [List.cons_append, columnList, columnList]
    by_cases hopen : c = '(' ∧ place.any (fun p => p.lexical.isOpen && p.depth == 0) = true
    · rw [if_pos hopen, if_pos hopen]
    · rw [if_neg hopen, if_neg hopen]
      refine ih (fun q hq => ?_) h
      obtain ⟨p, hp, hstep⟩ := Option.bind_eq_some_iff.mp hq
      refine placeStep_depth (hdepth p hp) (fun hc => hopen ⟨hc.1, ?_⟩) hstep
      rw [hp]
      simp [hc.2, hdepth p hp]

theorem keysOfText_text {d : TableText} (h : d.Closed) : keysOfText d.text = d.keys := by
  have hlist : columnList (some ⟨.plain, 0⟩) d.text =
      d.firstText ++ (joinedAfter (d.items.map Item.text) ++ ')' :: d.tail) := by
    rw [TableText.text, joinPieces_items, List.append_assoc]
    exact columnList_append (fun p hp => by cases hp; rfl) d.head_spans.1
  rw [keysOfText, hlist, readItems_definitions d.tail h]
  rfl

end Reading

section Changing

variable {d : TableText} {refTableName : Text} {item : Item}

theorem firstText_suffix (d : TableText) : d.firstText <:+ d.head.text := by
  have hsuffix (place : Option Place) (t : Text) : columnList place t <:+ t := by
    induction t generalizing place with
    | nil => exact List.suffix_rfl
    | cons c t ih =>
      rw [columnList]
      split_ifs with hopen
      · exact List.suffix_cons c t
      · exact (ih _).trans (List.suffix_cons c t)
  exact hsuffix _ _

theorem definitions_without (d : TableText) (refTableName : Text) :
    (d.without refTableName).definitions = d.firstText :: (d.items.filter (·.refTable ≠ some refTableName)).map Item.text :=
  rfl

theorem closed_without (h : d.Closed) (refTableName : Text) : (d.without refTableName).Closed := by
  intro t ht
  rw [definitions_without, List.mem_cons, List.mem_map] at ht
  obtain rfl | ⟨item, hitem, rfl⟩ := ht
  · exact h _ List.mem_cons_self
  · exact h _ (List.mem_cons_of_mem _ (List.mem_map_of_mem (List.mem_filter.mp hitem).1))

/-- No column references the table, and only the clauses do. -/
def TableText.InClauses (refTableName : Text) (d : TableText) : Prop :=
  ∀ t ∈ d.definitions, find foreignKey (towupper t) = none → ∀ key ∈ readKey t, key.refTable ≠ refTableName

theorem refTable_eq (h : find foreignKey (towupper item.text) ≠ none) :
    item.refTable = (readKey item.text).map TextKey.refTable := by
  rw [Item.refTable, if_neg h, readKey, Option.map_map]
  rfl

theorem refTable_ne_iff (h : find foreignKey (towupper item.text) = none → ∀ key ∈ readKey item.text, key.refTable ≠ refTableName) :
    item.refTable ≠ some refTableName ↔ ∀ key ∈ readKey item.text, key.refTable ≠ refTableName := by
  by_cases hclause : find foreignKey (towupper item.text) = none
  · have hnone : item.refTable = none := if_pos hclause
    rw [hnone]
    exact iff_of_true (Option.some_ne_none refTableName).symm (h hclause)
  · rw [refTable_eq hclause]
    cases readKey item.text with
    | none => simp
    | some key => simp

theorem firstText_kept (h : d.InClauses refTableName) : ∀ key ∈ readKey d.firstText, key.refTable ≠ refTableName := by
  by_cases hclause : find foreignKey (towupper d.firstText) = none
  · exact h _ List.mem_cons_self hclause
  · have hinfix : towupper d.firstText <:+: towupper d.head.text := ((firstText_suffix d).map Char.toUpper).isInfix
    have hsome (pattern : Text) (hne : pattern ≠ []) (hfind : find pattern (towupper d.firstText) ≠ none) :
        find pattern (towupper d.head.text) ≠ none := by
      rw [Ne, find_eq_none_iff hne, not_not] at hfind ⊢
      exact hfind.trans hinfix
    have hhead := d.head_refTable
    rw [Item.refTable, if_neg (hsome foreignKey (by decide) hclause), Option.map_eq_none_iff] at hhead
    have hnone : find references (towupper d.firstText) = none := by
      by_contra hfind
      exact hsome references (by decide) hfind hhead
    intro key hkey
    rw [readKey, hnone] at hkey
    cases hkey

theorem filterMap_filter_items (refTableName : Text) (items : List Item)
    (h : ∀ item ∈ items, item.refTable ≠ some refTableName ↔ ∀ key ∈ readKey item.text, key.refTable ≠ refTableName) :
    ((items.filter (·.refTable ≠ some refTableName)).map Item.text).filterMap readKey =
      ((items.map Item.text).filterMap readKey).filter (·.refTable ≠ refTableName) := by
  induction items with
  | nil => rfl
  | cons item items ih =>
    rw [List.forall_mem_cons] at h
    have hrest := ih h.2
    have hitem := h.1
    cases hkey : readKey item.text with
    | none =>
      rw [hkey] at hitem
      have hkept : item.refTable ≠ some refTableName := hitem.mpr nofun
      rw [List.filter_cons_of_pos (by simpa using hkept), List.map_cons, List.map_cons, List.filterMap_cons_none hkey,
        List.filterMap_cons_none hkey, hrest]
    | some key =>
      rw [hkey] at hitem
      rw [List.map_cons, List.filterMap_cons_some hkey]
      by_cases hsame : key.refTable = refTableName
      · have hgone : item.refTable = some refTableName := by
          by_contra hkept
          exact hitem.mp hkept key rfl hsame
        rw [List.filter_cons_of_neg (by simpa using hgone), List.filter_cons_of_neg (by simpa using hsame), hrest]
      · have hkept : item.refTable ≠ some refTableName := hitem.mpr fun key' hkey' => by
          cases hkey'
          exact hsame
        rw [List.filter_cons_of_pos (by simpa using hkept), List.filter_cons_of_pos (by simpa using hsame), List.map_cons,
          List.filterMap_cons_some hkey, hrest]

theorem keys_without (h : d.InClauses refTableName) :
    (d.without refTableName).keys = d.keys.filter (·.refTable ≠ refTableName) := by
  have hitems := filterMap_filter_items refTableName d.items fun item hitem =>
    refTable_ne_iff (h item.text (List.mem_cons_of_mem _ (List.mem_map_of_mem hitem)))
  have hfirst := firstText_kept h
  rw [TableText.keys, definitions_without, TableText.keys, TableText.definitions]
  cases hkey : readKey d.firstText with
  | none => rw [List.filterMap_cons_none hkey, List.filterMap_cons_none hkey, hitems]
  | some key =>
    rw [hkey] at hfirst
    rw [List.filterMap_cons_some hkey, List.filterMap_cons_some hkey, List.filter_cons_of_pos (by simpa using hfirst key rfl),
      hitems]

/-- A text as an item, cut at its commas. -/
def Item.ofText (t : Text) : Item :=
  match t.splitOn ',' with
  | [] => ⟨[], []⟩
  | first :: more => ⟨first, more⟩

theorem ofText_pieces (t : Text) : (Item.ofText t).pieces = t.splitOn ',' := by
  unfold Item.ofText
  cases hsplit : t.splitOn ',' with
  | nil => exact absurd hsplit (List.splitOn_ne_nil ',' t)
  | cons first more => rfl

theorem ofText_text (t : Text) : (Item.ofText t).text = t := by
  rw [Item.text, ofText_pieces]
  exact List.intercalate_splitOn ','

theorem not_mem_splitOn (t : Text) : ∀ p ∈ t.splitOn ',', ',' ∉ p := by
  induction t with
  | nil => simp
  | cons c t ih =>
    rw [List.splitOn_cons_eq_if_modifyHead]
    cases hsplit : t.splitOn ',' with
    | nil => exact absurd hsplit (List.splitOn_ne_nil ',' t)
    | cons first more =>
      rw [hsplit, List.forall_mem_cons] at ih
      by_cases hc : c = ','
      · rw [if_pos (beq_iff_eq.mpr hc)]
        simpa using ih
      · simpa [hc, Ne.symm hc] using ih

theorem closedFrom_append_cons {place : Option Place} {a b : Text} (h : closedFrom place (a ++ ',' :: b) = true) :
    inList (scanFrom place a) = false := by
  induction a generalizing place with
  | nil =>
    have hnot := (closedFrom_cons.mp h).1
    cases place with
    | none => rfl
    | some p => exact Bool.eq_false_iff.mpr fun hin => hnot ⟨hin, Or.inl rfl⟩
  | cons c a ih =>
    rw [scanFrom_cons]
    exact ih (closedFrom_cons.mp h).2

theorem spans_of_closed (h : closedFrom (some ⟨.plain, 1⟩) item.text = true) : item.Spans 1 := by
  refine ⟨inList_of_closed h, fun n hn => ?_⟩
  have hcut : item.text = joinPieces (item.first :: item.more.take n) ++ ',' :: joinPieces (item.more.drop n) := by
    rw [← joinPieces_append (List.cons_ne_nil _ _) (by simpa using hn), List.cons_append, List.take_append_drop]
    rfl
  rw [hcut] at h
  exact closedFrom_append_cons h

/-- The statement with one more definition at the end of its column list. -/
def TableText.add (d : TableText) (t : Text) (h : closedFrom (some ⟨.plain, 1⟩) t = true) : TableText where
  head := d.head
  items := d.items ++ [Item.ofText t]
  tail := d.tail
  uncut p hp := by
    have hsplit : piecesOf (d.head :: (d.items ++ [Item.ofText t])) = piecesOf (d.head :: d.items) ++ t.splitOn ',' := by
      simp [piecesOf, ofText_pieces]
    rw [hsplit, List.mem_append] at hp
    exact hp.elim (d.uncut p) (not_mem_splitOn t p)
  head_spans := d.head_spans
  head_refTable := d.head_refTable
  spans item hitem := by
    rcases List.mem_append.mp hitem with hold | hnew
    · exact d.spans item hold
    · obtain rfl := List.mem_singleton.mp hnew
      exact spans_of_closed (by rwa [ofText_text])
  tail_balanced := d.tail_balanced

variable {t : Text} (ht : closedFrom (some ⟨.plain, 1⟩) t = true)

theorem definitions_add : (d.add t ht).definitions = d.definitions ++ [t] := by
  change d.firstText :: (d.items ++ [Item.ofText t]).map Item.text = _
  rw [List.map_append, List.map_singleton, ofText_text]
  rfl

theorem closed_add (h : d.Closed) : (d.add t ht).Closed := by
  intro u hu
  rw [definitions_add, List.mem_append, List.mem_singleton] at hu
  obtain hold | rfl := hu
  · exact h u hold
  · exact ht

theorem keys_add : (d.add t ht).keys = d.keys ++ (readKey t).toList := by
  rw [TableText.keys, definitions_add, List.filterMap_append]
  cases hkey : readKey t with
  | none => rw [List.filterMap_cons_none hkey]; rfl
  | some key => rw [List.filterMap_cons_some hkey]; rfl

theorem text_add (htail : d.tail = []) : (d.add t ht).text = d.text.dropLast ++ ',' :: (t ++ ")".toList) := by
  have hjoin : joinPieces (piecesOf (d.head :: (d.items ++ [Item.ofText t]))) =
      joinPieces (piecesOf (d.head :: d.items)) ++ ',' :: t := by
    rw [joinPieces_items, joinPieces_items, List.map_append, List.map_singleton, ofText_text, joinedAfter,
      List.flatMap_append, List.append_assoc]
    simp [joinedAfter]
  rw [TableText.text, TableText.text, htail, List.dropLast_concat]
  change joinPieces (piecesOf (d.head :: (d.items ++ [Item.ofText t]))) ++ ')' :: d.tail = _
  rw [hjoin, htail]
  simp

end Changing

end DbHandler.Sqlite.ForeignKeys
