import DbHandler.Foundation.Sql.Parentheses
import DbHandler.Sqlite.ForeignKeyText

namespace DbHandler.Sqlite.ForeignKeys

open Foundation Foundation.Search
open Foundation.Sql (Balanced Lexical Place placeStep_open quoteEnd scanPlaces scanPlaces_append scanPlaces_cons)

/-- A place in the column list that is in none of its definitions. -/
def inList (place : Option Place) : Bool := place.any fun p => p.lexical.isOpen && p.depth == 1

def joinPieces (pieces : List Text) : Text := [','].intercalate pieces

theorem joinPieces_append {a b : List Text} (ha : a ≠ []) (hb : b ≠ []) :
    joinPieces (a ++ b) = joinPieces a ++ ',' :: joinPieces b := by
  unfold joinPieces
  induction a with
  | nil => exact absurd rfl ha
  | cons p a ih =>
    cases a with
    | nil => rw [List.singleton_append, List.intercalate_cons_of_ne_nil hb, List.intercalate_singleton]; simp
    | cons q a =>
      rw [List.cons_append, List.intercalate_cons_of_ne_nil (List.append_ne_nil_of_left_ne_nil (List.cons_ne_nil q a) b),
        ih (List.cons_ne_nil q a), List.intercalate_cons_cons]
      simp

/-- A column definition or a constraint, cut at its commas. -/
structure Item where
  first : Text
  more : List Text
  deriving DecidableEq, Repr

namespace Item

def pieces (item : Item) : List Text := item.first :: item.more

def text (item : Item) : Text := joinPieces item.pieces

/-- The name of a table up to the blank or the parenthesis behind it, without its quotes. -/
def tableName : Text → Text
  | [] => []
  | c :: t =>
    match quoteEnd c with
    | some close => t.takeWhile (· ≠ close)
    | none => (c :: t).takeWhile fun d => d ≠ '(' ∧ d ≠ ' '

/-- The table that a FOREIGN KEY clause references. -/
def refTable (item : Item) : Option Text :=
  if find foreignKey (towupper item.text) = none then none
  else (find references (towupper item.text)).map fun i =>
    tableName ((item.text.drop (i + references.length)).dropWhile (· = ' '))

/-- The item is followed by a comma of the column list; the commas in it stand in parentheses or in quotes. -/
def Spans (depth : ℕ) (item : Item) : Prop :=
  inList (scanPlaces ⟨.plain, depth⟩ item.text) = true ∧
    ∀ n < item.more.length,
      inList (scanPlaces ⟨.plain, depth⟩ (joinPieces (item.first :: item.more.take n))) = false

instance (depth : ℕ) (item : Item) : Decidable (item.Spans depth) := inferInstanceAs (Decidable (_ ∧ _))

end Item

def piecesOf (items : List Item) : List Text := items.flatMap Item.pieces

/-- A statement: `head` reaches from its start to the end of the first column definition, and `tail` is what
stands behind the parenthesis that closes the column list. -/
structure TableText where
  head : Item
  items : List Item
  tail : Text
  uncut : ∀ p ∈ piecesOf (head :: items), ',' ∉ p
  head_spans : head.Spans 0
  head_refTable : head.refTable = none
  spans : ∀ item ∈ items, item.Spans 1
  tail_balanced : Balanced tail

namespace TableText

def text (d : TableText) : Text := joinPieces (piecesOf (d.head :: d.items)) ++ ')' :: d.tail

/-- The statement without the FOREIGN KEY clauses that reference the table, and their commas. -/
def without (d : TableText) (refTableName : Text) : TableText where
  head := d.head
  items := d.items.filter (·.refTable ≠ some refTableName)
  tail := d.tail
  uncut p hp := by
    apply d.uncut p
    simp only [piecesOf, List.flatMap_cons, List.mem_append, List.mem_flatMap, List.mem_filter] at hp ⊢
    rcases hp with hp | ⟨item, ⟨hitem, -⟩, hp⟩
    · exact .inl hp
    · exact .inr ⟨item, hitem, hp⟩
  head_spans := d.head_spans
  head_refTable := d.head_refTable
  spans item hitem := d.spans item (List.mem_filter.mp hitem).1
  tail_balanced := d.tail_balanced

theorem inList_eq {place : Option Place} (h : inList place = true) :
    ∃ l : Lexical, l.isOpen = true ∧ place = some ⟨l, 1⟩ := by
  cases place with
  | none => cases h
  | some p =>
    obtain ⟨l, depth⟩ := p
    obtain ⟨hl, hdepth⟩ : l.isOpen = true ∧ depth = 1 := by simpa [inList] using h
    exact ⟨l, hl, by rw [hdepth]⟩

theorem scan_items {items : List Item} (h : ∀ item ∈ items, item.Spans 1) {depth : ℕ} {head : Item}
    (hhead : head.Spans depth) : inList (scanPlaces ⟨.plain, depth⟩ (joinPieces (piecesOf (head :: items)))) = true := by
  induction items generalizing depth head with
  | nil => simpa [piecesOf, Item.text] using hhead.1
  | cons item items ih =>
    have hne : piecesOf (item :: items) ≠ [] := List.cons_ne_nil _ _
    have hnext := ih (fun i hi => h i (List.mem_cons_of_mem _ hi)) (h item List.mem_cons_self)
    have hcut : joinPieces (piecesOf (head :: item :: items)) = head.text ++ ',' :: joinPieces (piecesOf (item :: items)) :=
      joinPieces_append (a := head.pieces) (List.cons_ne_nil _ _) hne
    obtain ⟨l, hl, hplace⟩ := inList_eq hhead.1
    rw [hcut, scanPlaces_append, hplace, Option.bind_some, scanPlaces_cons, placeStep_open hl (by decide) (by decide)]
    exact hnext

/-- The parentheses of the statement are balanced. -/
theorem text_balanced (d : TableText) : Balanced d.text := by
  obtain ⟨l, hl, hplace⟩ := inList_eq (scan_items d.spans d.head_spans)
  obtain ⟨l', hl', htail⟩ := d.tail_balanced
  refine ⟨l', hl', ?_⟩
  rw [text, scanPlaces_append, hplace, Option.bind_some, scanPlaces_cons, placeStep_open hl (by decide) (by decide)]
  exact htail

end TableText

/-- What `keyTemp` still holds of the clauses before: nothing, or clauses that are to be dropped or kept,
with the place of `REFERENCES ` in them. -/
inductive Waiting where
  | nothing
  | dropped (pos : ℕ)
  | kept (pos : ℕ)
  deriving DecidableEq, Repr

namespace Waiting

def pos : Waiting → Option ℕ
  | nothing => none
  | dropped pos => some pos
  | kept pos => some pos

def owes : Waiting → Bool
  | kept _ => true
  | _ => false

def ofDropped : Option ℕ → Waiting
  | none => nothing
  | some pos => dropped pos

end Waiting

/-- A clause of one piece whose name is read at `pos`, and what waits after it; a clause that does not end
with a parenthesis waits for the next one. -/
def keepClause (refTableName : Text) (pos : ℕ) (p : Text) : Option Waiting :=
  if Named pos p then
    if p.getLast? = some ')' then if nameAt pos p = refTableName then none else some .nothing
    else some (.kept pos)
  else none

/-- The last piece with the parenthesis of the column list behind it. -/
def closeLast : List Text → List Text
  | [] => [")".toList]
  | [p] => [p ++ ")".toList]
  | p :: q :: pieces => p :: closeLast (q :: pieces)

/-- The items from which the loop takes the clauses that reference the table, and nothing else; several such
clauses may be read as one. The last items have to be such clauses: `finishSql` puts a parenthesis in the
place of the last comma. -/
inductive Removes (keys : ℕ) (refTableName : Text) : Waiting → List Item → Prop
  | last {w : Waiting} {gone : List Item} {p : Text} {more : List Text} {pos : Option ℕ} (howes : w.owes = false)
      (hgone : ∀ item ∈ gone, item.refTable = some refTableName) (hpieces : closeLast (piecesOf gone) = p :: more)
      (hblank : ¬ Blank p) (hkey : IsKey p) (hclause : clause keys refTableName w.pos p more = some (pos, false, [])) :
      Removes keys refTableName w gone
  | plain {w : Waiting} {item : Item} {rest : List Item} (howes : w.owes = false)
      (hkept : item.refTable ≠ some refTableName) (hpieces : ∀ p ∈ item.pieces, ¬ Blank p ∧ ¬ IsKey p)
      (hrest : Removes keys refTableName w rest) : Removes keys refTableName w (item :: rest)
  | drop {w : Waiting} {item : Item} {gone rest : List Item} {pos : Option ℕ} (howes : w.owes = false)
      (hgone : ∀ i ∈ item :: gone, i.refTable = some refTableName) (hblank : ¬ Blank item.first)
      (hkey : IsKey item.first)
      (hclause : clause keys refTableName w.pos item.first (item.more ++ (piecesOf gone ++ closeLast (piecesOf rest))) =
        some (pos, false, closeLast (piecesOf rest)))
      (hrest : Removes keys refTableName (.ofDropped pos) rest) :
      Removes keys refTableName w (item :: (gone ++ rest))
  | keep {w w' : Waiting} {item : Item} {rest : List Item} {pos : ℕ} (hwaits : ∀ pos, w ≠ .dropped pos)
      (hkept : item.refTable ≠ some refTableName) (hsingle : item.more = []) (hblank : ¬ Blank item.first)
      (hkey : IsKey item.first) (hpos : (w.pos <|> find references item.first) = some pos)
      (hclause : keepClause refTableName pos item.first = some w') (hrest : Removes keys refTableName w' rest) :
      Removes keys refTableName w (item :: rest)

/-- The pieces that are kept, each with its comma. -/
def written (refTableName : Text) (items : List Item) : Text :=
  (piecesOf (items.filter (·.refTable ≠ some refTableName))).flatMap (· ++ comma)

theorem closeLast_append (a : List Text) {b : List Text} (hb : b ≠ []) : closeLast (a ++ b) = a ++ closeLast b := by
  induction a with
  | nil => rfl
  | cons p a ih =>
    obtain ⟨q, c, hc⟩ := List.exists_cons_of_ne_nil (List.append_ne_nil_of_right_ne_nil a hb)
    rw [List.cons_append, List.cons_append, ← ih, hc]
    rfl

theorem joinPieces_closeLast {pieces : List Text} (h : pieces ≠ []) :
    joinPieces (closeLast pieces) = joinPieces pieces ++ ")".toList := by
  obtain rfl | ⟨a, p, rfl⟩ := List.eq_nil_or_concat pieces
  · exact absurd rfl h
  · rw [List.concat_eq_append, closeLast_append a (List.cons_ne_nil p [])]
    by_cases ha : a = []
    · simp [ha, closeLast, joinPieces]
    · rw [closeLast, joinPieces_append ha (List.cons_ne_nil _ _), joinPieces_append ha (List.cons_ne_nil _ _)]
      simp [joinPieces]

theorem closeLast_ne_nil (pieces : List Text) : closeLast pieces ≠ [] := by
  unfold closeLast
  split <;> exact List.cons_ne_nil _ _

theorem uncut_closeLast {pieces : List Text} (h : ∀ p ∈ pieces, ',' ∉ p) : ∀ p ∈ closeLast pieces, ',' ∉ p := by
  obtain rfl | ⟨a, p, rfl⟩ := List.eq_nil_or_concat pieces
  · decide
  · rw [List.concat_eq_append, closeLast_append a (List.cons_ne_nil p [])]
    rw [List.concat_eq_append] at h
    intro q hq
    obtain hq | hq := List.mem_append.mp hq
    · exact h q (List.mem_append_left _ hq)
    · obtain rfl := List.mem_singleton.mp hq
      have hp := h p (List.mem_append_right a (List.mem_singleton_self p))
      simpa using hp

theorem Removes.ne_nil {keys : ℕ} {refTableName : Text} {w : Waiting} {items : List Item}
    (h : Removes keys refTableName w items) : piecesOf items ≠ [] := by
  cases h with
  | last howes hgone hpieces hblank hkey =>
    intro hnil
    rw [hnil] at hpieces
    cases hpieces
    exact absurd hkey (by decide)
  | plain => exact List.cons_ne_nil _ _
  | drop => exact List.cons_ne_nil _ _
  | keep => exact List.cons_ne_nil _ _

section Loop

variable {keys fuel rounds : ℕ} {refTableName newSQL keyTemp s : Text} {w : Waiting} {items : List Item}

theorem written_gone {gone : List Item} (h : ∀ item ∈ gone, item.refTable = some refTableName) (rest : List Item) :
    written refTableName (gone ++ rest) = written refTableName rest := by
  have hnone : gone.filter (·.refTable ≠ some refTableName) = [] := by
    rw [List.filter_eq_nil_iff]
    intro item hitem
    simpa using h item hitem
  rw [written, List.filter_append, hnone, List.nil_append, written]

theorem written_kept {item : Item} (h : item.refTable ≠ some refTableName) (rest : List Item) :
    written refTableName (item :: rest) = item.pieces.flatMap (· ++ comma) ++ written refTableName rest := by
  simp [written, h, piecesOf]

theorem rewriteLoop_done (hfuel : 0 < fuel) :
    rewriteLoop keys refTableName fuel ⟨[], s⟩ newSQL keyTemp = .ok newSQL := by
  cases fuel with
  | zero => exact absurd hfuel (lt_irrefl 0)
  | succ rounds => rfl

theorem rewriteLoop_pieces (keys rounds : ℕ) (refTableName newSQL keyTemp s : Text) {pieces : List Text}
    (rest : List Text) (h : ∀ p ∈ pieces, ¬ Blank p ∧ ¬ IsKey p) :
    ∃ t, rewriteLoop keys refTableName (pieces.length + rounds) ⟨pieces ++ rest, s⟩ newSQL keyTemp =
      rewriteLoop keys refTableName rounds ⟨rest, t⟩ (newSQL ++ pieces.flatMap (· ++ comma)) keyTemp := by
  induction pieces generalizing newSQL s with
  | nil => exact ⟨s, by simp⟩
  | cons p pieces ih =>
    obtain ⟨hblank, hkey⟩ := h p List.mem_cons_self
    obtain ⟨t, ht⟩ := ih (newSQL ++ p ++ comma) (towupper p)
      fun q hq => h q (List.mem_cons_of_mem _ hq)
    refine ⟨t, ?_⟩
    have hrounds : (p :: pieces).length + rounds = pieces.length + rounds + 1 := by
      rw [List.length_cons]
      omega
    rw [hrounds, List.cons_append, rewriteLoop_plain hblank hkey, ht]
    simp

def Holds (keyTemp : Text) : Waiting → Prop
  | .nothing => keyTemp = []
  | .dropped pos => find references keyTemp = some pos
  | .kept pos => find references keyTemp = some pos

theorem Holds.gathers (h : Holds keyTemp w) : Gathers keyTemp w.pos := by
  cases w with
  | nothing => exact .inl ⟨h, rfl⟩
  | dropped pos => exact .inr ⟨pos, rfl, h⟩
  | kept pos => exact .inr ⟨pos, rfl, h⟩

theorem ne_nil_of_not_blank {p : Text} (h : ¬ Blank p) : p ≠ [] := by
  rintro rfl
  exact h blank_nil

/-- A clause that is dropped writes nothing. -/
theorem rewriteLoop_dropped (rounds : ℕ) (newSQL s : Text) {p : Text} {pos : Option ℕ} {rest rest' : List Text} (hholds : Holds keyTemp w)
    (hblank : ¬ Blank p) (hkey : IsKey p) (hclause : clause keys refTableName w.pos p rest = some (pos, false, rest')) :
    ∃ t k, Holds k (.ofDropped pos) ∧ rewriteLoop keys refTableName (rounds + 1) ⟨p :: rest, s⟩ newSQL keyTemp =
      rewriteLoop keys refTableName rounds ⟨rest', t⟩ newSQL k := by
  obtain ⟨u, -, hround⟩ := rewriteLoop_key keys rounds refTableName newSQL keyTemp s rest hblank hkey
  obtain ⟨⟨pieces, t⟩, k, added, hread, hrest, hleaves⟩ :=
    readClause_some (s := u) hholds.gathers (ne_nil_of_not_blank hblank) hclause
  obtain rfl : pieces = rest' := hrest
  rw [hround, hread]
  obtain ⟨hclosed, rfl, rfl⟩ | ⟨hopen, -, i, rfl, hi⟩ := hleaves
  · refine ⟨t, [], rfl, ?_⟩
    change (if beforeLast k = some ')' then _ else _) = _
    rw [if_pos hclosed]
    rfl
  · refine ⟨t, k, hi, ?_⟩
    change (if beforeLast k = some ')' then _ else _) = _
    rw [if_neg hopen]

/-- A clause that is kept is written together with those that wait, or waits itself. -/
theorem rewriteLoop_kept (keys rounds : ℕ) (newSQL s : Text) {p : Text} {w' : Waiting} {pos : ℕ} (rest : List Text) (hholds : Holds keyTemp w)
    (hblank : ¬ Blank p) (hkey : IsKey p) (hpos : (w.pos <|> find references p) = some pos)
    (hclause : keepClause refTableName pos p = some w') :
    ∃ t k, Holds k w' ∧ rewriteLoop keys refTableName (rounds + 1) ⟨p :: rest, s⟩ newSQL keyTemp =
        rewriteLoop keys refTableName rounds ⟨rest, t⟩
          (if w'.owes then newSQL else newSQL ++ keyTemp ++ p ++ comma) k ∧
      (w'.owes = true → k = keyTemp ++ p ++ comma) := by
  obtain ⟨u, -, hround⟩ := rewriteLoop_key keys rounds refTableName newSQL keyTemp s rest hblank hkey
  have hfind := hholds.gathers.find p
  rw [hpos] at hfind
  unfold keepClause at hclause
  split_ifs at hclause with hnamed hclosed hname
  · cases hclause
    refine ⟨u, [], rfl, ?_, fun h => Bool.noConfusion h⟩
    rw [hround, readClause_inside hfind, referencedName_named hnamed]
    change (if beforeLast (keyTemp ++ p ++ comma) = some ')' then _ else _) = _
    rw [beforeLast_comma (ne_nil_of_not_blank hblank), if_pos hclosed]
    have hkeep : (nameAt pos p != refTableName) = true := bne_iff_ne.mpr hname
    simp only [hkeep, if_true, Waiting.owes, Bool.false_eq_true, if_false, List.append_assoc]
  · cases hclause
    refine ⟨u, keyTemp ++ p ++ comma, hfind, ?_, fun _ => rfl⟩
    rw [hround, readClause_inside hfind, referencedName_named hnamed]
    change (if beforeLast (keyTemp ++ p ++ comma) = some ')' then _ else _) = _
    rw [beforeLast_comma (ne_nil_of_not_blank hblank), if_neg hclosed]
    rfl

theorem rewriteLoop_removes (newSQL s : Text) (h : Removes keys refTableName w items) (hholds : Holds keyTemp w)
    (hfuel : (closeLast (piecesOf items)).length < fuel) :
    rewriteLoop keys refTableName fuel ⟨closeLast (piecesOf items), s⟩ newSQL keyTemp =
      .ok (newSQL ++ (if w.owes then keyTemp else []) ++ written refTableName items) := by
  induction h generalizing fuel newSQL keyTemp s with
  | @last w gone p more pos howes hgone hpieces hblank hkey hclause =>
    obtain ⟨rounds, rfl⟩ : ∃ rounds, fuel = rounds + 1 := ⟨fuel - 1, by omega⟩
    obtain ⟨t, k, -, hround⟩ := rewriteLoop_dropped rounds newSQL s hholds hblank hkey hclause
    have hnothing : written refTableName gone = [] := by
      have hgone := written_gone hgone []
      rwa [List.append_nil] at hgone
    have hrounds : 0 < rounds := by
      rw [hpieces, List.length_cons] at hfuel
      omega
    rw [hpieces, hround, rewriteLoop_done hrounds, howes, hnothing]
    simp
  | @plain w item rest howes hkept hpieces hrest ih =>
    have hcut : closeLast (piecesOf (item :: rest)) = item.pieces ++ closeLast (piecesOf rest) :=
      closeLast_append item.pieces hrest.ne_nil
    rw [hcut, List.length_append] at hfuel
    obtain ⟨rounds, rfl⟩ : ∃ rounds, fuel = item.pieces.length + rounds := ⟨fuel - item.pieces.length, by omega⟩
    obtain ⟨t, ht⟩ := rewriteLoop_pieces keys rounds refTableName newSQL keyTemp s (closeLast (piecesOf rest)) hpieces
    rw [hcut, ht, ih _ t hholds (by omega), howes, written_kept hkept]
    simp
  | @drop w item gone rest pos howes hgone hblank hkey hclause hrest ih =>
    have hcut : closeLast (piecesOf (item :: (gone ++ rest))) =
        item.first :: (item.more ++ (piecesOf gone ++ closeLast (piecesOf rest))) := by
      have hsplit : piecesOf (item :: (gone ++ rest)) = (item.first :: item.more ++ piecesOf gone) ++ piecesOf rest := by
        simp [piecesOf, Item.pieces]
      rw [hsplit, closeLast_append _ hrest.ne_nil]
      simp
    obtain ⟨rounds, rfl⟩ : ∃ rounds, fuel = rounds + 1 := ⟨fuel - 1, by omega⟩
    obtain ⟨t, k, hk, hround⟩ := rewriteLoop_dropped rounds newSQL s hholds hblank hkey hclause
    have hrounds : (closeLast (piecesOf rest)).length < rounds := by
      rw [hcut] at hfuel
      simp only [List.length_cons, List.length_append] at hfuel
      omega
    have howes' : (Waiting.ofDropped pos).owes = false := by cases pos <;> rfl
    rw [hcut, hround, ih _ t hk hrounds, howes, howes', ← List.cons_append, written_gone hgone]
    rfl
  | @keep w w' item rest pos hwaits hkept hsingle hblank hkey hpos hclause hrest ih =>
    have hcut : closeLast (piecesOf (item :: rest)) = item.first :: closeLast (piecesOf rest) := by
      have hsplit : piecesOf (item :: rest) = [item.first] ++ piecesOf rest := by
        simp [piecesOf, Item.pieces, hsingle]
      rw [hsplit, closeLast_append _ hrest.ne_nil]
      rfl
    have howed : (if w.owes then keyTemp else []) = keyTemp := by
      cases w with
      | nothing => exact hholds.symm
      | dropped pos => exact absurd rfl (hwaits pos)
      | kept pos => rfl
    obtain ⟨rounds, rfl⟩ : ∃ rounds, fuel = rounds + 1 := ⟨fuel - 1, by omega⟩
    obtain ⟨t, k, hk, hround, howes⟩ :=
      rewriteLoop_kept keys rounds newSQL s (closeLast (piecesOf rest)) hholds hblank hkey hpos hclause
    have hrounds : (closeLast (piecesOf rest)).length < rounds := by
      rw [hcut, List.length_cons] at hfuel
      omega
    have hpiece : item.pieces.flatMap (· ++ comma) = item.first ++ comma := by
      simp [Item.pieces, hsingle]
    rw [hcut, hround, ih _ t hk hrounds, howed, written_kept hkept, hpiece]
    cases hw : w'.owes with
    | true => simp [howes hw]
    | false => simp

end Loop

/-- The texts from which the clauses can be removed. -/
def TableText.Removable (keys : ℕ) (refTableName : Text) (d : TableText) : Prop :=
  d.tail = [] ∧ Removes keys refTableName .nothing (d.head :: d.items)

theorem written_eq {pieces : List Text} (h : pieces ≠ []) :
    pieces.flatMap (· ++ comma) = joinPieces pieces ++ comma := by
  induction pieces with
  | nil => exact absurd rfl h
  | cons p pieces ih =>
    cases pieces with
    | nil => simp [joinPieces]
    | cons q pieces =>
      rw [List.flatMap_cons, ih (List.cons_ne_nil q pieces)]
      simp [joinPieces, comma]

theorem finishSql_comma (t : Text) : finishSql (t ++ comma) = .ok (t ++ ")".toList) := by
  simp [finishSql, comma]

theorem text_splitOn {d : TableText} (htail : d.tail = []) :
    d.text.splitOn ',' = closeLast (piecesOf (d.head :: d.items)) := by
  have hne : piecesOf (d.head :: d.items) ≠ [] := List.cons_ne_nil _ _
  have huncut := uncut_closeLast d.uncut
  have htext : d.text = joinPieces (closeLast (piecesOf (d.head :: d.items))) := by
    rw [joinPieces_closeLast hne, TableText.text, htail]
    rfl
  rw [htext]
  exact List.splitOn_intercalate ',' huncut (closeLast_ne_nil _)

theorem rewriteSql_removable {d : TableText} {keys : ℕ} {refTableName : Text} (h : d.Removable keys refTableName) :
    rewriteSql keys refTableName d.text = .ok (d.without refTableName).text := by
  obtain ⟨htail, hremoves⟩ := h
  have hloop := rewriteLoop_removes [] [] hremoves (show Holds [] .nothing from rfl) (Nat.lt_succ_self _)
  have hkept : written refTableName (d.head :: d.items) =
      joinPieces (piecesOf (d.head :: (d.without refTableName).items)) ++ comma := by
    have hhead : d.head.refTable ≠ some refTableName := by
      rw [d.head_refTable]
      exact Option.some_ne_none refTableName |>.symm
    rw [written, List.filter_cons_of_pos (by simpa using hhead)]
    exact written_eq (List.cons_ne_nil _ _)
  rw [rewriteSql, text_splitOn htail, hloop]
  simp only [Waiting.owes, Bool.false_eq_true, if_false, List.nil_append, hkept]
  change finishSql _ = _
  rw [finishSql_comma, TableText.text, show (d.without refTableName).tail = [] from htail]
  rfl

def firstColumn : Item := ⟨"CREATE TABLE t(a int".toList, []⟩

def pricedColumn : Item := ⟨" b NUMERIC(10".toList, ["2)".toList]⟩

def keptKey : Item := ⟨" FOREIGN KEY(b) REFERENCES q(y)".toList, []⟩

def droppedKey : Item := ⟨" FOREIGN KEY(a) REFERENCES r(x)".toList, []⟩

def droppedLast : TableText :=
  ⟨firstColumn, [pricedColumn, keptKey, droppedKey], [], by decide, by decide, by decide, by decide, by decide⟩

def keptLast : TableText :=
  ⟨firstColumn, [pricedColumn, droppedKey, keptKey], [], by decide, by decide, by decide, by decide, by decide⟩

def twoKeys : ForeignKeyMap :=
  .ofEntries [(0, [compositeKey ['a'] ['x']]), (1, [{ compositeKey ['b'] ['y'] with refTable := ['q'] }])]

theorem removes_droppedKey : Removes twoKeys.size ['r'] .nothing [droppedKey] := by
  have hpieces : closeLast (piecesOf [droppedKey]) = [droppedKey.first ++ ")".toList] := by decide +kernel
  have hclause : clause twoKeys.size ['r'] none (droppedKey.first ++ ")".toList) [] = some (none, false, []) := by decide +kernel
  exact .last rfl (by decide +kernel) hpieces (by decide +kernel) (by decide +kernel) hclause

theorem removes_keptKey : Removes twoKeys.size ['r'] .nothing [keptKey, droppedKey] := by
  have hpos : find references keptKey.first = some 16 := by decide +kernel
  have hclause : keepClause ['r'] 16 keptKey.first = some .nothing := by decide +kernel
  exact .keep nofun (by decide +kernel) rfl (by decide +kernel) (by decide +kernel) hpos hclause removes_droppedKey

theorem droppedLast_removable : droppedLast.Removable twoKeys.size ['r'] := by
  refine ⟨rfl, .plain rfl (by decide +kernel) (by decide +kernel) ?_⟩
  exact .plain rfl (by decide +kernel) (by decide +kernel) removes_keptKey

end DbHandler.Sqlite.ForeignKeys
