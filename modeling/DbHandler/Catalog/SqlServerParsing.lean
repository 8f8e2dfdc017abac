import DbHandler.Catalog.SqlServerEvents
import DbHandler.Foundation.Decimal
import DbHandler.Foundation.Separators
import DbHandler.Odbc.ForeignKeys
import Mathlib.Data.List.Forall2

namespace DbHandler.Catalog.SqlServer

open Foundation.Decimal Foundation.Separators

/-- The variables of `NewTableCreation` that a message goes through; `ops` is 0, 1 or 2. -/
structure Variables where
  tableName : Text
  command : Text
  operation : Text
  schemaName : Text
  ops : Operation
  deriving DecidableEq, Repr

def Variables.initial : Variables := ⟨[], [], [], [], .create⟩

section Parsing

/-- The lengths that `SQLGetData` is given: an `nvarchar(max)` has the size 0, for which there is 2048. -/
def commandLength : ℕ := 2048

def targetLength : ℕ := 128

def readOps (operation element : Text) (ops : Operation) : Operation :=
  if element = "TABLE".toList ∨ element = "VIEW".toList then
    if operation = "DROP".toList then .drop
    else if operation = "CREATE".toList then .create
    else if operation = "ALTER".toList then .alter
    else ops
  else if element = "INDEX".toList then .alter
  else ops

/-- `trim` has its argument by value, so that none of the three texts is trimmed. -/
def parseEvent (commandText target : Text) (v : Variables) : Variables :=
  let tableName := v.tableName ++ Odbc.bound targetLength target
  let command := v.command ++ Odbc.bound commandLength commandText
  if command = [] then { v with tableName := tableName, command := command }
  else
    let operation := upToBlank command
    let command := afterBlank command
    let element := (upToBlank command).map Char.toUpper
    let ops := readOps operation element v.ops
    if '.' ∈ tableName then
      { tableName := after '.' tableName
        command := command
        operation := operation
        schemaName := before '.' tableName
        ops := ops }
    else { tableName := tableName, command := command, operation := operation, schemaName := [], ops := ops }

inductive Verb
  | create
  | alter
  | drop
  deriving DecidableEq, Repr

def Verb.word : Verb → Text
  | .create => "CREATE".toList
  | .alter => "ALTER".toList
  | .drop => "DROP".toList

def Verb.operation : Verb → Operation
  | .create => .create
  | .alter => .alter
  | .drop => .drop

inductive ObjectKind
  | table
  | view
  | index
  deriving DecidableEq, Repr

def ObjectKind.word : ObjectKind → Text
  | .table => "TABLE".toList
  | .view => "VIEW".toList
  | .index => "INDEX".toList

/-- A command with its two words in any letter case and white space around them, and the name of its object. -/
structure DdlEvent where
  leading : Text
  verb : Verb
  verbText : Text
  gap : Text
  kind : ObjectKind
  kindText : Text
  rest : Text
  schema : Option Text
  table : Text
  leading_space : ∀ c ∈ leading, isSpace c = true
  verb_spelled : verbText.map Char.toUpper = verb.word
  gap_ne_nil : gap ≠ []
  gap_space : ∀ c ∈ gap, isSpace c = true
  kind_spelled : kindText.map Char.toUpper = kind.word
  rest_space : ∀ c ∈ rest.head?, isSpace c = true
  index_verb : kind = .index → verb ≠ .alter

def DdlEvent.text (e : DdlEvent) : Text := e.leading ++ (e.verbText ++ (e.gap ++ (e.kindText ++ e.rest)))

def DdlEvent.name (e : DdlEvent) : Text := e.schema.elim e.table fun schema => schema ++ '.' :: e.table

/-- An index belongs to a table, which is altered with it. -/
def DdlEvent.operation (e : DdlEvent) : Operation := if e.kind = .index then .alter else e.verb.operation

/-- Every call of `NewTableCreation` takes one message, and has its variables anew. -/
def poll (e : DdlEvent) : Variables := parseEvent e.text e.name .initial

def polls (es : List DdlEvent) : List Variables := es.map poll

end Parsing

section Words

variable {e : DdlEvent} {c : Char} {t u : Text}

theorem upToBlank_eq (t : Text) : upToBlank t = before ' ' t := rfl

theorem afterBlank_eq (t : Text) : afterBlank t = after ' ' t := by
  unfold afterBlank after
  rw [List.drop_one]

theorem space_toUpper (h : isSpace c = true) : c.toUpper = c ∧ c.isUpper = false := by
  have hall : [' ', '\t', '\n', Char.ofNat 11, Char.ofNat 12, '\r'].all
      (fun c => c.toUpper = c && !c.isUpper) = true := by decide
  have hc := List.all_eq_true.mp hall c (of_decide_eq_true h)
  simpa using hc

theorem Verb.word_upper (v : Verb) : ∀ c ∈ v.word, c.isUpper = true := by
  apply List.all_eq_true.mp
  cases v <;> rfl

theorem ObjectKind.word_upper (k : ObjectKind) : ∀ c ∈ k.word, c.isUpper = true := by
  apply List.all_eq_true.mp
  cases k <;> rfl

theorem blank_not_mem_of_map (h : ∀ c ∈ t.map Char.toUpper, c.isUpper = true) : ' ' ∉ t := by
  intro hblank
  have hupper := h _ (List.mem_map_of_mem hblank)
  exact absurd hupper (by decide)

theorem verbText_blank (e : DdlEvent) : ' ' ∉ e.verbText :=
  blank_not_mem_of_map (by rw [e.verb_spelled]; exact e.verb.word_upper)

theorem kindText_blank (e : DdlEvent) : ' ' ∉ e.kindText :=
  blank_not_mem_of_map (by rw [e.kind_spelled]; exact e.kind.word_upper)

theorem verbText_length (e : DdlEvent) : e.verbText.length = e.verb.word.length := by
  rw [← e.verb_spelled, List.length_map]

theorem kindText_length (e : DdlEvent) : e.kindText.length = e.kind.word.length := by
  rw [← e.kind_spelled, List.length_map]

theorem Verb.word_length (v : Verb) : v.word.length ≤ 6 := by cases v <;> decide

theorem ObjectKind.word_length (k : ObjectKind) : k.word.length ≤ 5 := by cases k <;> decide

theorem take_append_cons {n : ℕ} (h : t.length < n) :
    (t ++ c :: u).take n = t ++ c :: u.take (n - t.length - 1) := by
  obtain ⟨k, hk⟩ := Nat.exists_eq_add_of_lt h
  rw [List.take_append, List.take_of_length_le (by omega), show n - t.length = k + 1 by omega, List.take_succ_cons,
    Nat.add_sub_cancel]

theorem head_of_before {x : Char} (h : before x t = c :: u) : t.head? = some c := by
  have hprefix : c :: u <+: t := h ▸ List.takeWhile_prefix _
  obtain ⟨rest, rfl⟩ := hprefix
  rfl

theorem before_append_of_not_mem {x : Char} (h : x ∉ t) : before x (t ++ u) = t ++ before x u := by
  apply List.takeWhile_append_of_pos
  intro d hd
  simp only [decide_eq_true_eq]
  rintro rfl
  exact h hd

end Words

section Answers

variable {e : DdlEvent}

structure Recognised (e : DdlEvent) (v : Variables) : Prop where
  operation : v.ops = e.operation
  schema : v.schemaName = e.schema.getD []
  table : v.tableName = e.table

def received (e : DdlEvent) : Text := Odbc.bound commandLength e.text

/-- The second of the words between blanks, in capital letters. -/
def element (command : Text) : Text := (upToBlank (afterBlank command)).map Char.toUpper

/-- Nothing stands before the verb, it is in capital letters, and there is one blank between the words and a blank or
nothing after them. -/
structure DdlEvent.Plain (e : DdlEvent) : Prop where
  leading : e.leading = []
  verb : e.verbText = e.verb.word
  gap : e.gap = [' ']
  rest : e.rest = [] ∨ e.rest.head? = some ' '

def DdlEvent.Classified (e : DdlEvent) : Prop :=
  match e.kind, e.verb with
  | .index, _ => element (received e) = "INDEX".toList
  | _, .create => element (received e) ≠ "INDEX".toList
  | _, .alter => e.Plain ∨ element (received e) = "INDEX".toList
  | _, .drop => e.Plain

def DdlEvent.Named (e : DdlEvent) : Prop := '.' ∉ e.schema.getD e.table ∧ e.name.length ≤ 63

theorem received_eq (e : DdlEvent) : received e = e.text.take 1023 := rfl

theorem first_word (e : DdlEvent) {v : Verb} (h : upToBlank (received e) = v.word) : e.leading = [] ∧ e.verb = v := by
  obtain ⟨c, cs, hword⟩ : ∃ c cs, v.word = c :: cs := by cases v <;> exact ⟨_, _, rfl⟩
  have hupper : c.isUpper = true := v.word_upper c (by rw [hword]; exact List.mem_cons_self)
  have hhead : e.text.head? = some c := by
    rw [upToBlank_eq, hword] at h
    rw [← head_of_before h, received_eq, List.head?_take, if_neg (by omega)]
  have hleading : e.leading = [] := by
    cases hlead : e.leading with
    | nil => rfl
    | cons l ls =>
      rw [DdlEvent.text, hlead, List.cons_append, List.head?_cons, Option.some_inj] at hhead
      have hspace := e.leading_space l (by rw [hlead]; exact List.mem_cons_self)
      rw [hhead] at hspace
      exact absurd hupper (by simp [(space_toUpper hspace).2])
  refine ⟨hleading, ?_⟩
  have hspelled := e.verb_spelled
  cases hverb : e.verbText with
  | nil =>
    rw [hverb] at hspelled
    cases hv : e.verb <;> rw [hv] at hspelled <;> exact absurd hspelled (by decide)
  | cons w ws =>
    rw [DdlEvent.text, hleading, List.nil_append, hverb, List.cons_append, List.head?_cons, Option.some_inj] at hhead
    rw [hverb, List.map_cons, hhead] at hspelled
    cases hv : e.verb <;> cases v <;> first | rfl | skip
    all_goals
      rw [hv] at hspelled
      obtain ⟨rfl, -⟩ := List.cons.inj hword
      exact absurd (List.cons.inj hspelled).1 (by decide)

theorem received_verb (hleading : e.leading = []) {g : Char} {gs : Text} (hgap : e.gap = g :: gs) :
    ∃ k, 1016 ≤ k ∧ received e = e.verbText ++ g :: (gs ++ (e.kindText ++ e.rest)).take k := by
  have hlength : e.verbText.length ≤ 6 := by
    rw [verbText_length]
    exact e.verb.word_length
  refine ⟨1023 - e.verbText.length - 1, by omega, ?_⟩
  rw [received_eq, DdlEvent.text, hleading, List.nil_append, hgap, List.cons_append, take_append_cons (by omega)]

theorem first_word_iff (hleading : e.leading = []) : upToBlank (received e) = e.verb.word ↔
    e.verbText = e.verb.word ∧ e.gap.head? = some ' ' := by
  obtain ⟨g, gs, hgap⟩ := List.exists_cons_of_ne_nil e.gap_ne_nil
  obtain ⟨k, -, hreceived⟩ := received_verb hleading hgap
  rw [hreceived, upToBlank_eq, hgap, List.head?_cons, Option.some_inj]
  by_cases hg : g = ' '
  · rw [hg, before_append (verbText_blank e)]
    exact (and_iff_left rfl).symm
  · apply iff_of_false _ fun h => hg h.2
    intro h
    have hlength := congrArg List.length h
    rw [before_append_of_not_mem (verbText_blank e), before, List.takeWhile_cons_of_pos (by simpa using hg),
      List.length_append, List.length_cons, verbText_length] at hlength
    omega

theorem kind_words (e : DdlEvent) {k : ℕ} (hk : 1016 ≤ k) : before ' ' ((e.kindText ++ e.rest).take k) = e.kindText ↔
    e.rest = [] ∨ e.rest.head? = some ' ' := by
  have hlength : e.kindText.length ≤ 5 := by
    rw [kindText_length]
    exact e.kind.word_length
  rw [List.take_append, List.take_of_length_le (by omega), before_append_of_not_mem (kindText_blank e),
    List.append_right_eq_self]
  cases hrest : e.rest with
  | nil => simp [before]
  | cons r rs =>
    obtain ⟨j, hj⟩ := Nat.exists_eq_add_of_lt (show e.kindText.length < k by omega)
    rw [show k - e.kindText.length = j + 1 by omega, List.take_succ_cons]
    by_cases hr : r = ' '
    · simp [before, hr]
    · simp [before, hr]

theorem ObjectKind.word_append_iff {k kind : ObjectKind} {z : Text} : k.word ++ z = kind.word ↔ z = [] ∧ k = kind := by
  constructor
  · intro h
    have hkind : k = kind := by
      cases k <;> cases kind <;> first | rfl | exact absurd (List.cons.inj h).1 (by decide)
    rw [hkind, List.append_right_eq_self] at h
    exact ⟨h, hkind⟩
  · rintro ⟨rfl, rfl⟩
    exact List.append_nil _

/-- Where the second word is a kind of object it is that of the command, and nothing stands between the words but one
blank. -/
theorem second_word_iff (hleading : e.leading = []) {gs : Text} (hgap : e.gap = ' ' :: gs) (kind : ObjectKind) :
    element (received e) = kind.word ↔ gs = [] ∧ (e.rest = [] ∨ e.rest.head? = some ' ') ∧ e.kind = kind := by
  obtain ⟨k, hk, hreceived⟩ := received_verb hleading hgap
  rw [element, hreceived, afterBlank_eq, after_append (verbText_blank e), upToBlank_eq]
  cases gs with
  | cons g gs =>
    apply iff_of_false _ (by simp)
    intro h
    obtain ⟨j, rfl⟩ := Nat.exists_eq_add_one_of_ne_zero (show k ≠ 0 by omega)
    rw [List.cons_append, List.take_succ_cons] at h
    have hspace : isSpace g = true := e.gap_space g (by rw [hgap]; exact List.mem_cons_of_mem _ List.mem_cons_self)
    by_cases hg : g = ' '
    · rw [hg, before, List.takeWhile_cons_of_neg (by simp)] at h
      cases kind <;> exact absurd h (by decide)
    · rw [before, List.takeWhile_cons_of_pos (by simpa using hg), List.map_cons, (space_toUpper hspace).1] at h
      have hupper := kind.word_upper g (by rw [← h]; exact List.mem_cons_self)
      rw [(space_toUpper hspace).2] at hupper
      exact Bool.noConfusion hupper
  | nil =>
    have hlength : e.kindText.length ≤ k := by
      have hword := e.kind.word_length
      rw [kindText_length]
      omega
    have hplain := kind_words e hk
    rw [List.nil_append]
    rw [List.take_append, List.take_of_length_le hlength, before_append_of_not_mem (kindText_blank e)] at hplain ⊢
    rw [List.append_right_eq_self] at hplain
    rw [List.map_append, e.kind_spelled, ObjectKind.word_append_iff, List.map_eq_nil_iff, hplain]
    exact (and_iff_right rfl).symm

theorem plain_iff (hkind : e.kind ≠ .index) : e.Plain ↔ upToBlank (received e) = e.verb.word ∧
    (element (received e) = "TABLE".toList ∨ element (received e) = "VIEW".toList) := by
  constructor
  · intro h
    have hfirst := (first_word_iff h.leading).mpr ⟨h.verb, by rw [h.gap]; rfl⟩
    refine ⟨hfirst, ?_⟩
    have hsecond (kind : ObjectKind) := second_word_iff h.leading h.gap kind
    cases hk : e.kind with
    | table => exact Or.inl ((hsecond .table).mpr ⟨rfl, h.rest, hk⟩)
    | view => exact Or.inr ((hsecond .view).mpr ⟨rfl, h.rest, hk⟩)
    | index => exact absurd hk hkind
  · rintro ⟨hfirst, hsecond⟩
    have hleading := (first_word e hfirst).1
    obtain ⟨hverb, hblank⟩ := (first_word_iff hleading).mp hfirst
    obtain ⟨g, gs, hgap⟩ := List.exists_cons_of_ne_nil e.gap_ne_nil
    obtain rfl : g = ' ' := by
      rw [hgap, List.head?_cons] at hblank
      exact Option.some.inj hblank
    obtain ⟨hgs, hrest⟩ : gs = [] ∧ (e.rest = [] ∨ e.rest.head? = some ' ') := by
      rcases hsecond with htable | hview
      · obtain ⟨hgs, hrest, -⟩ := (second_word_iff hleading hgap .table).mp htable
        exact ⟨hgs, hrest⟩
      · obtain ⟨hgs, hrest, -⟩ := (second_word_iff hleading hgap .view).mp hview
        exact ⟨hgs, hrest⟩
    exact ⟨hleading, hverb, by rw [hgap, hgs], hrest⟩

theorem received_ne_nil (e : DdlEvent) : received e ≠ [] := by
  intro h
  rw [received_eq, List.take_eq_nil_iff, DdlEvent.text] at h
  simp [e.gap_ne_nil] at h

theorem poll_eq (e : DdlEvent) : poll e =
    let name := Odbc.bound targetLength e.name
    let ops := readOps (upToBlank (received e)) (element (received e)) .create
    if '.' ∈ name then
      ⟨after '.' name, afterBlank (received e), upToBlank (received e), before '.' name, ops⟩
    else ⟨name, afterBlank (received e), upToBlank (received e), [], ops⟩ := by
  unfold poll parseEvent
  simp only [Variables.initial, List.nil_append]
  exact if_neg (received_ne_nil e)

theorem readOps_eq (command : Text) : readOps (upToBlank command) (element command) .create = operationOf command := by
  have hne : "CREATE".toList ≠ "ALTER".toList := by decide
  unfold readOps operationOf
  apply ite_congr rfl _ fun _ => rfl
  intro _
  apply ite_congr rfl (fun _ => rfl)
  intro _
  by_cases hcreate : upToBlank command = "CREATE".toList
  · rw [if_pos hcreate, if_neg fun halter => hne (hcreate.symm.trans halter)]
  · rw [if_neg hcreate]

/-- A poll classifies its message as `operationOf` does in the model of the whole run. -/
theorem poll_ops (e : DdlEvent) : (poll e).ops = operationOf (received e) := by
  rw [poll_eq, readOps_eq]
  dsimp only
  split_ifs <;> rfl

theorem operationOf_eq (command : Text) : operationOf command =
    if element command = "TABLE".toList ∨ element command = "VIEW".toList then
      if upToBlank command = Verb.drop.word then .drop
      else if upToBlank command = Verb.alter.word then .alter
      else .create
    else if element command = "INDEX".toList then .alter
    else .create := rfl

theorem operationOf_drop {command : Text} : operationOf command = .drop ↔
    upToBlank command = Verb.drop.word ∧ (element command = "TABLE".toList ∨ element command = "VIEW".toList) := by
  rw [operationOf_eq]
  by_cases hkind : element command = "TABLE".toList ∨ element command = "VIEW".toList
  · rw [if_pos hkind]
    by_cases hdrop : upToBlank command = Verb.drop.word
    · rw [if_pos hdrop]
      exact iff_of_true rfl ⟨hdrop, hkind⟩
    · rw [if_neg hdrop]
      refine iff_of_false ?_ fun h => hdrop h.1
      split_ifs <;> exact not_false
  · rw [if_neg hkind]
    refine iff_of_false ?_ fun h => hkind h.2
    split_ifs <;> exact not_false

theorem index_not_kind {command : Text} (h : element command = "INDEX".toList) :
    ¬(element command = "TABLE".toList ∨ element command = "VIEW".toList) := by
  rw [h]
  decide

theorem operationOf_alter {command : Text} : operationOf command = .alter ↔
    upToBlank command = Verb.alter.word ∧ (element command = "TABLE".toList ∨ element command = "VIEW".toList) ∨
      element command = "INDEX".toList := by
  rw [operationOf_eq]
  by_cases hkind : element command = "TABLE".toList ∨ element command = "VIEW".toList
  · rw [if_pos hkind, or_iff_left fun h => index_not_kind h hkind, and_iff_left hkind]
    by_cases halter : upToBlank command = Verb.alter.word
    · rw [if_neg (by rw [halter]; decide), if_pos halter]
      exact iff_of_true rfl halter
    · rw [if_neg halter]
      refine iff_of_false ?_ halter
      split_ifs <;> exact not_false
  · rw [if_neg hkind, or_iff_right fun h => hkind h.2]
    by_cases hindex : element command = "INDEX".toList
    · rw [if_pos hindex]
      exact iff_of_true rfl hindex
    · rw [if_neg hindex]
      exact iff_of_false Operation.noConfusion hindex

theorem operationOf_create {command : Text} :
    operationOf command = .create ↔ operationOf command ≠ .drop ∧ operationOf command ≠ .alter := by
  cases operationOf command <;> simp

theorem other_verb (e : DdlEvent) {v : Verb} (h : e.verb ≠ v) : upToBlank (received e) ≠ v.word :=
  fun hfirst => h (first_word e hfirst).2

theorem classified_iff (e : DdlEvent) : (poll e).ops = e.operation ↔ e.Classified := by
  rw [poll_ops]
  by_cases hindex : e.kind = .index
  · have hverb := other_verb e (e.index_verb hindex)
    rw [DdlEvent.operation, if_pos hindex, operationOf_alter, or_iff_right fun h => hverb h.1]
    unfold DdlEvent.Classified
    rw [hindex]
  · have hclassified : e.Classified ↔ match e.verb with
        | .create => element (received e) ≠ "INDEX".toList
        | .alter => e.Plain ∨ element (received e) = "INDEX".toList
        | .drop => e.Plain := by
      unfold DdlEvent.Classified
      cases hkind : e.kind with
      | table => cases e.verb <;> rfl
      | view => cases e.verb <;> rfl
      | index => exact absurd hkind hindex
    have hplain := plain_iff hindex
    rw [DdlEvent.operation, if_neg hindex, hclassified]
    cases hverb : e.verb with
    | create =>
      have hdrop : upToBlank (received e) ≠ Verb.drop.word := other_verb e (by rw [hverb]; exact Verb.noConfusion)
      have halter : upToBlank (received e) ≠ Verb.alter.word := other_verb e (by rw [hverb]; exact Verb.noConfusion)
      change operationOf (received e) = .create ↔ _
      rw [operationOf_create, Ne, operationOf_drop, Ne, operationOf_alter]
      constructor
      · rintro ⟨-, h⟩ helement
        exact h (Or.inr helement)
      · intro h
        refine ⟨fun hd => hdrop hd.1, ?_⟩
        rintro (ha | helement)
        · exact halter ha.1
        · exact h helement
    | alter =>
      rw [hverb] at hplain
      change operationOf (received e) = .alter ↔ _
      rw [operationOf_alter, ← hplain]
    | drop =>
      rw [hverb] at hplain
      change operationOf (received e) = .drop ↔ _
      rw [operationOf_drop, ← hplain]

theorem bound_name (t : Text) : Odbc.bound targetLength t = t.take 63 := rfl

theorem take_eq_self_iff_le {t : Text} {n : ℕ} : t.take n = t ↔ t.length ≤ n := List.take_eq_self_iff t

theorem poll_names (e : DdlEvent) :
    ((poll e).schemaName, (poll e).tableName) =
      if '.' ∈ e.name.take 63 then (before '.' (e.name.take 63), after '.' (e.name.take 63)) else ([], e.name.take 63) := by
  rw [poll_eq, bound_name]
  dsimp only
  split_ifs <;> rfl

theorem qualified_iff (schema table : Text) : '.' ∈ (schema ++ '.' :: table).take 63 ∧
    before '.' ((schema ++ '.' :: table).take 63) = schema ∧ after '.' ((schema ++ '.' :: table).take 63) = table ↔
      '.' ∉ schema ∧ (schema ++ '.' :: table).length ≤ 63 := by
  constructor
  · rintro ⟨hmem, hbefore, hafter⟩
    have hwhole := before_append_after hmem
    rw [hbefore, hafter] at hwhole
    refine ⟨?_, take_eq_self_iff_le.mp hwhole.symm⟩
    rw [← hbefore]
    exact not_mem_before _ _
  · rintro ⟨hdot, hlength⟩
    rw [take_eq_self_iff_le.mpr hlength]
    exact ⟨List.mem_append_right _ List.mem_cons_self, before_append hdot, after_append hdot⟩

theorem named_iff (e : DdlEvent) :
    (poll e).schemaName = e.schema.getD [] ∧ (poll e).tableName = e.table ↔ e.Named := by
  have hnames := poll_names e
  unfold DdlEvent.Named
  by_cases hdot : '.' ∈ e.name.take 63
  · rw [if_pos hdot] at hnames
    obtain ⟨hschema, htable⟩ := Prod.mk.inj hnames
    rw [hschema, htable]
    cases hs : e.schema with
    | some schema =>
      have hname : e.name = schema ++ '.' :: e.table := by rw [DdlEvent.name, hs]; rfl
      have hiff := qualified_iff schema e.table
      rw [← hname, and_iff_right hdot] at hiff
      exact hiff
    | none =>
      have hname : e.name = e.table := by rw [DdlEvent.name, hs]; rfl
      rw [hname] at hdot ⊢
      apply iff_of_false
      · rintro ⟨-, hafter⟩
        have hlength := congrArg List.length (before_append_after hdot)
        rw [hafter, List.length_append, List.length_cons, List.length_take] at hlength
        omega
      · rintro ⟨hclean, -⟩
        exact hclean (List.mem_of_mem_take hdot)
  · rw [if_neg hdot] at hnames
    obtain ⟨hschema, htable⟩ := Prod.mk.inj hnames
    rw [hschema, htable]
    cases hs : e.schema with
    | some schema =>
      have hname : e.name = schema ++ '.' :: e.table := by rw [DdlEvent.name, hs]; rfl
      rw [hname] at hdot ⊢
      apply iff_of_false
      · rintro ⟨hempty, -⟩
        change [] = schema at hempty
        rw [← hempty] at hdot
        exact hdot List.mem_cons_self
      · rintro ⟨-, hlength⟩
        rw [take_eq_self_iff_le.mpr hlength] at hdot
        exact hdot (List.mem_append_right _ List.mem_cons_self)
    | none =>
      have hname : e.name = e.table := by rw [DdlEvent.name, hs]; rfl
      rw [hname] at hdot ⊢
      rw [take_eq_self_iff_le]
      constructor
      · rintro ⟨-, hlength⟩
        rw [take_eq_self_iff_le.mpr hlength] at hdot
        exact ⟨hdot, hlength⟩
      · rintro ⟨-, hlength⟩
        exact ⟨rfl, hlength⟩

theorem recognised_iff (e : DdlEvent) : Recognised e (poll e) ↔ e.Classified ∧ e.Named := by
  rw [← classified_iff, ← named_iff]
  constructor
  · intro h
    exact ⟨h.operation, h.schema, h.table⟩
  · rintro ⟨hoperation, hschema, htable⟩
    exact ⟨hoperation, hschema, htable⟩

theorem events_recognised_iff (es : List DdlEvent) :
    List.Forall₂ Recognised es (polls es) ↔ ∀ e ∈ es, e.Classified ∧ e.Named := by
  rw [polls, List.forall₂_map_right_iff, List.forall₂_same]
  simp only [recognised_iff]

def smallDrop : DdlEvent where
  leading := []
  verb := .drop
  verbText := "drop".toList
  gap := [' ']
  kind := .table
  kindText := "table".toList
  rest := " dbo.client".toList
  schema := some "dbo".toList
  table := "client".toList
  leading_space := List.all_eq_true.mp rfl
  verb_spelled := by decide
  gap_ne_nil := by decide
  gap_space := List.all_eq_true.mp rfl
  kind_spelled := by decide
  rest_space := by
    rintro c hc
    obtain rfl := Option.some.inj hc
    rfl
  index_verb := by decide

theorem small_drop_creates :
    polls [smallDrop] = [⟨"client".toList, "table dbo.client".toList, "drop".toList, "dbo".toList, .create⟩] ∧
      ¬List.Forall₂ Recognised [smallDrop] (polls [smallDrop]) := by
  refine ⟨by decide +kernel, ?_⟩
  intro h
  have hfirst : Recognised smallDrop (poll smallDrop) := (List.forall₂_cons.mp h).1
  obtain ⟨hclassified, -⟩ := (recognised_iff smallDrop).mp hfirst
  have hplain : smallDrop.Plain := hclassified
  exact absurd hplain.verb (by decide)

end Answers

end DbHandler.Catalog.SqlServer
