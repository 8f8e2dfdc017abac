import DbHandler.AlterTable.Contract
import DbHandler.AlterTable.KeyMap
import DbHandler.Foundation.Sql.Tokens
import DbHandler.LoadedTable

namespace DbHandler.AlterTable

open Foundation Foundation.Sql

inductive Action
  | noAction
  | restrict
  | cascade
  | setNull
  | setDefault
  deriving DecidableEq, Repr

namespace Action

/-- The position in the dialog's choice, which the drivers receive. -/
def selection : Action → ℤ
  | noAction => 0
  | restrict => 1
  | cascade => 2
  | setNull => 3
  | setDefault => 4

def onUpdate : Action → FkOnUpdate
  | noAction => .noAction
  | restrict => .restrict
  | cascade => .cascade
  | setNull => .setNull
  | setDefault => .setDefault

def onDelete : Action → FkOnDelete
  | noAction => .noAction
  | restrict => .restrict
  | cascade => .cascade
  | setNull => .setNull
  | setDefault => .setDefault

def words : Action → List Token
  | noAction => [.word "NO".toList, .word "ACTION".toList]
  | restrict => [.word "RESTRICT".toList]
  | cascade => [.word "CASCADE".toList]
  | setNull => [.word "SET".toList, .word "NULL".toList]
  | setDefault => [.word "SET".toList, .word "DEFAULT".toList]

end Action

/-- `ForeignKeyDialog::OnApplyCommand` makes the fields of the new key with these. -/
def dialogUpdate (selection : ℤ) : FkOnUpdate :=
  match selection with
  | 0 => .noAction
  | 1 => .restrict
  | 2 => .cascade
  | 3 => .setNull
  | 4 => .setDefault
  | _ => .noAction

def dialogDelete (selection : ℤ) : FkOnDelete :=
  match selection with
  | 0 => .noAction
  | 1 => .restrict
  | 2 => .cascade
  | 3 => .setNull
  | 4 => .setDefault
  | _ => .noAction

def sqlServer : Text := "Microsoft SQL Server".toList

/-- Microsoft SQL Server has no RESTRICT. -/
def Backend.available (b : Backend) (action : Action) : Action :=
  if b = .odbc sqlServer ∧ action = .restrict then .noAction else action

/-- The match option is PostgreSQL's. -/
def Backend.matchTokens (b : Backend) (matchOption : ℤ) : List Token :=
  if b = .postgres then
    [.word "MATCH".toList,
      .word (if matchOption = 0 then "FULL".toList else if matchOption = 1 then "PARTIAL".toList else "SIMPLE".toList)]
  else []

def nameTokens : List Text → List Token
  | [] => []
  | [name] => [.word name]
  | name :: names => .word name :: .symbol ',' :: nameTokens names

def qualified (table : DatabaseTable) : Text := table.schemaName ++ ".".toList ++ table.tableName

def headTokens (table : DatabaseTable) (keyName : Text) (fk : FKField) (fks : List FKField) : List Token :=
  [.word "ALTER".toList, .word "TABLE".toList, .word (qualified table), .word "ADD".toList, .word "CONSTRAINT".toList,
      .word keyName, .word "FOREIGN".toList, .word "KEY".toList, .symbol '('] ++
    (nameTokens ((fk :: fks).map FKField.originalField) ++ [.symbol ')']) ++
    [.word "REFERENCES".toList, .word fk.refTable, .symbol '('] ++
    (nameTokens ((fk :: fks).map FKField.referencedField) ++ [.symbol ')'])

def onDelete : List Token := [.word "ON".toList, .word "DELETE".toList]

def onUpdate : List Token := [.word "ON".toList, .word "UPDATE".toList]

def addTokens (table : DatabaseTable) (keyName : Text) (fk : FKField) (fks : List FKField) (matchTokens : List Token)
    (delete update : Action) : List Token :=
  headTokens table keyName fk fks ++ (matchTokens ++ onDelete ++ (delete.words ++ (onUpdate ++ update.words)))

def ForeignKeyCall.select (c : ForeignKeyCall) (delete update : Action) : ForeignKeyCall :=
  { c with deleteProp := delete.selection, updateProp := update.selection }

def Keeps (m : ForeignKeyMap) (delete : FkOnDelete) (update : FkOnUpdate) (field : FKField) : Prop :=
  field ∈ m.values.flatten ∨ field.deleteConstraint = delete ∧ field.updateConstraint = update

structure WellFormed (b : Backend) (table : DatabaseTable) (fk : FKField) (fks : List FKField) (c : ForeignKeyCall)
    (delete update : Action) : Prop where
  tokens : tokens (b.addStatement table (fk :: fks) (c.select delete update)).text =
    some (addTokens table c.keyName fk fks (b.matchTokens c.matchOption) (b.available delete) (b.available update))
  stored : ∀ {δ : Type} (dbms : Dbms δ) (s : Session δ), s.table = table → s.newFK = fk :: fks →
    ∀ field ∈ (b.applyForeignKey dbms (c.select delete update) s).state.table.foreignKeys.values.flatten,
      Keeps s.table.foreignKeys (b.available delete).onDelete (b.available update).onUpdate field
  dialog : dialogDelete delete.selection = delete.onDelete ∧ dialogUpdate update.selection = update.onUpdate

structure PlainNames (table : DatabaseTable) (keyName : Text) (fk : FKField) (fks : List FKField) : Prop where
  table : IsWord (qualified table)
  keyName : IsWord keyName
  originals : ∀ f ∈ fk :: fks, IsWord f.originalField
  refTable : IsWord fk.refTable
  referenced : ∀ f ∈ fk :: fks, IsWord f.referencedField

structure HoldsWhen (b : Backend) (table : DatabaseTable) (fk : FKField) (fks : List FKField) (c : ForeignKeyCall)
    (update : Action) : Prop where
  names : PlainNames table c.keyName fk fks
  matchOption : ¬ (b = .postgres ∧ c.matchOption = 1)
  update : ¬ (b.isOdbc = true ∧ update = .restrict)

section Reading

theorem mem_nameTokens {names : List Text} {name : Text} (h : name ∈ names) : .word name ∈ nameTokens names := by
  induction names with
  | nil => cases h
  | cons first names ih =>
    cases names with
    | nil => simpa [nameTokens] using h
    | cons second names =>
      rcases List.mem_cons.mp h with rfl | h
      · exact List.mem_cons_self
      · exact List.mem_cons_of_mem _ (List.mem_cons_of_mem _ (ih h))

theorem plainNames_of_tokens {table : DatabaseTable} {keyName : Text} {fk : FKField} {fks : List FKField}
    {matchTokens : List Token} {delete update : Action} {text : Text}
    (h : tokens text = some (addTokens table keyName fk fks matchTokens delete update)) :
    PlainNames table keyName fk fks := by
  have hword : ∀ w, Token.word w ∈ addTokens table keyName fk fks matchTokens delete update → IsWord w := fun w hw =>
    isWord_of_mem_tokens h hw
  refine ⟨hword _ (by simp [addTokens, headTokens]), hword _ (by simp [addTokens, headTokens]), fun f hf => hword _ ?_,
    hword _ (by simp [addTokens, headTokens]), fun f hf => hword _ ?_⟩
  · have hmem := mem_nameTokens (List.mem_map_of_mem (f := FKField.originalField) hf)
    simp only [addTokens, headTokens, List.mem_append]
    tauto
  · have hmem := mem_nameTokens (List.mem_map_of_mem (f := FKField.referencedField) hf)
    simp only [addTokens, headTokens, List.mem_append]
    tauto

theorem isSymbol_comma : isSymbol ',' = true := rfl

theorem isSymbol_close : isSymbol ')' = true := rfl

theorem isSymbol_open : isSymbol '(' = true := rfl

theorem readsClean_blank {text : Text} {toks : List Token} (h : ReadsClean text toks) : ReadsClean (text ++ [' ']) toks := by
  have hblank : ReadsClean [' '] [] := fun done => rfl
  simpa using h.trans hblank

theorem readsClean_columnList {names : List Text} (hne : names ≠ []) (h : ∀ name ∈ names, IsWord name) :
    ReadsClean (columnList names) (nameTokens names ++ [.symbol ')']) := by
  induction names with
  | nil => exact absurd rfl hne
  | cons name names ih =>
    have hname := h name (by simp)
    cases names with
    | nil =>
      have hread := readsClean_blank (ReadsClean.wordSymbol hname isSymbol_close)
      simpa [columnList, nameTokens] using hread
    | cons second names =>
      have hrest := ih (List.cons_ne_nil _ _) fun n hn => h n (List.mem_cons_of_mem _ hn)
      have hread := (ReadsClean.wordSymbol hname isSymbol_comma).trans hrest
      simpa [columnList, nameTokens] using hread

def headText (table : DatabaseTable) (keyName : Text) (fk : FKField) (fks : List FKField) : Text :=
  alterTable table ++ "ADD CONSTRAINT ".toList ++ keyName ++ " ".toList ++ "FOREIGN KEY(".toList ++
    columnList ((fk :: fks).map FKField.originalField) ++ referencesClause (fk :: fks) ++
    columnList ((fk :: fks).map FKField.referencedField)

theorem readsClean_headText {table : DatabaseTable} {keyName : Text} {fk : FKField} {fks : List FKField}
    (h : PlainNames table keyName fk fks) :
    ReadsClean (headText table keyName fk fks) (headTokens table keyName fk fks) := by
  have halter : ReadsClean "ALTER TABLE ".toList [.word "ALTER".toList, .word "TABLE".toList] := fun done => rfl
  have hadd : ReadsClean "ADD CONSTRAINT ".toList [.word "ADD".toList, .word "CONSTRAINT".toList] := fun done => rfl
  have hkey : ReadsClean "FOREIGN KEY(".toList [.word "FOREIGN".toList, .word "KEY".toList, .symbol '('] := fun done => rfl
  have hreferences : ReadsClean "REFERENCES ".toList [.word "REFERENCES".toList] := fun done => rfl
  have horiginals : ∀ name ∈ (fk :: fks).map FKField.originalField, IsWord name := fun name hname => by
    obtain ⟨f, hf, rfl⟩ := List.mem_map.mp hname
    exact h.originals f hf
  have hreferenced : ∀ name ∈ (fk :: fks).map FKField.referencedField, IsWord name := fun name hname => by
    obtain ⟨f, hf, rfl⟩ := List.mem_map.mp hname
    exact h.referenced f hf
  have htable : ReadsClean (qualified table ++ " ".toList) [.word (qualified table)] := ReadsClean.word h.table
  have hname : ReadsClean (keyName ++ " ".toList) [.word keyName] := ReadsClean.word h.keyName
  have hrefTable : ReadsClean (fk.refTable ++ "(".toList) [.word fk.refTable, .symbol '('] :=
    ReadsClean.wordSymbol h.refTable isSymbol_open
  have hread := ((((((halter.trans htable).trans hadd).trans hname).trans hkey).trans
    (readsClean_columnList (by simp) horiginals)).trans (hreferences.trans hrefTable)).trans
      (readsClean_columnList (by simp) hreferenced)
  have htext : headText table keyName fk fks = "ALTER TABLE ".toList ++ (qualified table ++ " ".toList) ++
      "ADD CONSTRAINT ".toList ++ (keyName ++ " ".toList) ++ "FOREIGN KEY(".toList ++
        columnList ((fk :: fks).map FKField.originalField) ++ ("REFERENCES ".toList ++ (fk.refTable ++ "(".toList)) ++
          columnList ((fk :: fks).map FKField.referencedField) := by
    unfold headText alterTable qualified referencesClause
    simp only [List.append_assoc]
  rw [htext]
  exact hread

end Reading

section Tail

theorem readsClean_onDelete : ReadsClean "ON DELETE ".toList onDelete := fun _ => rfl

theorem readsClean_onUpdate : ReadsClean "ON UPDATE ".toList onUpdate := fun _ => rfl

def Backend.matchText (b : Backend) (matchOption : ℤ) : Text := if b = .postgres then matchClause matchOption else []

def Backend.deleteText (b : Backend) (action : Action) : Text :=
  match b with
  | .postgres => (Postgres.deleteRule action.selection).1
  | .mySQL => (MySQL.deleteRule action.selection).1
  | .odbc subtype => (Odbc.deleteRule subtype action.selection).1

def Backend.updateText (b : Backend) (action : Action) : Text :=
  match b with
  | .postgres => (Postgres.updateRule action.selection).1
  | .mySQL => (MySQL.updateRule action.selection).1
  | .odbc subtype => (Odbc.updateRule subtype action.selection).1

theorem addStatement_text (b : Backend) (table : DatabaseTable) (fk : FKField) (fks : List FKField) (c : ForeignKeyCall)
    (delete update : Action) :
    (b.addStatement table (fk :: fks) (c.select delete update)).text =
      headText table c.keyName fk fks ++ (b.matchText c.matchOption ++ "ON DELETE ".toList ++
        (b.deleteText delete ++ ("ON UPDATE ".toList ++ b.updateText update))) := by
  have hassoc : ∀ h m d e u v : Text, h ++ m ++ d ++ e ++ u ++ v = h ++ (m ++ d ++ (e ++ (u ++ v))) := by
    intro h m d e u v
    simp only [List.append_assoc]
  cases b <;> exact hassoc _ _ _ _ _ _

/-- The missing blank after PARTIAL makes one word of two. -/
def Backend.matchRead (b : Backend) (matchOption : ℤ) : List Token :=
  if b = .postgres ∧ matchOption = 1 then
    [.word "MATCH".toList, .word "PARTIALON".toList, .word "DELETE".toList]
  else b.matchTokens matchOption ++ onDelete

theorem readsClean_matchText (b : Backend) (matchOption : ℤ) :
    ReadsClean (b.matchText matchOption ++ "ON DELETE ".toList) (b.matchRead matchOption) := by
  cases b with
  | postgres =>
    by_cases h0 : matchOption = 0
    · subst h0
      exact fun _ => rfl
    · by_cases h1 : matchOption = 1
      · subst h1
        exact fun _ => rfl
      · have htext : Backend.postgres.matchText matchOption = "MATCH SIMPLE ".toList := by
          rw [Backend.matchText, if_pos rfl, matchClause, if_neg h0, if_neg h1]
        have hread : Backend.postgres.matchRead matchOption =
            [.word "MATCH".toList, .word "SIMPLE".toList] ++ onDelete := by
          rw [Backend.matchRead, if_neg (fun h => h1 h.2), Backend.matchTokens, if_pos rfl, if_neg h0, if_neg h1]
        rw [htext, hread]
        exact fun _ => rfl
  | mySQL => exact readsClean_onDelete
  | odbc subtype => exact readsClean_onDelete

theorem matchRead_append_ne (rest rest' : List Token) :
    Backend.postgres.matchRead 1 ++ rest' ≠ Backend.postgres.matchTokens 1 ++ onDelete ++ rest := by
  intro h
  have hmatch : (.word "MATCH".toList :: .word "PARTIALON".toList :: .word "DELETE".toList :: rest' : List Token) =
      .word "MATCH".toList :: .word "PARTIAL".toList :: (onDelete ++ rest) := h
  have hword := Token.word.inj (List.cons.inj (List.cons.inj hmatch).2).1
  exact absurd hword (by decide)

theorem readsClean_deleteText (b : Backend) (action : Action) :
    ReadsClean (b.deleteText action) (b.available action).words := by
  cases b with
  | postgres => cases action <;> exact fun _ => rfl
  | mySQL => cases action <;> exact fun _ => rfl
  | odbc subtype =>
    by_cases hs : subtype = sqlServer
    · subst hs
      cases action <;> exact fun _ => rfl
    · have havailable : (Backend.odbc subtype).available action = action := if_neg (by simp [hs])
      have hrule : (Backend.odbc subtype).deleteText action = (Postgres.deleteRule action.selection).1 := by
        have hif : (if subtype = "Microsoft SQL Server".toList then ("NO ACTION ".toList, FkOnDelete.noAction)
            else ("RESTRICT ".toList, .restrict)) = ("RESTRICT ".toList, .restrict) := if_neg hs
        rw [Backend.deleteText, Odbc.deleteRule, hif]
        rfl
      rw [havailable, hrule]
      cases action <;> exact fun _ => rfl

/-- The two lines after the `else` of RESTRICT are reached from either branch. -/
def Backend.updateRead (b : Backend) (action : Action) : List Token :=
  if b.isOdbc = true ∧ action = .restrict then (b.available action).words ++ Action.restrict.words
  else (b.available action).words

theorem isWord_of_all {s : Text} (hne : s ≠ []) (h : s.all isWordChar = true) : IsWord s :=
  ⟨hne, List.all_eq_true.mp h⟩

theorem reads_noAction : Reads "NO ACTION".toList Action.noAction.words := by
  have hno : ReadsClean "NO ".toList [.word "NO".toList] := fun _ => rfl
  have haction : IsWord "ACTION".toList := isWord_of_all (List.cons_ne_nil _ _) rfl
  exact hno.append (Reads.word haction.nonempty haction.chars)

theorem reads_restrict : Reads "RESTRICT".toList Action.restrict.words := by
  have hrestrict : IsWord "RESTRICT".toList := isWord_of_all (List.cons_ne_nil _ _) rfl
  exact Reads.word hrestrict.nonempty hrestrict.chars

theorem reads_updateRule (action : Action) :
    Reads (updateRule ("RESTRICT".toList, .restrict) action.selection).1 action.words := by
  cases action with
  | noAction => exact reads_noAction
  | restrict => exact reads_restrict
  | cascade =>
    have hcascade : IsWord "CASCADE".toList := isWord_of_all (List.cons_ne_nil _ _) rfl
    exact Reads.word hcascade.nonempty hcascade.chars
  | setNull =>
    have hset : ReadsClean "SET ".toList [.word "SET".toList] := fun _ => rfl
    have hnull : IsWord "NULL".toList := isWord_of_all (List.cons_ne_nil _ _) rfl
    exact hset.append (Reads.word hnull.nonempty hnull.chars)
  | setDefault =>
    have hset : ReadsClean "SET ".toList [.word "SET".toList] := fun _ => rfl
    have hdefault : IsWord "DEFAULT".toList := isWord_of_all (List.cons_ne_nil _ _) rfl
    exact hset.append (Reads.word hdefault.nonempty hdefault.chars)

theorem reads_updateText (b : Backend) (action : Action) : Reads (b.updateText action) (b.updateRead action) := by
  cases b with
  | postgres => exact reads_updateRule action
  | mySQL => exact reads_updateRule action
  | odbc subtype =>
    by_cases hrestrict : action = .restrict
    · subst hrestrict
      by_cases hs : subtype = sqlServer
      · subst hs
        have hnoAction : ReadsClean "NO ACTION ".toList Action.noAction.words := fun _ => rfl
        exact hnoAction.append reads_restrict
      · have htext : (Backend.odbc subtype).updateText .restrict = "RESTRICT ".toList ++ "RESTRICT".toList := by
          have hif : (if subtype = "Microsoft SQL Server".toList then "NO ACTION ".toList else "RESTRICT ".toList) =
              "RESTRICT ".toList := if_neg hs
          rw [Backend.updateText, Odbc.updateRule, hif]
          rfl
        have hread : (Backend.odbc subtype).updateRead .restrict = Action.restrict.words ++ Action.restrict.words := by
          have havailable : (Backend.odbc subtype).available .restrict = .restrict := if_neg fun h => hs (by simpa using h)
          rw [Backend.updateRead, havailable]
          rfl
        have hclean : ReadsClean "RESTRICT ".toList Action.restrict.words := fun _ => rfl
        rw [htext, hread]
        exact hclean.append reads_restrict
    · have hread : (Backend.odbc subtype).updateRead action = action.words := by
        rw [Backend.updateRead, if_neg fun h => hrestrict h.2, Backend.available, if_neg fun h => hrestrict h.2]
      rw [hread]
      have hrule := reads_updateRule action
      cases action with
      | restrict => exact absurd rfl hrestrict
      | noAction | cascade | setNull | setDefault => exact hrule

theorem matchRead_append_iff (b : Backend) (matchOption : ℤ) (rest rest' : List Token) :
    b.matchRead matchOption ++ rest = b.matchTokens matchOption ++ onDelete ++ rest' ↔
      ¬(b = .postgres ∧ matchOption = 1) ∧ rest = rest' := by
  by_cases h : b = .postgres ∧ matchOption = 1
  · obtain ⟨rfl, rfl⟩ := h
    exact iff_of_false (matchRead_append_ne rest' rest) fun hn => hn.1 ⟨rfl, rfl⟩
  · rw [Backend.matchRead, if_neg h, List.append_cancel_left_eq]
    exact (and_iff_right h).symm

theorem updateRead_eq_iff (b : Backend) (action : Action) :
    b.updateRead action = (b.available action).words ↔ ¬(b.isOdbc = true ∧ action = .restrict) := by
  rw [Backend.updateRead]
  split_ifs with h
  · have hlength : (b.available action).words ++ Action.restrict.words ≠ (b.available action).words := by
      simp [Action.words]
    exact iff_of_false hlength fun hn => hn h
  · exact iff_of_true rfl h

theorem tokens_addStatement (b : Backend) {table : DatabaseTable} {fk : FKField} {fks : List FKField} {c : ForeignKeyCall}
    (hnames : PlainNames table c.keyName fk fks) (delete update : Action) :
    tokens (b.addStatement table (fk :: fks) (c.select delete update)).text =
      some (headTokens table c.keyName fk fks ++ (b.matchRead c.matchOption ++
        ((b.available delete).words ++ (onUpdate ++ b.updateRead update)))) := by
  have hupdate := readsClean_onUpdate.append (reads_updateText b update)
  have hactions := (readsClean_matchText b c.matchOption).append ((readsClean_deleteText b delete).append hupdate)
  rw [addStatement_text]
  exact ((readsClean_headText hnames).append hactions).tokens_eq

theorem tokens_eq_addTokens_iff (b : Backend) (table : DatabaseTable) (fk : FKField) (fks : List FKField)
    (c : ForeignKeyCall) (delete update : Action) :
    tokens (b.addStatement table (fk :: fks) (c.select delete update)).text =
        some (addTokens table c.keyName fk fks (b.matchTokens c.matchOption) (b.available delete) (b.available update)) ↔
      HoldsWhen b table fk fks c update := by
  have hread : PlainNames table c.keyName fk fks →
      (tokens (b.addStatement table (fk :: fks) (c.select delete update)).text =
          some (addTokens table c.keyName fk fks (b.matchTokens c.matchOption) (b.available delete) (b.available update)) ↔
        ¬(b = .postgres ∧ c.matchOption = 1) ∧ ¬(b.isOdbc = true ∧ update = .restrict)) := fun hnames => by
    rw [tokens_addStatement b hnames, addTokens, Option.some.injEq, List.append_cancel_left_eq, matchRead_append_iff,
      List.append_cancel_left_eq, List.append_cancel_left_eq, updateRead_eq_iff]
  constructor
  · intro h
    have hnames := plainNames_of_tokens h
    obtain ⟨hmatch, hupdate⟩ := (hread hnames).mp h
    exact ⟨hnames, hmatch, hupdate⟩
  · rintro ⟨hnames, hmatch, hupdate⟩
    exact (hread hnames).mpr ⟨hmatch, hupdate⟩

end Tail

section Stored

variable {δ : Type} {delete : FkOnDelete} {update : FkOnUpdate}

def Kept (delete : FkOnDelete) (update : FkOnUpdate) (m n : ForeignKeyMap) : Prop :=
  ∀ field ∈ n.values.flatten, Keeps m delete update field

namespace Kept

theorem refl (m : ForeignKeyMap) : Kept delete update m m := fun _ hfield => .inl hfield

theorem trans {m n k : ForeignKeyMap} (hmn : Kept delete update m n) (hnk : Kept delete update n k) :
    Kept delete update m k := by
  intro field hfield
  rcases hnk field hfield with hold | hnew
  · exact hmn field hold
  · exact .inr hnew

theorem upsert (key : ℕ) (m : ForeignKeyMap) {fields : List FKField}
    (h : ∀ field ∈ fields, field.deleteConstraint = delete ∧ field.updateConstraint = update) :
    Kept delete update m (m.upsert key fun old => old.getD [] ++ fields) := by
  intro field hfield
  have hmem := (OrderedMap.values_upsert_append_perm key fields m).mem_iff.mp hfield
  rcases List.mem_append.mp hmem with hold | hnew
  · exact .inl hold
  · exact .inr (h field hnew)

theorem upsert_nil (key : ℕ) (m : ForeignKeyMap) : Kept delete update m (m.upsert key fun old => old.getD []) := by
  have hfun : (fun old : Option (List FKField) => old.getD []) = fun old => old.getD [] ++ [] := by
    funext old
    exact (List.append_nil _).symm
  rw [hfun]
  exact upsert key m (by simp)

theorem pushForeignKeyFields (key : ℕ) (m : ForeignKeyMap) {fields : List FKField}
    (h : ∀ field ∈ fields, field.deleteConstraint = delete ∧ field.updateConstraint = update) :
    Kept delete update m (AlterTable.pushForeignKeyFields key fields m) := by
  by_cases hne : fields = []
  · subst hne
    exact refl m
  · rw [pushForeignKeyFields_eq key m hne]
    exact upsert key m h

theorem removeForeignKeyField (keyName : Text) (m : ForeignKeyMap) :
    Kept delete update m (AlterTable.removeForeignKeyField keyName m) := by
  intro field hfield
  refine .inl ?_
  have hsub := OrderedMap.values_updateFirst_subset (p := fun fields : List FKField =>
    if fields.any (·.fkName = keyName) then some (fields.eraseP (·.fkName = keyName)) else none) (m := m)
  refine hsub (fun fields shorter hshorter => ?_) hfield
  split_ifs at hshorter
  obtain rfl := Option.some.inj hshorter
  exact List.eraseP_subset

end Kept

theorem fields_actions (delete : FkOnDelete) (update : FkOnUpdate) (c : ForeignKeyCall) (tableName : Text)
    (newFK : List FKField) (matchOption : ℤ) :
    ∀ field ∈ c.fields tableName newFK update delete matchOption,
      field.deleteConstraint = delete ∧ field.updateConstraint = update := by
  intro field hfield
  rw [ForeignKeyCall.fields, List.mem_mapIdx] at hfield
  obtain ⟨i, hi, rfl⟩ := hfield
  exact ⟨rfl, rfl⟩

theorem kept_storeForeignKey (key : ℕ) (c : ForeignKeyCall) (matchOption : ℤ) (s : Session δ) :
    Kept delete update s.table.foreignKeys
      (storeForeignKey key c update delete matchOption s).state.table.foreignKeys := by
  have hpush := Kept.pushForeignKeyFields key s.table.foreignKeys
    (fields_actions delete update c s.table.tableName s.newFK matchOption)
  rw [storeForeignKey]
  split_ifs
  · exact hpush
  · exact hpush.trans (Kept.upsert_nil key _)

def KeptIn (delete : FkOnDelete) (update : FkOnUpdate) (s t : Session δ) : Prop :=
  Kept delete update s.table.foreignKeys t.table.foreignKeys

theorem KeptIn.of_table {s t : Session δ} (h : t.table = s.table) : KeptIn delete update s t := by
  rw [KeptIn, h]
  exact Kept.refl _

theorem KeptIn.trans {s t u : Session δ} (hst : KeptIn delete update s t) (htu : KeptIn delete update t u) :
    KeptIn delete update s u := Kept.trans hst htu

theorem keptIn_remove (keyName : Text) {s t : Session δ} (h : t.table = s.table) :
    KeptIn delete update s (t.setForeignKeys (removeForeignKeyField keyName t.table.foreignKeys)) := by
  rw [KeptIn, ← h]
  exact Kept.removeForeignKeyField keyName _

theorem keptIn_dropForeignKey (b : Backend) (dbms : Dbms δ) (keyName : Text) (logOnly : Bool) (s : Session δ) :
    KeptIn delete update s (b.dropForeignKey dbms keyName logOnly s).2 := by
  cases logOnly with
  | true =>
    cases b <;> exact KeptIn.of_table rfl
  | false =>
    cases b with
    | postgres =>
      rw [Backend.dropForeignKey, Postgres.dropForeignKey, if_neg Bool.false_ne_true]
      cases h : s.execute dbms (Postgres.dropStatement s.table keyName) with
      | error err => exact KeptIn.of_table rfl
      | ok t => exact keptIn_remove keyName (execute_table h).1
    | mySQL =>
      rw [Backend.dropForeignKey, MySQL.dropForeignKey, if_neg Bool.false_ne_true]
      cases h : s.execute dbms (MySQL.dropStatement s.table keyName) with
      | error err => exact KeptIn.of_table rfl
      | ok t => exact keptIn_remove keyName (execute_table h).1
    | odbc subtype =>
      rw [Backend.dropForeignKey, Odbc.dropForeignKey, if_neg Bool.false_ne_true]
      cases halloc : s.allocStatement dbms with
      | error err => exact KeptIn.of_table rfl
      | ok t =>
        have ht := (allocStatement_table halloc).1
        dsimp only
        cases hexec : t.execute dbms (Odbc.dropStatement s.table keyName) with
        | error err => exact KeptIn.of_table ((freeStatement_table dbms 1 _).1.trans ht)
        | ok u =>
          have hu := (execute_table hexec).1.trans ht
          exact (keptIn_remove keyName hu).trans (KeptIn.of_table (freeStatement_table dbms 0 _).1)

theorem keptIn_storeForeignKey (delete : FkOnDelete) (update : FkOnUpdate) (key : ℕ) (c : ForeignKeyCall)
    (matchOption : ℤ) {s t : Session δ}
    (h : t.table = s.table) : KeptIn delete update s (storeForeignKey key c update delete matchOption t).state := by
  rw [KeptIn, ← h]
  exact kept_storeForeignKey key c matchOption t

theorem keptIn_reloadNewFK (key : ℕ) (s : Session δ) : KeptIn delete update s (MySQL.reloadNewFK key s) :=
  Kept.upsert_nil key s.table.foreignKeys

theorem keptIn_bind {o : Outcome (Session δ)} {f : ℕ → Session δ → Outcome (Session δ)} {s : Session δ}
    (ho : KeptIn delete update s o.state) (hf : ∀ code t, KeptIn delete update t (f code t).state) :
    KeptIn delete update s (o.bind f).state := by
  cases o with
  | returned code t => exact ho.trans (hf code t)
  | outOfRange t => exact ho

theorem keptIn_drop (b : Backend) (dbms : Dbms δ) (c : ForeignKeyCall) (s : Session δ) :
    ∃ result t, (if c.isNew then (0, s) else b.dropForeignKey dbms c.keyName c.logOnly s) = (result, t) ∧
      KeptIn delete update s t := by
  cases c.isNew with
  | true => exact ⟨0, s, rfl, KeptIn.of_table rfl⟩
  | false => exact ⟨_, _, rfl, keptIn_dropForeignKey b dbms c.keyName c.logOnly s⟩

theorem keptIn_postgres (dbms : Dbms δ) (c : ForeignKeyCall) (s : Session δ) :
    KeptIn (Postgres.deleteRule c.deleteProp).2 (Postgres.updateRule c.updateProp).2 s
      (Postgres.applyForeignKey dbms c s).state := by
  obtain ⟨result, t, hdrop, ht⟩ := keptIn_drop .postgres dbms c s
  rw [Backend.dropForeignKey] at hdrop
  rw [Postgres.applyForeignKey, hdrop]
  dsimp only
  split_ifs
  · cases h : t.execute dbms (Postgres.addStatement s.table s.newFK c) with
    | error err => exact ht.trans (KeptIn.of_table rfl)
    | ok u => exact ht.trans (keptIn_storeForeignKey _ _ _ c c.matchOption (execute_table h).1)
  · exact ht.trans (KeptIn.of_table rfl)

theorem keptIn_mySQL (dbms : Dbms δ) (c : ForeignKeyCall) (s : Session δ) :
    KeptIn (MySQL.deleteRule c.deleteProp).2 (MySQL.updateRule c.updateProp).2 s
      (MySQL.applyForeignKey dbms c s).state := by
  obtain ⟨result, t, hdrop, ht⟩ := keptIn_drop .mySQL dbms c s
  rw [Backend.dropForeignKey] at hdrop
  rw [MySQL.applyForeignKey, hdrop]
  dsimp only
  split_ifs
  · exact KeptIn.of_table rfl
  · cases h : t.execute dbms (MySQL.addStatement s.table s.newFK c) with
    | error err => exact ht.trans (KeptIn.of_table rfl)
    | ok u =>
      have hstored := keptIn_storeForeignKey (MySQL.deleteRule c.deleteProp).2 (MySQL.updateRule c.updateProp).2
        (u.table.foreignKeys.size + 1) c (-1) (execute_table h).1
      exact ht.trans (keptIn_bind hstored fun _ v => keptIn_reloadNewFK _ v)
  · exact ht.trans (KeptIn.of_table rfl)

theorem keptIn_odbc (subtype : Text) (dbms : Dbms δ) (c : ForeignKeyCall) (s : Session δ) :
    KeptIn (Odbc.deleteRule subtype c.deleteProp).2 (Odbc.updateRule subtype c.updateProp).2 s
      (Odbc.applyForeignKey subtype dbms c s).state := by
  obtain ⟨result, t, hdrop, ht⟩ := keptIn_drop (.odbc subtype) dbms c s
  rw [Backend.dropForeignKey] at hdrop
  rw [Odbc.applyForeignKey, hdrop]
  dsimp only
  split_ifs
  · exact ht
  · cases halloc : t.allocStatement dbms with
    | error err => exact ht.trans (KeptIn.of_table rfl)
    | ok u =>
      have hu := ht.trans (KeptIn.of_table (allocStatement_table halloc).1)
      dsimp only
      refine hu.trans (keptIn_bind ?_ fun code v => KeptIn.of_table (freeStatement_table dbms code v).1)
      cases h : u.execute dbms (Odbc.addStatement subtype s.table s.newFK c) with
      | error err => exact KeptIn.of_table rfl
      | ok v => exact keptIn_storeForeignKey _ _ _ c (-1) (execute_table h).1
  · exact ht.trans (KeptIn.of_table rfl)
  · exact ht

theorem deleteRule_stored (b : Backend) (action : Action) : (match b with
    | .postgres => Postgres.deleteRule action.selection
    | .mySQL => MySQL.deleteRule action.selection
    | .odbc subtype => Odbc.deleteRule subtype action.selection).2 = (b.available action).onDelete := by
  cases b with
  | postgres => cases action <;> rfl
  | mySQL => cases action <;> rfl
  | odbc subtype =>
    by_cases hs : subtype = sqlServer
    · subst hs
      cases action <;> rfl
    · have havailable : (Backend.odbc subtype).available action = action := if_neg (by simp [hs])
      have hif : (if subtype = "Microsoft SQL Server".toList then ("NO ACTION ".toList, FkOnDelete.noAction)
          else ("RESTRICT ".toList, .restrict)) = ("RESTRICT ".toList, .restrict) := if_neg hs
      rw [havailable]
      change (Odbc.deleteRule subtype action.selection).2 = _
      rw [Odbc.deleteRule, hif]
      cases action <;> rfl

theorem updateRule_stored (b : Backend) {action : Action} (h : ¬(b.isOdbc = true ∧ action = .restrict)) :
    (match b with
      | .postgres => Postgres.updateRule action.selection
      | .mySQL => MySQL.updateRule action.selection
      | .odbc subtype => Odbc.updateRule subtype action.selection).2 = (b.available action).onUpdate := by
  cases b with
  | postgres => cases action <;> rfl
  | mySQL => cases action <;> rfl
  | odbc subtype =>
    have hrestrict : action ≠ .restrict := fun heq => h ⟨rfl, heq⟩
    have havailable : (Backend.odbc subtype).available action = action := if_neg fun hn => hrestrict hn.2
    rw [havailable]
    cases action with
    | restrict => exact absurd rfl hrestrict
    | noAction | cascade | setNull | setDefault => rfl

theorem keptIn_applyForeignKey (b : Backend) (dbms : Dbms δ) (c : ForeignKeyCall) {delete update : Action} (s : Session δ)
    (h : ¬(b.isOdbc = true ∧ update = .restrict)) :
    KeptIn (b.available delete).onDelete (b.available update).onUpdate s
      (b.applyForeignKey dbms (c.select delete update) s).state := by
  rw [← deleteRule_stored b delete, ← updateRule_stored b h]
  cases b with
  | postgres => exact keptIn_postgres dbms (c.select delete update) s
  | mySQL => exact keptIn_mySQL dbms (c.select delete update) s
  | odbc subtype => exact keptIn_odbc subtype dbms (c.select delete update) s

end Stored

end DbHandler.AlterTable
