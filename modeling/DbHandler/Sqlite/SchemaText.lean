import DbHandler.AlterTable.WellFormed
import DbHandler.Foundation.Sql.Parentheses
import DbHandler.Sqlite.ForeignKeys

namespace DbHandler.SqliteSchema

open Foundation Foundation.Sql Sqlite Sqlite.ForeignKeys
open AlterTable (Action ForeignKeyCall)

section Writing

variable {δ : Type} {client : Client δ} {c : ForeignKeyCall} {s : KeySession δ} {sql : Text} {next : Session δ}

variable (client c) in
/-- What follows in `ApplyForeignKey` once the new text of the statement is there. -/
def writeText (sql : Text) (s : KeySession δ) : Ending (KeySession δ) :=
  if c.logOnly then .returned 0 { s with command := logCommand sql s.table.tableName }
  else
    let (stored, t) := storeSql client sql s.table.tableName s.session
    let s := s.withSession t
    if stored then .returned 0 (s.setForeignKeys (storeKey c.keyName s.table.tableName s.newFK s.table.foreignKeys))
    else .returned 1 s

theorem writeSchema_eq {written : Text} (h : addClause c s.newFK sql = .ok written) :
    writeSchema client c sql s = writeText client c written s := by
  rw [writeSchema, h]
  rfl

variable (client c s sql next) in
/-- The call gets to the text of the table's statement. -/
def ReadsSql : Prop :=
  ∃ opened prepared cursor, openSchema client c.logOnly s.session = (true, opened) ∧
    opened.prepare client (.tableSql s.table.tableName) = (true, prepared) ∧
    prepared.step client (.tableSql s.table.tableName) [] = (cursor, next) ∧
    readSql cursor.rows = some sql ∧ cursor.last = none

theorem applyForeignKey_reads (h : ReadsSql client c s sql next) :
    applyForeignKey client c s = rewriteSchema client c sql (s.withSession next) := by
  obtain ⟨opened, prepared, ⟨rows, last⟩, hopened, hprepared, hstep, hsql, hlast⟩ := h
  obtain rfl : last = none := hlast
  have hread : readSql rows = some sql := hsql
  simp only [applyForeignKey, hopened, if_true, hprepared, hstep, hread]

end Writing

/-- A `CREATE TABLE` statement: what stands before, between and behind the parentheses of its column list. -/
structure CreateTable where
  head : Text
  body : Text
  tail : Text
  head_balanced : Balanced head
  body_balanced : Balanced body
  tail_balanced : Balanced tail

namespace CreateTable

def text (t : CreateTable) : Text := t.head ++ '(' :: t.body ++ ')' :: t.tail

end CreateTable

def actionText (clause name : Text) (action : Action) : Text := if action = .noAction then [] else clause ++ name

def onDeleteText (action : Action) : Text := actionText " ON DELETE ".toList action.onDelete.name action

def onUpdateText (action : Action) : Text := actionText " ON UPDATE ".toList action.onUpdate.name action

def columnList (names : List Text) : Text := '(' :: ", ".toList.intercalate names ++ ")".toList

/-- The clause of a key, behind its comma; without an action there is no word about it. -/
def keyClause (keyName : Text) (fk : FKField) (fks : List FKField) (delete update : Action) : Text :=
  ", ".toList ++ (if keyName = [] then [] else "CONSTRAINT ".toList ++ keyName ++ " ".toList) ++ "FOREIGN KEY".toList ++
    columnList ((fk :: fks).map FKField.originalField) ++ " REFERENCES ".toList ++ fk.refTable ++
    columnList ((fk :: fks).map FKField.referencedField) ++ onDeleteText delete ++ onUpdateText update

/-- The written text is the statement with the clause at the end of its column list. -/
def Inserts (t : CreateTable) (clause written : Text) : Prop :=
  ∃ new : CreateTable, new.text = written ∧ new.head = t.head ∧ new.body = t.body ++ clause ∧ new.tail = t.tail

theorem columnNames_eq (name : Text) (names : List Text) :
    columnNames (name :: names) = ", ".toList.intercalate (name :: names) ++ ")".toList := by
  induction names generalizing name with
  | nil => simp [columnNames, List.intercalate]
  | cons next names ih =>
    have hintercalate : ", ".toList.intercalate (name :: next :: names) =
        name ++ ", ".toList ++ ", ".toList.intercalate (next :: names) := by
      simp [List.intercalate, List.intersperse]
    rw [columnNames, ih, hintercalate]
    · simp only [List.append_assoc]
    · simp

theorem actionClause_delete (action : Action) : actionClause " ON DELETE ".toList action.selection = onDeleteText action := by
  cases action <;> rfl

theorem actionClause_update (action : Action) : actionClause " ON UPDATE ".toList action.selection = onUpdateText action := by
  cases action <;> rfl

theorem constraintClause_eq (c : ForeignKeyCall) (fk : FKField) (fks : List FKField) (delete update : Action) :
    constraintClause (c.select delete update) fk fks = keyClause c.keyName fk fks delete update ++ ")".toList := by
  have hnamed : ", CONSTRAINT ".toList = ", ".toList ++ "CONSTRAINT ".toList := rfl
  have hopen : " FOREIGN KEY(".toList = " ".toList ++ ("FOREIGN KEY".toList ++ ['(']) := rfl
  have hplain : ", FOREIGN KEY(".toList = ", ".toList ++ ("FOREIGN KEY".toList ++ ['(']) := rfl
  have hparenthesis : "(".toList = ['('] := rfl
  have hcons (names : List Text) : columnList names = ['('] ++ (", ".toList.intercalate names ++ ")".toList) := rfl
  have hname : (if c.keyName ≠ [] then ", CONSTRAINT ".toList ++ c.keyName ++ " FOREIGN KEY(".toList
      else ", FOREIGN KEY(".toList) =
      ", ".toList ++ (if c.keyName = [] then [] else "CONSTRAINT ".toList ++ c.keyName ++ " ".toList) ++
        "FOREIGN KEY".toList ++ ['('] := by
    by_cases hempty : c.keyName = []
    · rw [if_neg (not_not_intro hempty), if_pos hempty, hplain]
      simp only [List.append_assoc, List.nil_append]
    · rw [if_pos hempty, if_neg hempty, hnamed, hopen]
      simp only [List.append_assoc]
  unfold constraintClause keyClause
  rw [hcons, hcons, List.map_cons, List.map_cons, columnNames_eq, columnNames_eq, hparenthesis,
    ForeignKeyCall.select, actionClause_delete, actionClause_update, hname]
  simp only [List.append_assoc]

theorem keyClause_cons (keyName : Text) (fk : FKField) (fks : List FKField) (delete update : Action) :
    ∃ rest, keyClause keyName fk fks delete update = ',' :: rest := by
  have hseparator : ∃ rest, keyClause keyName fk fks delete update = ", ".toList ++ rest := by
    unfold keyClause
    generalize ", ".toList = separator
    simp only [List.append_assoc]
    exact ⟨_, rfl⟩
  obtain ⟨rest, hrest⟩ := hseparator
  exact ⟨' ' :: rest, hrest⟩

namespace CreateTable

variable (t : CreateTable)

theorem text_ne_nil : t.text ≠ [] := by simp [text]

/-- Without a tail the last character is the parenthesis that closes the column list. -/
theorem dropLast_closed (h : t.tail = []) : t.text.dropLast = t.head ++ '(' :: t.body := by
  rw [text, h, List.dropLast_concat]

theorem dropLast_open (h : t.tail ≠ []) : t.text.dropLast = t.head ++ '(' :: t.body ++ ')' :: t.tail.dropLast := by
  rw [text, List.dropLast_append_of_ne_nil (by simp), List.dropLast_cons_of_ne_nil h]

end CreateTable

theorem inserts_iff (t : CreateTable) (keyName : Text) (fk : FKField) (fks : List FKField) (delete update : Action) :
    Inserts t (keyClause keyName fk fks delete update)
        (t.text.dropLast ++ (keyClause keyName fk fks delete update ++ ")".toList)) ↔
      t.tail = [] ∧ Balanced (keyClause keyName fk fks delete update) := by
  obtain ⟨rest, hclause⟩ := keyClause_cons keyName fk fks delete update
  have hbody : Balanced (t.body ++ ',' :: rest) ↔ Balanced (',' :: rest) :=
    balanced_append_cons_iff t.body_balanced (by decide) (by decide) rest
  rw [hclause]
  constructor
  · rintro ⟨new, htext, hhead, hnew, htail⟩
    have hempty : t.tail = [] := by
      by_contra hne
      rw [t.dropLast_open hne, CreateTable.text, hhead, hnew, htail] at htext
      simp at htext
    refine ⟨hempty, hbody.mp ?_⟩
    rw [← hnew]
    exact new.body_balanced
  · rintro ⟨hempty, hbalanced⟩
    have htext : t.head ++ '(' :: (t.body ++ ',' :: rest) ++ ')' :: t.tail = t.text.dropLast ++ (',' :: rest ++ ")".toList) := by
      rw [t.dropLast_closed hempty, hempty]
      simp
    exact ⟨⟨t.head, t.body ++ ',' :: rest, t.tail, t.head_balanced, hbody.mpr hbalanced, t.tail_balanced⟩, htext, rfl, rfl, rfl⟩

theorem adds_one_clause_iff {δ : Type} (client : Client δ) (t : CreateTable) (c : ForeignKeyCall) (hnew : c.isNew = true)
    (delete update : Action) {s : KeySession δ} {next : Session δ} {fk : FKField} {fks : List FKField}
    (hkey : s.newFK = fk :: fks) (hreads : ReadsSql client (c.select delete update) s t.text next) :
    ∃ written, addClause (c.select delete update) s.newFK t.text = .ok written ∧
      applyForeignKey client (c.select delete update) s =
        writeText client (c.select delete update) written (s.withSession next) ∧
      (Inserts t (keyClause c.keyName fk fks delete update) written ↔
        t.tail = [] ∧ Balanced (keyClause c.keyName fk fks delete update)) := by
  have hadd : addClause (c.select delete update) s.newFK t.text =
      .ok (t.text.dropLast ++ (keyClause c.keyName fk fks delete update ++ ")".toList)) := by
    rw [hkey, ← constraintClause_eq]
    exact if_neg t.text_ne_nil
  have hisNew : (c.select delete update).isNew = true := hnew
  refine ⟨_, hadd, ?_, inserts_iff t c.keyName fk fks delete update⟩
  rw [applyForeignKey_reads hreads, rewriteSchema, if_pos hisNew]
  exact writeSchema_eq hadd

def storedClient (sql : Text) : Client Unit where
  exec _ _ := (none, ())
  prepare _ _ := (none, ())
  bindText _ _ _ _ := (none, ())
  step _ query _ :=
    match query with
    | .tableSql _ => (⟨[[.text sql]], none⟩, ())
    | _ => (⟨[], none⟩, ())

/-- `orders(client)` references `clients(id)`. -/
def clientKey : FKField where
  fkId := 0
  fkName := []
  origSchema := []
  tableName := "orders".toList
  originalField := "client".toList
  refSchema := []
  refTable := "clients".toList
  referencedField := "id".toList
  origFields := []
  refFields := []
  updateConstraint := .noAction
  deleteConstraint := .cascade

def ordersTable : DatabaseTable where
  schemaName := []
  tableName := "orders".toList
  foreignKeys := .empty

def ordersSession : KeySession Unit := ⟨⟨(), [], []⟩, ordersTable, [], [clientKey]⟩

def addCall : ForeignKeyCall := ⟨"fk".toList, [], "clients".toList, [], 0, 0, true, true, 0⟩

theorem orders_balanced : Balanced "CREATE TABLE orders".toList := by decide

def createOrders (tail : Text) (h : Balanced tail) : CreateTable where
  head := "CREATE TABLE orders".toList
  body := "client INT".toList
  tail := tail
  head_balanced := orders_balanced
  body_balanced := by decide
  tail_balanced := h

def plainOrders : CreateTable := createOrders [] balanced_nil

def rowlessOrders : CreateTable := createOrders " WITHOUT ROWID".toList (by decide)

theorem readsSql_stored (t : CreateTable) (c : ForeignKeyCall) (h : c.logOnly = true) :
    ReadsSql (storedClient t.text) c ordersSession t.text ordersSession.session :=
  ⟨_, _, _, by rw [openSchema, h]; rfl, rfl, rfl, rfl, rfl⟩

theorem plain_orders_gets_its_clause : ∃ written, addClause (addCall.select .cascade .noAction) [clientKey] plainOrders.text = .ok written ∧
    applyForeignKey (storedClient plainOrders.text) (addCall.select .cascade .noAction) ordersSession =
      writeText (storedClient plainOrders.text) (addCall.select .cascade .noAction) written
        (ordersSession.withSession ordersSession.session) ∧
    (Inserts plainOrders (keyClause "fk".toList clientKey [] .cascade .noAction) written ↔
      plainOrders.tail = [] ∧ Balanced (keyClause "fk".toList clientKey [] .cascade .noAction)) :=
  adds_one_clause_iff (storedClient plainOrders.text) plainOrders addCall rfl .cascade .noAction rfl
    (readsSql_stored plainOrders _ rfl)

theorem rowless_orders_is_cut :
    ∃ written, addClause (addCall.select .cascade .noAction) [clientKey] rowlessOrders.text = .ok written ∧
      ¬ Inserts rowlessOrders (keyClause "fk".toList clientKey [] .cascade .noAction) written := by
  refine ⟨rowlessOrders.text.dropLast ++ constraintClause (addCall.select .cascade .noAction) clientKey [], rfl, fun h => ?_⟩
  rw [constraintClause_eq] at h
  have hempty : rowlessOrders.tail = [] := ((inserts_iff rowlessOrders "fk".toList clientKey [] .cascade .noAction).mp h).1
  exact absurd hempty (by decide)

end DbHandler.SqliteSchema
