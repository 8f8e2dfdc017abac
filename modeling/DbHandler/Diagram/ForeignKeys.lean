import DbHandler.Foundation.Faults
import DbHandler.Foundation.Runs
import DbHandler.Diagram.Canvas

namespace DbHandler.Diagram

open Foundation.Faults Foundation.Runs

def ownUpdateAction : FkOnUpdate → ConstraintAction
  | .noAction => .noAction
  | .restrict => .restrict
  | .setNull => .setNull
  | .setDefault => .setDefault
  | .cascade => .cascade

def ownDeleteAction : FkOnDelete → ConstraintAction
  | .noAction => .noAction
  | .restrict => .restrict
  | .setNull => .setNull
  | .setDefault => .setDefault
  | .cascade => .cascade

structure Line where
  source : ℕ
  target : ℕ
  columns : Text × Text
  onUpdate : ConstraintAction
  onDelete : ConstraintAction
  deriving DecidableEq, Repr

def Connection.line (k : Connection) : Line :=
  ⟨k.source, k.target, (k.constraint.localColumn, k.constraint.refColumn), k.constraint.onUpdate, k.constraint.onDelete⟩

def displayedReferences (tables : List ErdTable) : List (Reference × ℕ) :=
  (references tables).filterMap fun r =>
    if displayedAt tables r.place then (displayedPlace tables r.field.refTable).map (r, ·) else none

def ownLine (p : Reference × ℕ) : Line :=
  ⟨p.1.place, p.2, p.1.field.columns, ownUpdateAction p.1.field.updateConstraint,
    ownDeleteAction p.1.field.deleteConstraint⟩

/-- Each foreign key field whose tables are displayed is drawn once, from the table that has it to the table
that it references and with its own rules, and stands once among the relations of a query. -/
structure ShowsKeysOnce (c : Canvas) : Prop where
  connections : (c.connections.map Connection.line).Perm ((displayedReferences c.tables).map ownLine)
  relations : c.view = .queryView → c.whereRelations.Perm ((displayedReferences c.tables).map fun p => relation p.1)

def Restricts (field : FKField) : Prop := field.updateConstraint = .restrict ∧ field.deleteConstraint = .restrict

structure FirstDrawing (tables : List ErdTable) (selections : List Text) : Prop where
  undrawn : displayedReferences tables = []
  drawable : ∀ r ∈ references tables,
    r.field.refTable ∈ selections ∨ (referencedTable tables r.field.refTable).isSome →
      (referencedTable tables r.field.refTable).isSome ∧ referencedTable tables r.tableName = some r.place ∧
        Restricts r.field

def KeyDrawing (c : Canvas) (place : ℕ) : List FKField → Prop
  | [] => displayedTables c.tables = []
  | first :: rest =>
    if c.view = .databaseView ∧ (displayedPlace c.tables first.refTable).isSome then
      ∀ field ∈ first :: rest, displayedPlace c.tables field.refTable = some place ∧ Restricts field
    else displayedAt c.tables place → ∀ field ∈ first :: rest, displayedPlace c.tables field.refTable = none

def DrawsOnce (c : Canvas) : Call → Prop
  | .addTables _ => True
  | .displayTables selections _ => FirstDrawing c.tables selections
  | .createForeignKey place _ fields => KeyDrawing c place fields

def Settled (names : List Text) : List ErdTable → Prop
  | [] => True
  | t :: ts => (t.inDiagram → t.table.tableName ∉ names) ∧ Settled (t.table.tableName :: names) ts

def Complete (names : List Text) : List ErdTable → Prop
  | [] => True
  | t :: ts => (t.inDiagram ↔ t.table.tableName ∉ names) ∧ Complete (t.table.tableName :: names) ts

theorem Complete.settled {names : List Text} {ts : List ErdTable} (h : Complete names ts) : Settled names ts := by
  induction ts generalizing names with
  | nil => trivial
  | cons t ts ih => exact ⟨h.1.mp, ih h.2⟩

theorem settled_append_hidden {names : List Text} {ts : List ErdTable} (h : Settled names ts)
    (tables : List DatabaseTable) : Settled names (ts ++ tables.map (⟨·, false⟩)) := by
  induction ts generalizing names with
  | nil =>
    induction tables generalizing names with
    | nil => trivial
    | cons t ts ih => exact ⟨by simp, ih trivial⟩
  | cons t ts ih => exact ⟨h.1, ih h.2⟩

theorem settled_modify {names : List Text} {ts : List ErdTable} (h : Settled names ts) (place key : ℕ)
    (fields : List FKField) : Settled names (ts.modify place (·.addKey key fields)) := by
  induction ts generalizing names place with
  | nil => simpa using h
  | cons t ts ih =>
    cases place with
    | zero => exact h
    | succ place => exact ⟨h.1, ih h.2 place⟩

theorem Settled.name_notMem {names : List Text} {ts : List ErdTable} (h : Settled names ts) {t : ErdTable}
    (ht : t ∈ ts) (hshown : t.inDiagram) : t.table.tableName ∉ names := by
  induction ts generalizing names with
  | nil => simp at ht
  | cons u ts ih =>
    rcases List.mem_cons.mp ht with rfl | ht
    · exact h.1 hshown
    · intro hmem
      exact ih h.2 ht (List.mem_cons_of_mem _ hmem)

theorem complete_showTables {names shown : List Text} {ts : List ErdTable} (h : Settled names ts)
    (hnames : ∀ n ∈ names, n ∈ shown) (hts : ∀ t ∈ ts, t.inDiagram → t.table.tableName ∈ shown)
    (hshown : ∀ n ∈ shown, n ∉ names → ∃ t ∈ ts, t.inDiagram ∧ t.table.tableName = n) :
    Complete names (showTables shown ts) := by
  induction ts generalizing names shown with
  | nil => trivial
  | cons t ts ih =>
    have hrest : ∀ n ∈ shown, n ∉ t.table.tableName :: names → ∃ u ∈ ts, u.inDiagram ∧ u.table.tableName = n := by
      intro n hn hnot
      rw [List.mem_cons, not_or] at hnot
      obtain ⟨hne, hnot⟩ := hnot
      obtain ⟨u, hu, hshown, rfl⟩ := hshown n hn hnot
      rcases List.mem_cons.mp hu with rfl | hu
      · exact absurd rfl hne
      · exact ⟨u, hu, hshown, rfl⟩
    by_cases hname : t.table.tableName ∈ shown
    · rw [showTables, if_pos hname]
      refine ⟨⟨h.1, fun hnot => ?_⟩, ih h.2 ?_ (fun u hu => hts u (List.mem_cons_of_mem _ hu)) hrest⟩
      · obtain ⟨u, hu, hdisplayed, heq⟩ := hshown _ hname hnot
        rcases List.mem_cons.mp hu with rfl | hu
        · exact hdisplayed
        · exact absurd (heq ▸ List.mem_cons_self) (h.2.name_notMem hu hdisplayed)
      · intro n hn
        rcases List.mem_cons.mp hn with rfl | hn
        · exact hname
        · exact hnames n hn
    · rw [showTables, if_neg hname]
      refine ⟨⟨fun _ hmem => hname (hnames _ hmem), fun _ => rfl⟩, ih h.2 ?_ ?_ ?_⟩
      · intro n hn
        rcases List.mem_cons.mp hn with rfl | hn
        · exact List.mem_cons_self
        · exact List.mem_cons_of_mem _ (hnames n hn)
      · exact fun u hu hdisplayed => List.mem_cons_of_mem _ (hts u (List.mem_cons_of_mem _ hu) hdisplayed)
      · intro n hn hnot
        rcases List.mem_cons.mp hn with rfl | hn
        · exact absurd List.mem_cons_self hnot
        · exact hrest n hn hnot

theorem mem_displayedNames {tables : List ErdTable} {name : Text} :
    name ∈ displayedNames tables ↔ ∃ t ∈ tables, t.inDiagram ∧ t.table.tableName = name := by
  simp [displayedNames, displayedTables, and_assoc]

theorem Settled.complete {tables : List ErdTable} (h : Settled [] tables) :
    Complete [] (showTables (displayedNames tables) tables) := by
  refine complete_showTables h (by simp) ?_ ?_
  · exact fun t ht hshown => mem_displayedNames.mpr ⟨t, ht, hshown, rfl⟩
  · exact fun n hn _ => mem_displayedNames.mp hn

theorem displayedPlace_cons (t : ErdTable) (ts : List ErdTable) (name : Text) :
    displayedPlace (t :: ts) name =
      if t.inDiagram && t.table.tableName = name then some 0 else (displayedPlace ts name).map (· + 1) := by
  simp [displayedPlace, List.findIdx?_cons]

theorem referencedTable_cons (t : ErdTable) (ts : List ErdTable) (name : Text) :
    referencedTable (t :: ts) name =
      if t.table.tableName = name then some 0 else (referencedTable ts name).map (· + 1) := by
  simp [referencedTable, List.findIdx?_cons]

theorem Settled.displayedPlace_eq_none {names : List Text} {ts : List ErdTable} (h : Settled names ts) {name : Text}
    (hname : name ∈ names) : displayedPlace ts name = none := by
  rw [displayedPlace, List.findIdx?_eq_none_iff]
  intro t ht
  by_contra hcon
  obtain ⟨hshown, heq⟩ : t.inDiagram = true ∧ t.table.tableName = name := by simpa using hcon
  exact h.name_notMem ht hshown (heq ▸ hname)

theorem Settled.referencedTable {names : List Text} {ts : List ErdTable} (h : Settled names ts) {name : Text} {j : ℕ}
    (hj : displayedPlace ts name = some j) : referencedTable ts name = some j := by
  induction ts generalizing names j with
  | nil => simp [displayedPlace] at hj
  | cons t ts ih =>
    rw [displayedPlace_cons] at hj
    rw [referencedTable_cons]
    by_cases hname : t.table.tableName = name
    · rw [if_pos hname]
      cases hshown : t.inDiagram with
      | true => simpa [hshown, hname] using hj
      | false =>
        have hnone : displayedPlace ts name = none := h.2.displayedPlace_eq_none (by simp [hname])
        simp [hshown, hnone] at hj
    · rw [if_neg hname]
      simp only [hname, decide_false, Bool.and_false, Bool.false_eq_true, if_false] at hj
      obtain ⟨k, hk, rfl⟩ := Option.map_eq_some_iff.mp hj
      rw [ih h.2 hk]
      rfl

theorem Complete.displayedPlace {names : List Text} {ts : List ErdTable} (h : Complete names ts) {name : Text}
    (hname : name ∉ names) : displayedPlace ts name = referencedTable ts name := by
  induction ts generalizing names with
  | nil => rfl
  | cons t ts ih =>
    rw [displayedPlace_cons, referencedTable_cons]
    by_cases heq : t.table.tableName = name
    · have hshown : t.inDiagram = true := h.1.mpr (heq ▸ hname)
      simp [hshown, heq]
    · have hnot : name ∉ t.table.tableName :: names := by simp [Ne.symm heq, hname]
      simp [heq, ih h.2 hnot]

theorem Complete.displayedAt {names : List Text} {ts : List ErdTable} (h : Complete names ts) {place : ℕ}
    {t : ErdTable} (ht : ts[place]? = some t) (hname : t.table.tableName ∉ names) :
    displayedAt ts place = true ↔ referencedTable ts t.table.tableName = some place := by
  induction ts generalizing names place with
  | nil => simp at ht
  | cons u ts ih =>
    rw [referencedTable_cons]
    cases place with
    | zero =>
      obtain rfl : u = t := by simpa using ht
      simpa [Diagram.displayedAt] using h.1.mpr hname
    | succ place =>
      have ht' : ts[place]? = some t := by simpa using ht
      by_cases heq : u.table.tableName = t.table.tableName
      · have hmem : t.table.tableName ∈ u.table.tableName :: names := by simp [heq]
        have hhidden : ¬ t.inDiagram := fun hshown =>
          h.2.settled.name_notMem (List.mem_of_getElem? ht') hshown hmem
        simp [Diagram.displayedAt, ht', heq, hhidden]
      · have hnot : t.table.tableName ∉ u.table.tableName :: names := by simp [Ne.symm heq, hname]
        have hih := ih h.2 ht' hnot
        simpa [Diagram.displayedAt, ht', heq] using hih

theorem displayedAt_of_displayedPlace {ts : List ErdTable} {name : Text} {j : ℕ}
    (h : displayedPlace ts name = some j) : displayedAt ts j = true := by
  rw [displayedPlace, List.findIdx?_eq_some_iff_getElem] at h
  obtain ⟨hlt, hj, -⟩ := h
  have hshown : ts[j].inDiagram = true := by
    rw [Bool.and_eq_true] at hj
    exact hj.1
  simp [displayedAt, List.getElem?_eq_getElem hlt, hshown]

theorem map_table_showTables (names : List Text) (ts : List ErdTable) :
    (showTables names ts).map (·.table) = ts.map (·.table) := by
  induction ts generalizing names with
  | nil => rfl
  | cons t ts ih =>
    rw [showTables]
    split_ifs <;> simp [ih]

theorem referencesFrom_congr {ts us : List ErdTable} (h : ts.map (·.table) = us.map (·.table)) (place : ℕ) :
    referencesFrom place ts = referencesFrom place us := by
  induction ts generalizing us place with
  | nil =>
    obtain rfl : us = [] := by simpa using h.symm
    rfl
  | cons t ts ih =>
    obtain ⟨u, us, rfl⟩ : ∃ u us', us = u :: us' := by
      cases us with
      | nil => simp at h
      | cons u us => exact ⟨u, us, rfl⟩
    obtain ⟨htable, hrest⟩ : t.table = u.table ∧ ts.map (·.table) = us.map (·.table) := by simpa using h
    rw [referencesFrom, referencesFrom, htable, ih hrest]

theorem referencedTable_congr {ts us : List ErdTable} (h : ts.map (·.table) = us.map (·.table)) (name : Text) :
    referencedTable ts name = referencedTable us name := by
  have hmap : ∀ vs : List ErdTable,
      Diagram.referencedTable vs name = (vs.map (·.table)).findIdx? fun t => t.tableName = name := by
    intro vs
    rw [List.findIdx?_map]
    rfl
  rw [hmap, hmap, h]

namespace Constraint

def switchedAction : FkOnDelete → ConstraintAction
  | .noAction => .noAction
  | .restrict => .restrict
  | .setNull => .setNull
  | .setDefault | .cascade => .cascade

@[simp] theorem switchOnUpdate_localColumn (c : Constraint) (rule : FkOnUpdate) :
    (c.switchOnUpdate rule).localColumn = c.localColumn := by cases rule <;> rfl

@[simp] theorem switchOnUpdate_refColumn (c : Constraint) (rule : FkOnUpdate) :
    (c.switchOnUpdate rule).refColumn = c.refColumn := by cases rule <;> rfl

@[simp] theorem switchOnUpdate_onDelete (c : Constraint) (rule : FkOnUpdate) :
    (c.switchOnUpdate rule).onDelete = c.onDelete := by cases rule <;> rfl

@[simp] theorem switchOnDelete_localColumn (c : Constraint) (rule : FkOnDelete) :
    (c.switchOnDelete rule).localColumn = c.localColumn := by cases rule <;> rfl

@[simp] theorem switchOnDelete_refColumn (c : Constraint) (rule : FkOnDelete) :
    (c.switchOnDelete rule).refColumn = c.refColumn := by cases rule <;> rfl

@[simp] theorem switchOnDelete_onUpdate (c : Constraint) (rule : FkOnDelete) :
    (c.switchOnDelete rule).onUpdate = switchedAction rule := by cases rule <;> rfl

@[simp] theorem switchOnDelete_onDelete (c : Constraint) (rule : FkOnDelete) :
    (c.switchOnDelete rule).onDelete = c.onDelete := by cases rule <;> rfl

end Constraint

def drawnLine (p : Reference × ℕ) : Line :=
  ⟨p.1.place, p.2, p.1.field.columns, Constraint.switchedAction p.1.field.deleteConstraint, .restrict⟩

theorem line_fieldConstraint (view : ViewType) (r : Reference) (target : ℕ) :
    Connection.line ⟨r.place, target,
      ((fieldConstraint view r).switchOnUpdate r.field.updateConstraint).switchOnDelete r.field.deleteConstraint⟩ =
        drawnLine (r, target) := by
  cases view <;> simp [Connection.line, fieldConstraint, drawnLine, FKField.columns]

theorem drawnLines_perm_iff (ps : List (Reference × ℕ)) :
    (ps.map drawnLine).Perm (ps.map ownLine) ↔ ∀ p ∈ ps, Restricts p.1.field := by
  constructor
  · intro h
    have hdelete : ∀ p ∈ ps, p.1.field.deleteConstraint = .restrict := by
      intro p hp
      obtain ⟨q, -, hq⟩ := List.mem_map.mp (h.mem_iff.mpr (List.mem_map_of_mem (f := ownLine) hp))
      have hrule : ConstraintAction.restrict = ownDeleteAction p.1.field.deleteConstraint := congrArg Line.onDelete hq
      cases hp : p.1.field.deleteConstraint with
      | restrict => rfl
      | _ => simp [hp, ownDeleteAction] at hrule
    intro p hp
    refine ⟨?_, hdelete p hp⟩
    obtain ⟨q, hq, heq⟩ := List.mem_map.mp (h.mem_iff.mpr (List.mem_map_of_mem (f := ownLine) hp))
    have hrule : Constraint.switchedAction q.1.field.deleteConstraint = ownUpdateAction p.1.field.updateConstraint :=
      congrArg Line.onUpdate heq
    rw [hdelete q hq] at hrule
    cases hp : p.1.field.updateConstraint with
    | restrict => rfl
    | _ => simp [hp, ownUpdateAction, Constraint.switchedAction] at hrule
  · intro h
    have heq : ps.map drawnLine = ps.map ownLine := by
      refine List.map_congr_left fun p hp => ?_
      obtain ⟨hupdate, hdelete⟩ := h p hp
      simp [drawnLine, ownLine, hupdate, hdelete, Constraint.switchedAction, ownUpdateAction, ownDeleteAction]
    rw [heq]

def drawnReferences (tables : List ErdTable) (selections : List Text) (rs : List Reference) : List (Reference × ℕ) :=
  rs.filterMap fun r =>
    if r.field.refTable ∈ selections then (referencedTable tables r.field.refTable).map (r, ·) else none

theorem createConnection_decides (tables : List ErdTable) (source : ℕ) (refTable : Text) (constraint : Constraint) :
    Decides (displayedAt tables source ∧ (referencedTable tables refTable).isSome)
      (createConnection tables source refTable constraint)
      fun k => ∃ target, referencedTable tables refTable = some target ∧ k = ⟨source, target, constraint⟩ := by
  rw [createConnection]
  constructor
  · rintro ⟨hshown, href⟩
    obtain ⟨target, htarget⟩ := Option.isSome_iff_exists.mp href
    simp [hshown, htarget]
  · intro hn
    rw [not_and] at hn
    by_cases hshown : displayedAt tables source
    · have hnone : referencedTable tables refTable = none := by simpa using hn hshown
      simp [hshown, hnone, Aborts]
    · simp [hshown, Aborts]

section Drawing

variable (view : ViewType) (tables : List ErdTable) (selections : List Text)

theorem drawField_decides (p : Pass) (r : Reference) :
    Decides (r.field.refTable ∈ selections →
        displayedAt tables r.place ∧ (referencedTable tables r.field.refTable).isSome)
      (drawField view tables selections p r) fun q =>
        q.connections.map Connection.line =
          p.connections.map Connection.line ++ (drawnReferences tables selections [r]).map drawnLine ∧
        q.relations = p.relations ++
          if view = .queryView then (drawnReferences tables selections [r]).map fun p => relation p.1 else [] := by
  by_cases hmem : r.field.refTable ∈ selections
  · rw [drawField, if_pos hmem]
    refine (((createConnection_decides tables r.place r.field.refTable _).bind (D := True) ?_).congr ?_)
    · rintro k ⟨target, htarget, rfl⟩
      refine .of_returns trivial ((returns_pure _ _).mpr ⟨?_, ?_⟩)
      · simp [drawnReferences, hmem, htarget, line_fieldConstraint]
      · cases view <;> simp [drawnReferences, hmem, htarget]
    · simp [hmem]
  · rw [drawField, if_neg hmem]
    refine .of_returns (by simp [hmem]) ((returns_pure _ _).mpr ?_)
    simp [drawnReferences, hmem]

theorem drawFields_decides (rs : List Reference) (p : Pass) :
    Decides (∀ r ∈ rs, r.field.refTable ∈ selections →
        displayedAt tables r.place ∧ (referencedTable tables r.field.refTable).isSome)
      (rs.foldlM (drawField view tables selections) p) fun q =>
        q.connections.map Connection.line =
          p.connections.map Connection.line ++ (drawnReferences tables selections rs).map drawnLine ∧
        q.relations = p.relations ++
          if view = .queryView then (drawnReferences tables selections rs).map fun p => relation p.1 else [] := by
  induction rs generalizing p with
  | nil => exact .of_returns (by simp) ((returns_pure _ _).mpr (by simp [drawnReferences]))
  | cons r rs ih =>
    rw [List.foldlM_cons]
    have hcons : drawnReferences tables selections (r :: rs) =
        drawnReferences tables selections [r] ++ drawnReferences tables selections rs := by
      rw [drawnReferences, drawnReferences, drawnReferences, ← List.filterMap_append]
      rfl
    have hhead := drawField_decides view tables selections p r
    rw [List.forall_mem_cons]
    refine hhead.bind fun q hq => ?_
    obtain ⟨hconnections, hrelations⟩ := hq
    refine ⟨fun hc => ((ih q).returns hc).mono fun a ha => ⟨?_, ?_⟩, (ih q).aborts⟩
    · rw [ha.1, hconnections, hcons, List.map_append, List.append_assoc]
    · rw [ha.2, hrelations, hcons]
      split_ifs <;> simp

end Drawing

theorem mem_select {selections names : List Text} {name : Text} :
    name ∈ select selections names ↔ name ∈ selections ∨ name ∈ names := by
  induction names generalizing selections with
  | nil => simp [select]
  | cons n names ih =>
    change name ∈ select (if n ∈ selections then selections else selections ++ [n]) names ↔ _
    rw [ih, List.mem_cons]
    split_ifs with hmem
    · by_cases heq : name = n
      · simp [heq, hmem]
      · simp [heq]
    · rw [List.mem_append, List.mem_singleton, or_assoc]

theorem mem_referencesFrom {start : ℕ} {ts : List ErdTable} {r : Reference} (h : r ∈ referencesFrom start ts) :
    ∃ i t, r.place = start + i ∧ ts[i]? = some t ∧ t.table.tableName = r.tableName := by
  induction ts generalizing start with
  | nil => simp [referencesFrom] at h
  | cons t ts ih =>
    rw [referencesFrom, List.mem_append] at h
    rcases h with h | h
    · obtain ⟨field, -, rfl⟩ := List.mem_map.mp h
      exact ⟨0, t, rfl, rfl, rfl⟩
    · obtain ⟨i, u, hplace, hu, hname⟩ := ih h
      exact ⟨i + 1, u, by omega, by simpa using hu, hname⟩

theorem mem_references {tables : List ErdTable} {r : Reference} (h : r ∈ references tables) :
    ∃ t, tables[r.place]? = some t ∧ t.table.tableName = r.tableName := by
  obtain ⟨i, t, hplace, ht, hname⟩ := mem_referencesFrom h
  obtain rfl : r.place = i := by omega
  exact ⟨t, ht, hname⟩

theorem isSome_displayedPlace {tables : List ErdTable} {name : Text} :
    (displayedPlace tables name).isSome ↔ name ∈ displayedNames tables := by
  rw [mem_displayedNames, displayedPlace, List.findIdx?_isSome, List.any_eq_true]
  simp

theorem Complete.drawnReferences_eq {tables : List ErdTable} (h : Complete [] tables) {selections : List Text}
    (hnames : ∀ name ∈ displayedNames tables, name ∈ selections)
    (hdrawable : ∀ r ∈ references tables, r.field.refTable ∈ selections →
      Diagram.displayedAt tables r.place ∧ (Diagram.referencedTable tables r.field.refTable).isSome) :
    drawnReferences tables selections (references tables) = displayedReferences tables := by
  refine List.filterMap_congr fun r hr => ?_
  have hplace : Diagram.displayedPlace tables r.field.refTable = Diagram.referencedTable tables r.field.refTable :=
    h.displayedPlace (by simp)
  by_cases hmem : r.field.refTable ∈ selections
  · rw [if_pos hmem, if_pos (hdrawable r hr hmem).1, hplace]
  · have hnone : Diagram.displayedPlace tables r.field.refTable = none := by
      by_contra hcon
      exact hmem (hnames _ (isSome_displayedPlace.mp (Option.isSome_iff_ne_none.mpr hcon)))
    simp [hmem, hnone]

theorem ShowsKeysOnce.after_drawing {c d : Canvas} (h : ShowsKeysOnce c) (hview : d.view = c.view)
    (hconnections : d.connections.map Connection.line =
      c.connections.map Connection.line ++ (displayedReferences d.tables).map drawnLine)
    (hrelations : d.whereRelations = c.whereRelations ++
      if c.view = .queryView then (displayedReferences d.tables).map fun p => relation p.1 else []) :
    ShowsKeysOnce d ↔ displayedReferences c.tables = [] ∧ ∀ p ∈ displayedReferences d.tables, Restricts p.1.field := by
  have hlength := h.connections.length_eq
  rw [List.length_map, List.length_map] at hlength
  constructor
  · intro hd
    have hperm := hd.connections
    rw [hconnections] at hperm
    have hnone : c.connections = [] := by
      have hdrawn := hperm.length_eq
      simp only [List.length_append, List.length_map] at hdrawn
      exact List.length_eq_zero_iff.mp (by omega)
    rw [hnone, List.map_nil, List.nil_append] at hperm
    rw [hnone, List.length_nil] at hlength
    exact ⟨List.length_eq_zero_iff.mp hlength.symm, (drawnLines_perm_iff _).mp hperm⟩
  · rintro ⟨hundrawn, hrestricts⟩
    rw [hundrawn, List.length_nil] at hlength
    have hnone : c.connections = [] := List.length_eq_zero_iff.mp hlength
    refine ⟨?_, fun hquery => ?_⟩
    · rw [hconnections, hnone, List.map_nil, List.nil_append]
      exact (drawnLines_perm_iff _).mpr hrestricts
    · have hold : c.whereRelations = [] := by
        have hperm := h.relations (hview ▸ hquery)
        rwa [hundrawn, List.map_nil, List.perm_nil] at hperm
      rw [hrelations, hold, if_pos (hview ▸ hquery), List.nil_append]

theorem displayTables_iff {c : Canvas} (hsettled : Settled [] c.tables) (hshows : ShowsKeysOnce c)
    (selections : List Text) (query : Text) :
    Returns (Prod.fst <$> c.displayTables selections query) ShowsKeysOnce ↔ FirstDrawing c.tables selections := by
  set tables := showTables (displayedNames c.tables) c.tables with htables
  have hcomplete : Complete [] tables := hsettled.complete
  have hsame : tables.map (·.table) = c.tables.map (·.table) := map_table_showTables _ _
  have hrefs : references tables = references c.tables := referencesFrom_congr hsame 0
  have hfound : ∀ name, referencedTable tables name = referencedTable c.tables name := referencedTable_congr hsame
  have hselected : ∀ name, name ∈ select selections (displayedNames tables) ↔
      name ∈ selections ∨ (referencedTable c.tables name).isSome := by
    intro name
    rw [mem_select, ← isSome_displayedPlace, hcomplete.displayedPlace (by simp), hfound]
  have hplaces : ∀ r ∈ references tables,
      (displayedAt tables r.place ↔ referencedTable c.tables r.tableName = some r.place) := by
    intro r hr
    obtain ⟨t, ht, hname⟩ := mem_references hr
    rw [← hname, ← hfound]
    exact hcomplete.displayedAt ht (by simp)
  have hdrawn := drawFields_decides c.view tables (select selections (displayedNames tables)) (references tables)
    ⟨query ++ fromTables c.view (displayedNames tables), c.whereRelations, c.connections, false, false⟩
  by_cases hdrawable : ∀ r ∈ references tables, r.field.refTable ∈ select selections (displayedNames tables) →
      displayedAt tables r.place ∧ (referencedTable tables r.field.refTable).isSome
  · obtain ⟨p, hp, hconnections, hrelations⟩ := hdrawn.returns hdrawable
    have hcall : Prod.fst <$> c.displayTables selections query = .ok ⟨c.view, tables, p.connections, p.relations⟩ := by
      simp only [Canvas.displayTables, ← htables, hp]
      rfl
    have heq := hcomplete.drawnReferences_eq (fun name hname => mem_select.mpr (.inr hname)) hdrawable
    rw [heq] at hconnections hrelations
    have hafter := hshows.after_drawing (d := ⟨c.view, tables, p.connections, p.relations⟩) rfl hconnections hrelations
    rw [hcall, returns_ok, hafter]
    constructor
    · rintro ⟨hundrawn, hrestricts⟩
      refine ⟨hundrawn, fun r hr hmem => ?_⟩
      have hr' : r ∈ references tables := hrefs ▸ hr
      obtain ⟨hshown, href⟩ := hdrawable r hr' ((hselected _).mpr hmem)
      refine ⟨hfound _ ▸ href, (hplaces r hr').mp hshown, ?_⟩
      obtain ⟨j, hj⟩ := Option.isSome_iff_exists.mp href
      have hplace : displayedPlace tables r.field.refTable = some j := by rw [hcomplete.displayedPlace (by simp), hj]
      refine hrestricts (r, j) (List.mem_filterMap.mpr ⟨r, hr', ?_⟩)
      rw [if_pos hshown, hplace]
      rfl
    · rintro ⟨hundrawn, hall⟩
      refine ⟨hundrawn, fun p hp => ?_⟩
      obtain ⟨r, hr, heq⟩ := List.mem_filterMap.mp hp
      split_ifs at heq with hshown
      obtain ⟨j, hj, rfl⟩ := Option.map_eq_some_iff.mp heq
      rw [hcomplete.displayedPlace (by simp), hfound] at hj
      exact (hall r (hrefs ▸ hr) (.inr (by simp [hj]))).2.2
  · obtain ⟨fault, hfault⟩ := hdrawn.aborts hdrawable
    have hcall : Prod.fst <$> c.displayTables selections query = .error fault := by
      simp only [Canvas.displayTables, ← htables, hfault]
      rfl
    rw [hcall]
    refine iff_of_false (returns_error _ _) fun hfirst => hdrawable fun r hr hmem => ?_
    obtain ⟨href, hplace, -⟩ := hfirst.drawable r (hrefs ▸ hr) ((hselected _).mp hmem)
    exact ⟨(hplaces r hr).mpr hplace, (hfound _).symm ▸ href⟩

section NewKeys

variable (ts : List ErdTable) (place key : ℕ) (fields : List FKField)

theorem displayedPlace_addKey (name : Text) :
    displayedPlace (ts.modify place (·.addKey key fields)) name = displayedPlace ts name := by
  induction ts generalizing place with
  | nil => simp
  | cons t ts ih =>
    cases place with
    | zero =>
      rw [List.modify_zero_cons, displayedPlace_cons, displayedPlace_cons]
      rfl
    | succ place => rw [List.modify_succ_cons, displayedPlace_cons, displayedPlace_cons, ih]

theorem displayedAt_addKey (i : ℕ) :
    displayedAt (ts.modify place (·.addKey key fields)) i = displayedAt ts i := by
  rw [displayedAt, displayedAt, List.getElem?_modify]
  cases ts[i]? with
  | none => rfl
  | some t => by_cases hi : place = i <;> simp [hi, ErdTable.addKey]

theorem displayedTables_addKey :
    displayedTables (ts.modify place (·.addKey key fields)) = [] ↔ displayedTables ts = [] := by
  induction ts generalizing place with
  | nil => simp
  | cons t ts ih =>
    cases place with
    | zero => cases hshown : t.inDiagram <;> simp [displayedTables, ErdTable.addKey, hshown]
    | succ place =>
      have hih := ih place
      cases hshown : t.inDiagram with
      | true => simp [displayedTables, hshown]
      | false => simpa [displayedTables, hshown] using hih

def tableNameAt (ts : List ErdTable) (place : ℕ) : Text := (ts[place]?).elim [] (·.table.tableName)

theorem referencesFrom_addKey (start : ℕ) :
    (referencesFrom start (ts.modify place (·.addKey key fields))).Perm
      (referencesFrom start ts ++
        if place < ts.length then fields.map (⟨start + place, tableNameAt ts place, ·⟩) else []) := by
  induction ts generalizing start place with
  | nil => simp [referencesFrom]
  | cons t ts ih =>
    cases place with
    | zero =>
      have hvalues := Foundation.OrderedMap.values_upsert_append_perm key fields t.table.foreignKeys
      have hmap := hvalues.map (Reference.mk start t.table.tableName)
      rw [List.map_append] at hmap
      simp only [List.modify_zero_cons, referencesFrom, ErdTable.addKey, tableNameAt, List.length_cons,
        Nat.zero_lt_succ, if_true, List.getElem?_cons_zero, Option.elim_some, Nat.add_zero]
      refine (hmap.append_right _).trans ?_
      rw [List.append_assoc, List.append_assoc]
      exact List.perm_append_comm.append_left _
    | succ place =>
      have hih := ih place (start + 1)
      have hplace : start + 1 + place = start + (place + 1) := by omega
      rw [hplace] at hih
      simp only [List.modify_succ_cons, referencesFrom, List.length_cons, Nat.succ_lt_succ_iff, List.append_assoc]
      exact hih.append_left _

def newReferences : List (Reference × ℕ) :=
  if displayedAt ts place then
    fields.filterMap fun field => (displayedPlace ts field.refTable).map (⟨place, tableNameAt ts place, field⟩, ·)
  else []

theorem displayedReferences_addKey :
    (displayedReferences (ts.modify place (·.addKey key fields))).Perm
      (displayedReferences ts ++ newReferences ts place fields) := by
  have hperm := (referencesFrom_addKey ts place key fields 0).filterMap fun r =>
    if displayedAt ts r.place then (displayedPlace ts r.field.refTable).map (r, ·) else none
  simp only [displayedReferences, displayedAt_addKey, displayedPlace_addKey]
  refine hperm.trans (.of_eq ?_)
  rw [List.filterMap_append, Nat.zero_add]
  congr 1
  rw [newReferences]
  by_cases hshown : displayedAt ts place
  · have hlt : place < ts.length := by
      by_contra hge
      simp [displayedAt, List.getElem?_eq_none (not_lt.mp hge)] at hshown
    rw [if_pos hlt, if_pos hshown, List.filterMap_map]
    simp [hshown]
  · split_ifs
    · rw [List.filterMap_map]
      simp [hshown]
    · rfl

end NewKeys

theorem ShowsKeysOnce.undrawn_iff {c : Canvas} (h : ShowsKeysOnce c) (place key : ℕ) (fields : List FKField) :
    ShowsKeysOnce (c.recordForeignKey place key fields) ↔ newReferences c.tables place fields = [] := by
  have hperm := displayedReferences_addKey c.tables place key fields
  constructor
  · intro hd
    have hlength := (hd.connections.trans (hperm.map ownLine)).length_eq
    have hold := h.connections.length_eq
    change (c.connections.map Connection.line).length = _ at hlength
    rw [hold, List.length_map, List.length_map, List.length_append] at hlength
    exact List.length_eq_zero_iff.mp (by omega)
  · intro hnone
    rw [hnone, List.append_nil] at hperm
    refine ⟨h.connections.trans (hperm.map ownLine).symm, fun hquery => ?_⟩
    exact (h.relations hquery).trans (hperm.map fun p => relation p.1).symm

theorem newReferences_eq_nil {ts : List ErdTable} {place : ℕ} {fields : List FKField} :
    newReferences ts place fields = [] ↔
      (displayedAt ts place → ∀ field ∈ fields, displayedPlace ts field.refTable = none) := by
  rw [newReferences]
  split_ifs with hshown
  · simp [hshown]
  · simp [hshown]

def keyLine (place : ℕ) (first field : FKField) : Line :=
  ⟨place, place, field.columns, Constraint.switchedAction first.deleteConstraint, .restrict⟩

theorem createFKConstraint_drawn {c : Canvas} (hsettled : Settled [] c.tables) {fkTable : Text} {first : FKField}
    {rest : List FKField} {j : ℕ} (hview : c.view = .databaseView) (hj : displayedPlace c.tables first.refTable = some j) :
    c.createFKConstraint fkTable (first :: rest) = .ok { c with
      connections := c.connections ++ (first :: rest).map fun field => ⟨j, j, keyConstraint fkTable first field⟩ } := by
  have hconnection : ∀ constraint, createConnection c.tables j first.refTable constraint = .ok ⟨j, j, constraint⟩ := by
    intro constraint
    rw [createConnection, if_pos (displayedAt_of_displayedPlace hj), hsettled.referencedTable hj]
  simp only [Canvas.createFKConstraint, hj, hview, if_true, hconnection]
  rw [show (fun field => (Except.ok ⟨j, j, keyConstraint fkTable first field⟩ : Except Fault Connection)) =
    fun field => pure ⟨j, j, keyConstraint fkTable first field⟩ from rfl, List.mapM_pure]
  rfl

theorem keyLines_perm_iff {ts : List ErdTable} {place j : ℕ} {first : FKField} {rest : List FKField}
    (hj : displayedPlace ts first.refTable = some j) :
    ((first :: rest).map (keyLine j first)).Perm ((newReferences ts place (first :: rest)).map ownLine) ↔
      ∀ field ∈ first :: rest, displayedPlace ts field.refTable = some place ∧ Restricts field := by
  constructor
  · intro h
    have hlength := h.length_eq
    rw [List.length_map, List.length_map, newReferences] at hlength
    split_ifs at hlength with hshown
    · have hall := List.filterMap_length_eq_length.mp hlength.symm
      have hdrawn : ∀ field ∈ first :: rest, displayedPlace ts field.refTable = some place ∧
          field.deleteConstraint = .restrict ∧
            ownUpdateAction field.updateConstraint = Constraint.switchedAction first.deleteConstraint := by
        intro field hfield
        obtain ⟨k, hk⟩ := Option.isSome_iff_exists.mp (by simpa using hall field hfield)
        have hmem : ownLine (⟨place, tableNameAt ts place, field⟩, k) ∈ (newReferences ts place (first :: rest)).map ownLine := by
          refine List.mem_map_of_mem ?_
          rw [newReferences, if_pos hshown]
          exact List.mem_filterMap.mpr ⟨field, hfield, by rw [hk]; rfl⟩
        obtain ⟨g, -, hg⟩ := List.mem_map.mp (h.mem_iff.mpr hmem)
        have hsource : j = place := congrArg Line.source hg
        have htarget : j = k := congrArg Line.target hg
        have hdelete : ConstraintAction.restrict = ownDeleteAction field.deleteConstraint := congrArg Line.onDelete hg
        have hupdate := congrArg Line.onUpdate hg
        refine ⟨by rw [hk, ← htarget, hsource], ?_, hupdate.symm⟩
        cases hrule : field.deleteConstraint with
        | restrict => rfl
        | _ => simp [hrule, ownDeleteAction] at hdelete
      intro field hfield
      obtain ⟨hplace, hdelete, hupdate⟩ := hdrawn field hfield
      refine ⟨hplace, ?_, hdelete⟩
      rw [(hdrawn first (by simp)).2.1] at hupdate
      cases hrule : field.updateConstraint with
      | restrict => rfl
      | _ => simp [hrule, ownUpdateAction, Constraint.switchedAction] at hupdate
  · intro h
    obtain ⟨hfirst, -, hdelete⟩ := h first (by simp)
    obtain rfl : j = place := Option.some.inj (hj.symm.trans hfirst)
    have hnew : newReferences ts j (first :: rest) =
        (first :: rest).map fun field => (⟨j, tableNameAt ts j, field⟩, j) := by
      rw [newReferences, if_pos (displayedAt_of_displayedPlace hj), ← List.filterMap_eq_map]
      refine List.filterMap_congr fun field hfield => ?_
      rw [(h field hfield).1]
      rfl
    rw [hnew, List.map_map]
    refine .of_eq (List.map_congr_left fun field hfield => ?_)
    obtain ⟨-, hupdate, hrule⟩ := h field hfield
    simp [keyLine, ownLine, hdelete, hupdate, hrule, Constraint.switchedAction, ownUpdateAction, ownDeleteAction]

theorem createForeignKey_iff {c : Canvas} (hsettled : Settled [] c.tables) (hshows : ShowsKeysOnce c)
    (place key : ℕ) (fields : List FKField) :
    Returns (c.call (.createForeignKey place key fields)) ShowsKeysOnce ↔ KeyDrawing c place fields := by
  set d := c.recordForeignKey place key fields with hd
  have hplace : ∀ name, displayedPlace d.tables name = displayedPlace c.tables name :=
    displayedPlace_addKey c.tables place key fields
  cases fields with
  | nil =>
    have hdisplayed : displayedTables d.tables = [] ↔ displayedTables c.tables = [] :=
      displayedTables_addKey c.tables place key []
    have hnone : newReferences c.tables place [] = [] := newReferences_eq_nil.mpr (by simp)
    change Returns (if displayedTables d.tables = [] then .ok d else .error Fault.outOfRange) _ ↔ displayedTables c.tables = []
    by_cases hempty : displayedTables c.tables = []
    · rw [if_pos (hdisplayed.mpr hempty), returns_ok]
      exact iff_of_true ((hshows.undrawn_iff place key []).mpr hnone) hempty
    · rw [if_neg (mt hdisplayed.mp hempty)]
      exact iff_of_false (returns_error _ _) hempty
  | cons first rest =>
    change Returns (d.createFKConstraint _ (first :: rest)) _ ↔ if _ then _ else _
    by_cases hdrawn : c.view = .databaseView ∧ (displayedPlace c.tables first.refTable).isSome
    · obtain ⟨hview, hsome⟩ := hdrawn
      obtain ⟨j, hj⟩ := Option.isSome_iff_exists.mp hsome
      have hsettled' : Settled [] d.tables := settled_modify hsettled place key (first :: rest)
      have hj' : displayedPlace d.tables first.refTable = some j := (hplace _).trans hj
      have hview' : d.view = .databaseView := hview
      rw [if_pos ⟨hview, hsome⟩, ← keyLines_perm_iff hj, createFKConstraint_drawn hsettled' hview' hj', returns_ok]
      have hperm := displayedReferences_addKey c.tables place key (first :: rest)
      have hlines : ∀ fkTable, ((first :: rest).map fun field =>
          (⟨j, j, keyConstraint fkTable first field⟩ : Connection)).map Connection.line = (first :: rest).map (keyLine j first) := by
        intro fkTable
        rw [List.map_map]
        refine List.map_congr_left fun field _ => ?_
        simp [Connection.line, keyConstraint, keyLine, FKField.columns]
      constructor
      · intro h
        have hlaw := h.connections.trans (hperm.map ownLine)
        rw [List.map_append, List.map_append, hlines] at hlaw
        exact (List.perm_append_left_iff _).mp ((hshows.connections.symm.append_right _).trans hlaw)
      · intro h
        refine ⟨?_, fun hquery => ?_⟩
        · refine List.Perm.trans ?_ (hperm.map ownLine).symm
          rw [List.map_append, List.map_append, hlines]
          exact hshows.connections.append h
        · change c.view = .queryView at hquery
          rw [hview] at hquery
          exact absurd hquery (by decide)
    · have hcall : ∀ fkTable, d.createFKConstraint fkTable (first :: rest) = .ok d := by
        intro fkTable
        rw [Canvas.createFKConstraint, hplace]
        cases hj : displayedPlace c.tables first.refTable with
        | none => rfl
        | some j =>
          have hview : ¬ d.view = .databaseView := fun hview => hdrawn ⟨hview, by simp [hj]⟩
          simp only [hview, if_false]
      rw [if_neg hdrawn, hcall, returns_ok, hshows.undrawn_iff, newReferences_eq_nil]

theorem referencesFrom_append (start : ℕ) (ts us : List ErdTable) :
    referencesFrom start (ts ++ us) = referencesFrom start ts ++ referencesFrom (start + ts.length) us := by
  induction ts generalizing start with
  | nil => rfl
  | cons t ts ih =>
    have hstart : start + 1 + ts.length = start + (t :: ts).length := by
      rw [List.length_cons]
      omega
    rw [List.cons_append, referencesFrom, referencesFrom, ih, List.append_assoc, hstart]

theorem displayedPlace_append_hidden (ts : List ErdTable) (tables : List DatabaseTable) (name : Text) :
    displayedPlace (ts ++ tables.map (⟨·, false⟩)) name = displayedPlace ts name := by
  have hnone : displayedPlace (tables.map (⟨·, false⟩)) name = none := by
    rw [displayedPlace, List.findIdx?_eq_none_iff]
    simp
  rw [displayedPlace] at hnone ⊢
  rw [List.findIdx?_append, hnone]
  simp [displayedPlace]

theorem displayedAt_hidden {tables : List DatabaseTable} {i : ℕ} : displayedAt (tables.map (⟨·, false⟩)) i = false := by
  rw [displayedAt, List.getElem?_map]
  cases tables[i]? <;> rfl

theorem displayedReferences_append_hidden (ts : List ErdTable) (tables : List DatabaseTable) :
    displayedReferences (ts ++ tables.map (⟨·, false⟩)) = displayedReferences ts := by
  simp only [displayedReferences, references, referencesFrom_append, List.filterMap_append, displayedPlace_append_hidden]
  have hold : ∀ r ∈ referencesFrom 0 ts, displayedAt (ts ++ tables.map (⟨·, false⟩)) r.place = displayedAt ts r.place := by
    intro r hr
    obtain ⟨t, ht, -⟩ := mem_references hr
    have hlt : r.place < ts.length := (List.getElem?_eq_some_iff.mp ht).1
    rw [displayedAt, displayedAt, List.getElem?_append_left hlt]
  have hnew : ∀ r ∈ referencesFrom (0 + ts.length) (tables.map (⟨·, false⟩)),
      displayedAt (ts ++ tables.map (⟨·, false⟩)) r.place = false := by
    intro r hr
    obtain ⟨i, t, hplace, -, -⟩ := mem_referencesFrom hr
    rw [hplace, Nat.zero_add, displayedAt, List.getElem?_append_right (by omega), Nat.add_sub_cancel_left]
    exact displayedAt_hidden
  rw [List.filterMap_congr (g := fun r => if displayedAt ts r.place then
      (displayedPlace ts r.field.refTable).map (r, ·) else none) fun r hr => by rw [hold r hr]]
  refine (congrArg _ (List.filterMap_eq_nil_iff.mpr fun r hr => ?_)).trans (List.append_nil _)
  rw [hnew r hr]
  rfl

theorem ShowsKeysOnce.addTables {c : Canvas} (h : ShowsKeysOnce c) (tables : List DatabaseTable) :
    ShowsKeysOnce (c.addTables tables) := by
  have hsame := displayedReferences_append_hidden c.tables tables
  refine ⟨?_, fun hquery => ?_⟩
  · change (c.connections.map Connection.line).Perm ((displayedReferences (c.tables ++ _)).map ownLine)
    rw [hsame]
    exact h.connections
  · change c.whereRelations.Perm ((displayedReferences (c.tables ++ _)).map _)
    rw [hsame]
    exact h.relations hquery

theorem call_iff {c : Canvas} (hsettled : Settled [] c.tables) (hshows : ShowsKeysOnce c) (call : Call) :
    Returns (c.call call) ShowsKeysOnce ↔ DrawsOnce c call := by
  cases call with
  | addTables tables => exact iff_of_true ((returns_ok _ _).mpr (hshows.addTables tables)) trivial
  | displayTables selections query => exact displayTables_iff hsettled hshows selections query
  | createForeignKey place key fields => exact createForeignKey_iff hsettled hshows place key fields

theorem displayTables_tables {c : Canvas} {selections : List Text} {query : Text} {out : Canvas × List Text × Text}
    (h : c.displayTables selections query = .ok out) : out.1.tables = showTables (displayedNames c.tables) c.tables := by
  rw [Canvas.displayTables] at h
  obtain ⟨p, -, hp⟩ := (returns_bind _ _ (· = out)).mp ⟨out, h, rfl⟩
  obtain rfl := (returns_pure _ _).mp hp
  rfl

theorem createFKConstraint_tables {c d : Canvas} {fkTable : Text} {fields : List FKField}
    (h : c.createFKConstraint fkTable fields = .ok d) : d.tables = c.tables := by
  cases fields with
  | nil =>
    rw [Canvas.createFKConstraint] at h
    split_ifs at h
    obtain rfl := Except.ok.inj h
    rfl
  | cons first rest =>
    rw [Canvas.createFKConstraint] at h
    split at h
    · obtain rfl := Except.ok.inj h
      rfl
    · split_ifs at h
      · obtain ⟨drawn, -, hdrawn⟩ := (returns_bind _ _ (· = d)).mp ⟨d, h, rfl⟩
        obtain rfl := (returns_pure _ _).mp hdrawn
        rfl
      · obtain rfl := Except.ok.inj h
        rfl

theorem settled_call {c d : Canvas} (hsettled : Settled [] c.tables) {call : Call} (h : c.call call = .ok d) :
    Settled [] d.tables := by
  cases call with
  | addTables tables =>
    obtain rfl := Except.ok.inj h
    exact settled_append_hidden hsettled tables
  | displayTables selections query =>
    obtain ⟨out, hout, rfl⟩ := (returns_map _ _ (· = d)).mp ⟨d, h, rfl⟩
    rw [displayTables_tables hout]
    exact hsettled.complete.settled
  | createForeignKey place key fields =>
    rw [createFKConstraint_tables h]
    exact settled_modify hsettled place key fields

def customers : DatabaseTable := ⟨[], ['c'], .empty, 0, [], []⟩

def cascading : FKField :=
  ⟨0, ['f', 'k'], [], ['o'], ['c', 'i', 'd'], [], ['c'], ['i', 'd'], [['c', 'i', 'd']], [['i', 'd']], .restrict, .cascade, -1⟩

def orders : DatabaseTable := ⟨[], ['o'], .ofEntries [(0, [cascading])], 0, [], []⟩

end DbHandler.Diagram
