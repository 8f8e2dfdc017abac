import DbHandler.FieldsWindow.FieldWindow
import DbHandler.Foundation.Runs
import DbHandler.Foundation.Search
import DbHandler.Foundation.Vectors

namespace DbHandler.Dialogs

open Foundation FieldsWindow

/-- What `OnFieldSelection` and `OnFieldsDeselection` see: the label of the item, and at a selection
whether `m_ascending` is set. -/
inductive ColumnEvent
  | selected (item : Text) (ascending : Bool)
  | deselected (item : Text)
  deriving DecidableEq, Repr

/-- `fields` is `m_fields` or `m_foreignKey`; the lists of selected positions are never read. -/
structure ColumnList where
  fields : List Text := []
  window : FieldWindow := {}
  deriving DecidableEq, Repr

namespace ColumnList

section Handlers

/-! Both dialogs add one text for a selected column and search another one when it is deselected. -/

variable (entry : Text → Bool → Text) (sought : Text → Text) (extent : Text → ℕ × ℕ)

def onFieldSelection (item : Text) (ascending : Bool) (d : ColumnList) : ColumnList :=
  ⟨d.fields ++ [entry item ascending], d.window.addField extent (entry item ascending)⟩

def onFieldsDeselection (item : Text) (d : ColumnList) : ColumnList :=
  let fields := d.fields.filter fun e1 => !(Search.find (sought item) e1).isSome
  ⟨fields, d.window.removeField extent fields⟩

def on (d : ColumnList) : ColumnEvent → ColumnList
  | .selected item ascending => d.onFieldSelection entry extent item ascending
  | .deselected item => d.onFieldsDeselection sought extent item

end Handlers

end ColumnList

namespace CreateIndex

def entry (item : Text) (ascending : Bool) : Text := item ++ if ascending then " ASC".toList else " DESC".toList

def sought (item : Text) : Text := item ++ " ".toList

end CreateIndex

namespace ForeignKeyDialog

def entry (item : Text) (_ : Bool) : Text := item

def sought (item : Text) : Text := item

end ForeignKeyDialog

def choose (chosen : List (Text × Bool)) : ColumnEvent → List (Text × Bool)
  | .selected item ascending => chosen.filter (·.1 ≠ item) ++ [(item, ascending)]
  | .deselected item => chosen.filter (·.1 ≠ item)

def chosenColumns (es : List ColumnEvent) : List (Text × Bool) := es.foldl choose []

namespace ColumnList

variable {entry : Text → Bool → Text} {sought : Text → Text} {extent : Text → ℕ × ℕ} {d : ColumnList}

/-- The window shows the columns of the dialog, and shows them from left to right. -/
structure Shown (d : ColumnList) : Prop where
  selectedFields : d.window.selectedFields = d.fields
  shapes : d.window.manager.map (·.fieldName) = d.fields
  inOrder : d.window.InOrder

/-- The list holds the chosen columns, each once and in their order, and the window shows it. -/
def Follows (entry : Text → Bool → Text) (d : ColumnList) (chosen : List (Text × Bool)) : Prop :=
  d.fields = chosen.map (fun c => entry c.1 c.2) ∧ d.Shown

/-- A column is selected once, and what is searched at a deselection stands in no other column's text. -/
def Meets (entry : Text → Bool → Text) (sought : Text → Text) (chosen : List (Text × Bool)) : ColumnEvent → Prop
  | .selected item _ => ∀ c ∈ chosen, c.1 ≠ item
  | .deselected item => ∀ c ∈ chosen, sought item <:+: entry c.1 c.2 → c.1 = item

section Window

theorem shown_empty : Shown {} := ⟨rfl, rfl, ⟨.nil, by simp⟩⟩

theorem Shown.on (h : Shown d) (e : ColumnEvent) : Shown (d.on entry sought extent e) := by
  cases e with
  | selected item ascending =>
    obtain ⟨hinOrder, hnames, -, -⟩ := @FieldWindow.InOrder.shows_addField extent _ h.inOrder (entry item ascending)
    refine ⟨?_, hnames.trans ?_, hinOrder⟩
    · exact congrArg (· ++ [entry item ascending]) h.selectedFields
    · exact congrArg (· ++ [entry item ascending]) h.shapes
  | deselected item =>
    have hshows := @FieldWindow.removeField_shows extent
      (d.fields.filter fun e1 => !(Search.find (sought item) e1).isSome) d.window
    exact ⟨FieldWindow.removeField_selectedFields _ _, hshows.names, hshows.inOrder⟩

end Window

section Lists

theorem select_iff (item : Text) (ascending : Bool) (chosen : List (Text × Bool)) :
    (chosen.map fun c => entry c.1 c.2) ++ [entry item ascending] =
      ((chosen.filter (·.1 ≠ item)) ++ [(item, ascending)]).map (fun c => entry c.1 c.2) ↔ ∀ c ∈ chosen, c.1 ≠ item := by
  rw [List.map_append, List.map_singleton, List.append_left_inj]
  constructor
  · intro h
    have hlength := congrArg List.length h
    rw [List.length_map, List.length_map, eq_comm, List.length_filter_eq_length_iff] at hlength
    intro c hc
    exact of_decide_eq_true (hlength c hc)
  · intro h
    rw [List.filter_eq_self.mpr fun c hc => decide_eq_true (h c hc)]

theorem deselect_iff (hsought : ∀ item ascending, sought item <:+: entry item ascending) (item : Text)
    (chosen : List (Text × Bool)) :
    ((chosen.map fun c => entry c.1 c.2).filter fun e1 => !(Search.find (sought item) e1).isSome) =
      (chosen.filter (·.1 ≠ item)).map (fun c => entry c.1 c.2) ↔
        ∀ c ∈ chosen, sought item <:+: entry c.1 c.2 → c.1 = item := by
  have hothers : chosen.filter (·.1 ≠ item) = chosen.filter fun c => !decide (c.1 = item) :=
    List.filter_congr fun c _ => by simp
  rw [hothers, Vectors.filter_map_eq_iff]
  refine forall₂_congr fun c _ => ?_
  rw [Bool.eq_iff_iff, Search.find_isSome_iff, decide_eq_true_iff]
  constructor
  · exact Iff.mp
  · intro h
    refine ⟨h, ?_⟩
    rintro rfl
    exact hsought c.1 c.2

theorem follows_on_iff (hsought : ∀ item ascending, sought item <:+: entry item ascending)
    {chosen : List (Text × Bool)} (h : Follows entry d chosen) (e : ColumnEvent) :
    Follows entry (d.on entry sought extent e) (choose chosen e) ↔ Meets entry sought chosen e := by
  obtain ⟨hfields, hshown⟩ := h
  rw [Follows, and_iff_left (hshown.on e)]
  cases e with
  | selected item ascending =>
    rw [Meets, ← select_iff, ← hfields]
    rfl
  | deselected item =>
    rw [Meets, ← deselect_iff hsought, ← hfields]
    rfl

end Lists

section Runs

variable (entry sought extent)

def onBoth (s : ColumnList × List (Text × Bool)) (e : ColumnEvent) : ColumnList × List (Text × Bool) :=
  (s.1.on entry sought extent e, choose s.2 e)

def after (es : List ColumnEvent) : ColumnList := es.foldl (·.on entry sought extent) {}

theorem foldl_onBoth (es : List ColumnEvent) :
    es.foldl (onBoth entry sought extent) ({}, []) = (after entry sought extent es, chosenColumns es) := by
  induction es using List.reverseRecOn with
  | nil => rfl
  | append_singleton es e ih =>
    rw [List.foldl_concat, ih]
    simp only [after, chosenColumns, List.foldl_concat, onBoth]

variable {entry sought extent}

theorem follows_iff (hsought : ∀ item ascending, sought item <:+: entry item ascending) (es : List ColumnEvent) :
    (∀ pre, pre <+: es → Follows entry (after entry sought extent pre) (chosenColumns pre)) ↔
      ∀ pre e, pre ++ [e] <+: es → Meets entry sought (chosenColumns pre) e := by
  have hdecided (s : ColumnList × List (Text × Bool)) (e : ColumnEvent) (h : Follows entry s.1 s.2) :
      Follows entry (onBoth entry sought extent s e).1 (onBoth entry sought extent s e).2 ↔ Meets entry sought s.2 e :=
    follows_on_iff hsought h e
  have hopened : Follows entry (({}, []) : ColumnList × List (Text × Bool)).1 [] := ⟨rfl, shown_empty⟩
  have hrun := Runs.kept_run_total_iff hdecided hopened es
  simpa only [foldl_onBoth] using hrun

end Runs

end ColumnList

theorem CreateIndex.sought_infix_entry (item : Text) (ascending : Bool) : sought item <:+: entry item ascending := by
  cases ascending
  · exact ⟨[], "DESC".toList, by simp [sought, entry]⟩
  · exact ⟨[], "ASC".toList, by simp [sought, entry]⟩

theorem columnLists_follow_iff (extent : Text → ℕ × ℕ) (es : List ColumnEvent) :
    ((∀ pre, pre <+: es →
        (ColumnList.after CreateIndex.entry CreateIndex.sought extent pre).Follows CreateIndex.entry (chosenColumns pre)) ↔
      ∀ pre e, pre ++ [e] <+: es → ColumnList.Meets CreateIndex.entry CreateIndex.sought (chosenColumns pre) e) ∧
    ((∀ pre, pre <+: es →
        (ColumnList.after ForeignKeyDialog.entry ForeignKeyDialog.sought extent pre).Follows ForeignKeyDialog.entry
          (chosenColumns pre)) ↔
      ∀ pre e, pre ++ [e] <+: es → ColumnList.Meets ForeignKeyDialog.entry ForeignKeyDialog.sought (chosenColumns pre) e) :=
  ⟨ColumnList.follows_iff CreateIndex.sought_infix_entry es,
    ColumnList.follows_iff (fun _ _ => List.infix_rfl) es⟩

/-- Deselecting a column takes another one along whose name ends, or only occurs, in the text that is searched. -/
theorem deselected_column_takes_others :
    let extent : Text → ℕ × ℕ := fun _ => (20, 10)
    let es : List ColumnEvent := [.selected "id".toList true, .selected "client_id".toList false, .deselected "id".toList]
    ¬ (ColumnList.after CreateIndex.entry CreateIndex.sought extent es).Follows CreateIndex.entry (chosenColumns es) ∧
      ¬ (ColumnList.after ForeignKeyDialog.entry ForeignKeyDialog.sought extent es).Follows ForeignKeyDialog.entry
        (chosenColumns es) := by
  intro extent es
  constructor
  · rintro ⟨hfields, -⟩
    exact absurd hfields (by decide)
  · rintro ⟨hfields, -⟩
    exact absurd hfields (by decide)

end DbHandler.Dialogs
