import Mathlib.Algebra.Ring.Parity
import Mathlib.Logic.Function.Iterate
import DbHandler.Diagram.TableGrid

namespace DbHandler.TableParts

open Foundation Diagram

/-- The parts 1 and 4 of `ShowHideTablePart`. -/
inductive Part
  | dataTypes
  | comments
  deriving DecidableEq, Repr

/-- `m_showDataTypes` and `m_showComments`. -/
structure Flags where
  dataTypes : Bool
  comments : Bool
  deriving DecidableEq, Repr

def Flags.get (f : Flags) : Part → Bool
  | .dataTypes => f.dataTypes
  | .comments => f.comments

def Flags.flip (part : Part) (f : Flags) : Flags :=
  match part with
  | .dataTypes => ⟨!f.dataTypes, f.comments⟩
  | .comments => ⟨f.dataTypes, !f.comments⟩

def allShown : Flags := ⟨true, true⟩

def display (part : Part) (show_ : Bool) (t : TableShape) : TableShape :=
  match part with
  | .dataTypes => t.displayTypesSet show_
  | .comments => t.displayCommentsSet show_

structure Canvas where
  view : ViewType
  flags : Flags
  tables : List TableShape
  deriving DecidableEq, Repr

/-- One turn of the loop: the flag of the canvas is flipped for every table. -/
def showHideTable (part : Part) (show_ : Bool) (st : Flags × List TableShape) (t : TableShape) :
    Except GridFault (Flags × List TableShape) := do
  let t ← (display part show_ t).updateTable
  return (st.1.flip part, st.2 ++ [t])

def showHideTablePart (part : Part) (show_ : Bool) (c : Canvas) : Except GridFault Canvas := do
  let st ← c.tables.foldlM (showHideTable part show_) (c.flags, [])
  return { c with flags := st.1, tables := st.2 }

/-- The choice of a part in the menu of `OnRightDown`. -/
def toggle (c : Canvas) (part : Part) : Except GridFault Canvas := showHideTablePart part (!c.flags.get part) c

/-- The menu of the database view has no entry for the data types. -/
def Offered (view : ViewType) (part : Part) : Prop := view = .databaseView → part = .comments

/-- `MyErdTable(table, type)` -/
def erdTable (type : ViewType) (numFields : ℕ) : TableShape where
  type := type
  numFields := numFields
  displayTypes := true
  displayComments := true
  columns := 3
  headerColumns := 2
  header := ⟨1, 2, [1000, 1001]⟩
  grid := { rows := 1, cols := 3, cells := [], type := type }

/-- The flags of a table and of its grid are those of the canvas, its counters are the numbers of shown columns, and
every field has a cell in each of them. -/
structure Shows (f : Flags) (t : TableShape) : Prop where
  dataTypes : t.displayTypes = f.dataTypes
  comments : t.displayComments = f.comments
  counts : t.Counts
  filled : Filled t.shownColumns (t.numFields * t.shownColumns) t.grid

def Consistent (c : Canvas) : Prop := ∀ t ∈ c.tables, t.type = c.view ∧ Shows c.flags t

structure Starts (c : Canvas) : Prop where
  flags : c.flags = allShown
  tables : Consistent c

/-- A canvas on which tables with these numbers of fields are displayed. -/
def opened (view : ViewType) (sizes : List ℕ) : Except GridFault Canvas := do
  let tables ← sizes.mapM fun numFields => (erdTable view numFields).updateTable
  return { view := view, flags := allShown, tables := tables }

/-- After every toggle its flag, and no other, has changed, and the tables show what the flags say. -/
def Holds (c : Canvas) (toggles : List Part) : Prop :=
  ∀ before part after, toggles = before ++ part :: after →
    ∃ s t, before.foldlM toggle c = .ok s ∧ toggle s part = .ok t ∧ t.flags = s.flags.flip part ∧ Consistent t

@[simp] theorem get_flip (f : Flags) (part : Part) : (f.flip part).get part = !f.get part := by cases part <;> rfl

theorem flip_flip (part : Part) (f : Flags) : (f.flip part).flip part = f := by
  cases part <;> simp [Flags.flip]

theorem flip_ne (part : Part) (f : Flags) : f.flip part ≠ f := fun h => by
  have hget := congrArg (Flags.get · part) h
  simp at hget

theorem flip_iterate (part : Part) (n : ℕ) (f : Flags) :
    (Flags.flip part)^[n] f = if Even n then f else f.flip part := by
  have hinvolutive : Function.Involutive (Flags.flip part) := flip_flip part
  split_ifs with hn
  · rw [hinvolutive.iterate_even hn]
    rfl
  · rw [hinvolutive.iterate_odd (Nat.not_even_iff_odd.mp hn)]

section Table

variable {f : Flags} {t next : TableShape}

theorem shownColumns_updated (h : t.Updated next) : next.shownColumns = t.shownColumns := by
  rw [TableShape.shownColumns, TableShape.shownColumns, h.type, h.displayTypes, h.displayComments]

theorem shows_updated (h : t.Updated next) (hcounts : t.Counts) (hdataTypes : t.displayTypes = f.dataTypes)
    (hcomments : t.displayComments = f.comments) : Shows f next where
  dataTypes := h.displayTypes.trans hdataTypes
  comments := h.displayComments.trans hcomments
  counts := by
    refine ⟨?_, ?_, ?_, ?_, ?_⟩
    · rw [h.columns, hcounts.columns, shownColumns_updated h]
    · rw [h.headerColumns, hcounts.headerColumns, h.displayComments]
    · rw [h.sameParts.type, hcounts.gridType, h.type]
    · rw [h.sameParts.showDataTypes, hcounts.gridTypes, h.displayTypes]
    · rw [h.sameParts.showComments, hcounts.gridComments, h.displayComments]
  filled := by
    rw [shownColumns_updated h, h.numFields]
    exact h.filled

/-- A table as it is first displayed. -/
theorem shows_erdTable (type : ViewType) (numFields : ℕ) :
    ∃ t, (erdTable type numFields).updateTable = .ok t ∧ t.type = type ∧ Shows allShown t := by
  have hcounts : (erdTable type numFields).Counts := ⟨by cases type <;> rfl, rfl, rfl, rfl, rfl⟩
  obtain ⟨t, ht, hupdated⟩ := updateTable_next hcounts
  exact ⟨t, ht, hupdated.type, shows_updated hupdated hcounts rfl rfl⟩

theorem opened_starts (view : ViewType) (sizes : List ℕ) :
    ∃ c, opened view sizes = .ok c ∧ Starts c ∧ c.view = view ∧ c.tables.length = sizes.length := by
  have htables : ∃ tables, sizes.mapM (fun numFields => (erdTable view numFields).updateTable) = .ok tables ∧
      (∀ t ∈ tables, t.type = view ∧ Shows allShown t) ∧ tables.length = sizes.length := by
    induction sizes with
    | nil => exact ⟨[], rfl, by simp, rfl⟩
    | cons numFields sizes ih =>
      obtain ⟨t, ht, hview, hshows⟩ := shows_erdTable view numFields
      obtain ⟨tables, htables, hall, hlength⟩ := ih
      refine ⟨t :: tables, ?_, List.forall_mem_cons.mpr ⟨⟨hview, hshows⟩, hall⟩, by simp [hlength]⟩
      rw [List.mapM_cons, ht, Faults.ok_bind, htables]
      rfl
  obtain ⟨tables, htables, hall, hlength⟩ := htables
  refine ⟨⟨view, allShown, tables⟩, ?_, ⟨rfl, hall⟩, rfl, hlength⟩
  rw [opened, htables]
  rfl

theorem display_flags (part : Part) (h : Shows f t) :
    (display part (!f.get part) t).displayTypes = (f.flip part).dataTypes ∧
      (display part (!f.get part) t).displayComments = (f.flip part).comments := by
  cases part with
  | dataTypes => exact ⟨rfl, h.comments⟩
  | comments => exact ⟨h.dataTypes, rfl⟩

theorem display_type (part : Part) (show_ : Bool) (t : TableShape) : (display part show_ t).type = t.type := by
  cases part <;> rfl

theorem counter_follows {n : ℤ} {k : ℕ} {flag : Bool} (h : n = k + flag.toNat) :
    (if (!flag) = true then n + 1 else n - 1) = k + (!flag).toNat := by
  cases flag
  · simp only [Bool.toNat_false] at h
    simp only [Bool.not_false, if_true, Bool.toNat_true]
    omega
  · simp only [Bool.toNat_true] at h
    simp only [Bool.not_true, Bool.false_eq_true, if_false, Bool.toNat_false]
    omega

/-- The counters follow the flags, as the part is shown if it was not and the other way around. -/
theorem display_counts {part : Part} (hoffered : Offered t.type part) (h : Shows f t) :
    (display part (!f.get part) t).Counts := by
  have hcolumns := h.counts.columns
  have hdataTypes := h.dataTypes
  have hcomments := h.comments
  cases part with
  | dataTypes =>
    have hview : t.type = .queryView := by
      cases hview : t.type with
      | queryView => rfl
      | databaseView => exact absurd (hoffered hview) (by decide)
    refine ⟨?_, h.counts.headerColumns, h.counts.gridType, rfl, h.counts.gridComments⟩
    have hshown (b : Bool) : (t.displayTypesSet b).shownColumns = 1 + t.displayComments.toNat + b.toNat := by
      simp only [TableShape.shownColumns, TableShape.displayTypesSet, hview]
      omega
    have hcount : t.columns = ((1 + t.displayComments.toNat : ℕ) : ℤ) + f.dataTypes.toNat := by
      rw [hcolumns, ← hdataTypes, ← Nat.cast_add, ← hshown]
      rfl
    rw [display, hshown, Nat.cast_add]
    exact counter_follows hcount
  | comments =>
    refine ⟨?_, ?_, h.counts.gridType, h.counts.gridTypes, rfl⟩
    · have hshown : ∃ k : ℕ, ∀ b : Bool, (t.displayCommentsSet b).shownColumns = k + b.toNat := by
        cases hview : t.type with
        | databaseView => exact ⟨2, fun b => by simp only [TableShape.shownColumns, TableShape.displayCommentsSet, hview]⟩
        | queryView => exact ⟨1 + t.displayTypes.toNat, fun b => by
            simp only [TableShape.shownColumns, TableShape.displayCommentsSet, hview]⟩
      obtain ⟨k, hk⟩ := hshown
      have hcount : t.columns = (k : ℤ) + f.comments.toNat := by
        rw [hcolumns, ← hcomments, ← Nat.cast_add, ← hk]
        rfl
      rw [display, hk, Nat.cast_add]
      exact counter_follows hcount
    · have hcount : t.headerColumns = ((1 : ℕ) : ℤ) + f.comments.toNat := by
        rw [h.counts.headerColumns, hcomments]
        rfl
      exact counter_follows hcount

theorem display_shows {part : Part} (hoffered : Offered t.type part) (h : Shows f t) :
    ∃ next, (display part (!f.get part) t).updateTable = .ok next ∧ next.type = t.type ∧ Shows (f.flip part) next := by
  have hcounts := display_counts hoffered h
  obtain ⟨hdataTypes, hcomments⟩ := display_flags part h
  obtain ⟨next, hnext, hupdated⟩ := updateTable_next hcounts
  exact ⟨next, hnext, hupdated.type.trans (display_type part _ t), shows_updated hupdated hcounts hdataTypes hcomments⟩

end Table

section Canvas

variable {part : Part} {c next : Canvas}

theorem foldl_flags {show_ : Bool} {tables : List TableShape} {st after : Flags × List TableShape}
    (h : tables.foldlM (showHideTable part show_) st = .ok after) :
    after.1 = (Flags.flip part)^[tables.length] st.1 ∧ after.2.length = st.2.length + tables.length := by
  induction tables generalizing st with
  | nil =>
    obtain rfl := Except.ok.inj h
    exact ⟨rfl, rfl⟩
  | cons t tables ih =>
    rw [List.foldlM_cons] at h
    obtain ⟨next, hnext, h⟩ := Faults.bind_ok h
    obtain ⟨updated, -, hnext⟩ := Faults.bind_ok hnext
    obtain rfl := Except.ok.inj hnext
    obtain ⟨hflags, hlength⟩ := ih h
    refine ⟨hflags.trans ?_, ?_⟩
    · rw [List.length_cons, Function.iterate_succ_apply]
    · rw [hlength, List.length_append, List.length_singleton, List.length_cons]
      omega

theorem toggle_flags (h : toggle c part = .ok next) :
    next.flags = (if Even c.tables.length then c.flags else c.flags.flip part) ∧ next.view = c.view ∧
      next.tables.length = c.tables.length := by
  obtain ⟨after, hafter, h⟩ := Faults.bind_ok h
  obtain rfl := Except.ok.inj h
  obtain ⟨hflags, hlength⟩ := foldl_flags hafter
  rw [← flip_iterate]
  exact ⟨hflags, rfl, by simpa using hlength⟩

theorem showHideTables {f : Flags} {view : ViewType} (hoffered : Offered view part) {tables : List TableShape}
    (h : ∀ t ∈ tables, t.type = view ∧ Shows f t) (st : Flags × List TableShape)
    (hst : ∀ t ∈ st.2, t.type = view ∧ Shows (f.flip part) t) :
    ∃ after, tables.foldlM (showHideTable part (!f.get part)) st = .ok after ∧
      ∀ t ∈ after.2, t.type = view ∧ Shows (f.flip part) t := by
  induction tables generalizing st with
  | nil => exact ⟨st, rfl, hst⟩
  | cons t tables ih =>
    obtain ⟨htype, ht⟩ := h t (by simp)
    obtain ⟨shown, hshown, hshownType, hshows⟩ := display_shows (htype ▸ hoffered) ht
    have hturn : showHideTable part (!f.get part) st t = .ok (st.1.flip part, st.2 ++ [shown]) := by
      rw [showHideTable, hshown]
      rfl
    rw [List.foldlM_cons, hturn]
    refine ih (fun t ht => h t (List.mem_cons_of_mem _ ht)) _ fun u hu => ?_
    rcases List.mem_append.mp hu with hu | hu
    · exact hst u hu
    · obtain rfl := List.mem_singleton.mp hu
      exact ⟨hshownType.trans htype, hshows⟩

theorem toggle_consistent (hoffered : Offered c.view part) (h : Consistent c) (hodd : Odd c.tables.length) :
    ∃ next, toggle c part = .ok next ∧ next.flags = c.flags.flip part ∧ next.view = c.view ∧
      next.tables.length = c.tables.length ∧ Consistent next := by
  obtain ⟨after, hafter, hshows⟩ := showHideTables hoffered h (c.flags, []) (by simp)
  have htoggle : toggle c part = .ok { c with flags := after.1, tables := after.2 } := by
    rw [toggle, showHideTablePart, hafter]
    rfl
  obtain ⟨hflags, hview, hlength⟩ := toggle_flags htoggle
  rw [if_neg (Nat.not_even_iff_odd.mpr hodd)] at hflags
  refine ⟨_, htoggle, hflags, hview, hlength, fun t ht => ?_⟩
  rw [hflags]
  exact hshows t ht

theorem run_consistent {toggles : List Part} (hoffered : ∀ part ∈ toggles, Offered c.view part) (h : Consistent c)
    (hodd : Odd c.tables.length) :
    ∃ next, toggles.foldlM toggle c = .ok next ∧ next.view = c.view ∧ next.tables.length = c.tables.length ∧
      Consistent next := by
  induction toggles generalizing c with
  | nil => exact ⟨c, rfl, rfl, rfl, h⟩
  | cons part toggles ih =>
    obtain ⟨s, hs, -, hview, hlength, hconsistent⟩ := toggle_consistent (hoffered part (by simp)) h hodd
    obtain ⟨next, hnext, hnextView, hnextLength, hlast⟩ := ih (c := s)
      (fun p hp => hview ▸ hoffered p (List.mem_cons_of_mem _ hp)) hconsistent (hlength ▸ hodd)
    refine ⟨next, ?_, hnextView.trans hview, hnextLength.trans hlength, hlast⟩
    rw [List.foldlM_cons, hs]
    exact hnext

end Canvas

end DbHandler.TableParts
