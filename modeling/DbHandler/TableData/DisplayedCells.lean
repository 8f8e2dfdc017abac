import DbHandler.TableData.EditView

namespace DbHandler.TableData

open Foundation.Encoding

/-- A `DataEditFiield`, by its type. -/
inductive EditValue
  | integer (n : ℤ)
  | double (bits : BitVec 64)
  | wide (t : Text)
  | blob (bytes : Bytes)
  | narrow (bytes : Bytes)
  deriving DecidableEq, Repr

/-- The calls with which `DisplayRecords` fills the grid. -/
inductive GridCall
  | setCellValue (row column : ℕ) (value : Text)
  | setCellRenderer (row column : ℕ) (image : Bytes)
  | setReadOnly (row column : ℕ)
  deriving DecidableEq, Repr

def GridCall.row : GridCall → ℕ
  | .setCellValue row _ _ | .setCellRenderer row _ _ | .setReadOnly row _ => row

/-- `processed` is `m_processed`; every call appends a row to the grid before it fills it. -/
structure EditGrid where
  rows : ℕ := 0
  processed : ℕ := 0
  calls : List GridCall := []
  deriving DecidableEq, Repr

section Display

/-! Which blobs are images, how the narrow strings are decoded, and how a double is written. -/

variable (isImage : Bytes → Bool) (fromBytes : Bytes → Text) (showDouble : BitVec 64 → Text)

/-- The loop over the values; only what is shown takes a column. -/
def fillRow (row : ℕ) : ℕ → List EditValue → List GridCall
  | _, [] => []
  | i, .integer _ :: rest => fillRow row i rest
  | i, .double _ :: rest => fillRow row i rest
  | i, .wide t :: rest => .setCellValue row i t :: fillRow row (i + 1) rest
  | i, .narrow bytes :: rest => .setCellValue row i (fromBytes bytes) :: fillRow row (i + 1) rest
  | i, .blob bytes :: rest =>
    if isImage bytes then .setCellRenderer row i bytes :: .setReadOnly row (i + 1) :: fillRow row (i + 1) rest
    else fillRow row i rest

def displayRecords (g : EditGrid) (values : List EditValue) : EditGrid :=
  ⟨g.rows + 1, g.processed + 1, g.calls ++ fillRow isImage fromBytes g.processed 0 values⟩

def cellCalls (row i : ℕ) : EditValue → List GridCall
  | .integer n => [.setCellValue row i (toString n).toList]
  | .double bits => [.setCellValue row i (showDouble bits)]
  | .wide t => [.setCellValue row i t]
  | .narrow bytes => [.setCellValue row i (fromBytes bytes)]
  | .blob bytes => if isImage bytes then [.setCellRenderer row i bytes, .setReadOnly row i] else []

def rowCalls (row : ℕ) : ℕ → List EditValue → List GridCall
  | _, [] => []
  | i, v :: rest => cellCalls isImage fromBytes showDouble row i v ++ rowCalls row (i + 1) rest

def allCalls : ℕ → List (List EditValue) → List GridCall
  | _, [] => []
  | row, values :: rest => rowCalls isImage fromBytes showDouble row 0 values ++ allCalls (row + 1) rest

/-- Each value goes to its own cell, and the cells with a picture are read-only. -/
def ShownInPlace (rows : List (List EditValue)) : Prop :=
  (rows.foldl (displayRecords isImage fromBytes) {}).calls = allCalls isImage fromBytes showDouble 0 rows

def EditValue.IsText : EditValue → Prop
  | .wide _ | .narrow _ => True
  | _ => False

def EditValue.IsUnshown : EditValue → Prop
  | .blob bytes => isImage bytes = false
  | _ => False

/-- Strings, and behind them nothing but blobs that are no images. -/
def Displayable (values : List EditValue) : Prop :=
  ∃ texts blobs, values = texts ++ blobs ∧ (∀ v ∈ texts, v.IsText) ∧ ∀ v ∈ blobs, v.IsUnshown isImage

end Display

section Rows

variable {isImage : Bytes → Bool} {fromBytes : Bytes → Text} {showDouble : BitVec 64 → Text}

/-- On the values that a query delivers the loop is that of the edit view. -/
theorem fillRow_entries (row i : ℕ) (entries : List Entry) :
    fillRow isImage fromBytes row i (entries.map fun
      | .wide t => .wide t
      | .narrow bytes => .narrow bytes
      | .blob bytes => .blob bytes) =
    (displayCells isImage i entries).map fun
      | .value column (.wide t) => .setCellValue row column t
      | .value column (.narrow bytes) => .setCellValue row column (fromBytes bytes)
      | .value column (.blob _) => .setCellValue row column []
      | .image column bytes => .setCellRenderer row column bytes
      | .readOnly column => .setReadOnly row column := by
  induction entries generalizing i with
  | nil => rfl
  | cons entry entries ih =>
    cases entry with
    | wide t => exact congrArg _ (ih (i + 1))
    | narrow bytes => exact congrArg _ (ih (i + 1))
    | blob bytes =>
      simp only [List.map_cons, fillRow, displayCells]
      split
      · simp only [List.map_cons, ih]
      · exact ih i

theorem fillRow_length_le (row i j : ℕ) (values : List EditValue) :
    (fillRow isImage fromBytes row i values).length ≤ (rowCalls isImage fromBytes showDouble row j values).length := by
  induction values generalizing i j with
  | nil => exact le_refl _
  | cons v rest ih =>
    rw [rowCalls, List.length_append]
    cases v with
    | integer n => exact (ih i (j + 1)).trans (Nat.le_add_left _ _)
    | double bits => exact (ih i (j + 1)).trans (Nat.le_add_left _ _)
    | wide t =>
      have hrest := ih (i + 1) (j + 1)
      simp only [fillRow, cellCalls, List.length_cons, List.length_nil]
      omega
    | narrow bytes =>
      have hrest := ih (i + 1) (j + 1)
      simp only [fillRow, cellCalls, List.length_cons, List.length_nil]
      omega
    | blob bytes =>
      simp only [fillRow, cellCalls]
      split
      · have hrest := ih (i + 1) (j + 1)
        simp only [List.length_cons, List.length_nil]
        omega
      · exact (ih i (j + 1)).trans (Nat.le_add_left _ _)

theorem displayable_nil : Displayable isImage [] := ⟨[], [], rfl, by simp, by simp⟩

theorem displayable_cons_text {v : EditValue} {values : List EditValue} (hv : v.IsText) :
    Displayable isImage (v :: values) ↔ Displayable isImage values := by
  constructor
  · rintro ⟨texts, blobs, hsplit, htexts, hblobs⟩
    cases texts with
    | nil =>
      rw [List.nil_append] at hsplit
      have hunshown := hblobs v (hsplit ▸ List.mem_cons_self)
      cases v <;> first | exact hv.elim | exact hunshown.elim
    | cons first texts =>
      obtain ⟨rfl, rfl⟩ := List.cons.inj hsplit
      exact ⟨texts, blobs, rfl, fun w hw => htexts w (List.mem_cons_of_mem _ hw), hblobs⟩
  · rintro ⟨texts, blobs, rfl, htexts, hblobs⟩
    exact ⟨v :: texts, blobs, rfl, List.forall_mem_cons.mpr ⟨hv, htexts⟩, hblobs⟩

theorem displayable_cons_other {v : EditValue} {values : List EditValue} (hv : ¬ v.IsText) :
    Displayable isImage (v :: values) ↔ ∀ w ∈ v :: values, w.IsUnshown isImage := by
  constructor
  · rintro ⟨texts, blobs, hsplit, htexts, hblobs⟩
    cases texts with
    | nil =>
      rw [hsplit]
      exact hblobs
    | cons first texts =>
      obtain ⟨rfl, -⟩ := List.cons.inj hsplit
      exact absurd (htexts v List.mem_cons_self) hv
  · intro hall
    exact ⟨[], v :: values, rfl, by simp, hall⟩

/-- A row that has lost a column stays behind: nothing more may be shown. -/
theorem fillRow_shifted_iff {row i j : ℕ} (h : j < i) (values : List EditValue) :
    fillRow isImage fromBytes row j values = rowCalls isImage fromBytes showDouble row i values ↔
      ∀ v ∈ values, v.IsUnshown isImage := by
  induction values generalizing i j with
  | nil => exact iff_of_true rfl (by simp)
  | cons v rest ih =>
    have hshort := @fillRow_length_le isImage fromBytes showDouble row j (i + 1) rest
    rw [rowCalls, List.forall_mem_cons]
    cases v with
    | integer n =>
      refine iff_of_false (fun heq => ?_) fun hall => hall.1
      have hlength := congrArg List.length heq
      simp only [fillRow, cellCalls, List.singleton_append, List.length_cons] at hlength
      omega
    | double bits =>
      refine iff_of_false (fun heq => ?_) fun hall => hall.1
      have hlength := congrArg List.length heq
      simp only [fillRow, cellCalls, List.singleton_append, List.length_cons] at hlength
      omega
    | wide t =>
      refine iff_of_false (fun heq => ?_) fun hall => hall.1
      have hcolumn : j = i := (GridCall.setCellValue.inj (List.cons.inj heq).1).2.1
      omega
    | narrow bytes =>
      refine iff_of_false (fun heq => ?_) fun hall => hall.1
      have hcolumn : j = i := (GridCall.setCellValue.inj (List.cons.inj heq).1).2.1
      omega
    | blob bytes =>
      rw [fillRow, cellCalls, EditValue.IsUnshown]
      cases isImage bytes with
      | true =>
        refine iff_of_false (fun heq => ?_) fun hall => Bool.noConfusion hall.1
        have hcolumn : j = i := (GridCall.setCellRenderer.inj (List.cons.inj heq).1).2.1
        omega
      | false =>
        rw [and_iff_right rfl]
        exact ih (by omega)

theorem fillRow_iff (row i : ℕ) (values : List EditValue) :
    fillRow isImage fromBytes row i values = rowCalls isImage fromBytes showDouble row i values ↔
      Displayable isImage values := by
  induction values generalizing i with
  | nil => exact iff_of_true rfl displayable_nil
  | cons v rest ih =>
    have hshort := @fillRow_length_le isImage fromBytes showDouble row i (i + 1) rest
    rw [rowCalls]
    cases v with
    | integer n =>
      rw [displayable_cons_other (v := .integer n) not_false]
      refine iff_of_false (fun heq => ?_) fun hall => hall _ List.mem_cons_self
      have hlength := congrArg List.length heq
      simp only [fillRow, cellCalls, List.singleton_append, List.length_cons] at hlength
      omega
    | double bits =>
      rw [displayable_cons_other (v := .double bits) not_false]
      refine iff_of_false (fun heq => ?_) fun hall => hall _ List.mem_cons_self
      have hlength := congrArg List.length heq
      simp only [fillRow, cellCalls, List.singleton_append, List.length_cons] at hlength
      omega
    | wide t =>
      rw [displayable_cons_text (v := .wide t) trivial, ← ih (i + 1)]
      exact List.cons_inj_right _
    | narrow bytes =>
      rw [displayable_cons_text (v := .narrow bytes) trivial, ← ih (i + 1)]
      exact List.cons_inj_right _
    | blob bytes =>
      rw [displayable_cons_other (v := .blob bytes) not_false, List.forall_mem_cons, fillRow, cellCalls, EditValue.IsUnshown]
      cases isImage bytes with
      | true =>
        refine iff_of_false (fun heq => ?_) fun hall => Bool.noConfusion hall.1
        have hcolumn : i + 1 = i := (GridCall.setReadOnly.inj (List.cons.inj (List.cons.inj heq).2).1).2
        omega
      | false =>
        rw [and_iff_right rfl]
        exact fillRow_shifted_iff (Nat.lt_succ_self i) rest

theorem row_of_mem_fillRow {row i : ℕ} {values : List EditValue} {c : GridCall}
    (h : c ∈ fillRow isImage fromBytes row i values) : c.row = row := by
  induction values generalizing i with
  | nil => cases h
  | cons v rest ih =>
    cases v with
    | integer n => exact ih h
    | double bits => exact ih h
    | wide t =>
      rcases List.mem_cons.mp h with rfl | h
      · rfl
      · exact ih h
    | narrow bytes =>
      rcases List.mem_cons.mp h with rfl | h
      · rfl
      · exact ih h
    | blob bytes =>
      rw [fillRow] at h
      split at h
      · rcases List.mem_cons.mp h with rfl | h
        · rfl
        · rcases List.mem_cons.mp h with rfl | h
          · rfl
          · exact ih h
      · exact ih h

theorem row_of_mem_rowCalls {row i : ℕ} {values : List EditValue} {c : GridCall}
    (h : c ∈ rowCalls isImage fromBytes showDouble row i values) : c.row = row := by
  induction values generalizing i with
  | nil => cases h
  | cons v rest ih =>
    rw [rowCalls, List.mem_append] at h
    rcases h with h | h
    · cases v with
      | blob bytes =>
        rw [cellCalls] at h
        split at h
        · rcases List.mem_cons.mp h with rfl | h
          · rfl
          · rw [List.mem_singleton.mp h]
            rfl
        · cases h
      | integer | double | wide | narrow =>
        rw [List.mem_singleton.mp h]
        rfl
    · exact ih h

end Rows

section Runs

variable {isImage : Bytes → Bool} {fromBytes : Bytes → Text} {showDouble : BitVec 64 → Text}

def fillRows (isImage : Bytes → Bool) (fromBytes : Bytes → Text) : ℕ → List (List EditValue) → List GridCall
  | _, [] => []
  | row, values :: rest => fillRow isImage fromBytes row 0 values ++ fillRows isImage fromBytes (row + 1) rest

theorem foldl_displayRecords (rows : List (List EditValue)) (g : EditGrid) :
    (rows.foldl (displayRecords isImage fromBytes) g).calls = g.calls ++ fillRows isImage fromBytes g.processed rows := by
  induction rows generalizing g with
  | nil => exact (List.append_nil _).symm
  | cons values rest ih =>
    rw [List.foldl_cons, ih]
    exact List.append_assoc _ _ _

theorem lt_of_mem_fillRows {row : ℕ} {rows : List (List EditValue)} {c : GridCall}
    (h : c ∈ fillRows isImage fromBytes (row + 1) rows) : row < c.row := by
  induction rows generalizing row with
  | nil => cases h
  | cons values rest ih =>
    rcases List.mem_append.mp h with h | h
    · rw [row_of_mem_fillRow h]
      exact Nat.lt_succ_self row
    · exact (Nat.lt_succ_self row).trans (ih h)

theorem lt_of_mem_allCalls {row : ℕ} {rows : List (List EditValue)} {c : GridCall}
    (h : c ∈ allCalls isImage fromBytes showDouble (row + 1) rows) : row < c.row := by
  induction rows generalizing row with
  | nil => cases h
  | cons values rest ih =>
    rcases List.mem_append.mp h with h | h
    · rw [row_of_mem_rowCalls h]
      exact Nat.lt_succ_self row
    · exact (Nat.lt_succ_self row).trans (ih h)

/-- The calls for one row come before all calls for later ones. -/
theorem append_inj_of_rows {row : ℕ} {a b c d : List GridCall} (ha : ∀ x ∈ a, x.row = row) (hb : ∀ x ∈ b, row < x.row)
    (hc : ∀ x ∈ c, x.row = row) (hd : ∀ x ∈ d, row < x.row) : a ++ b = c ++ d ↔ a = c ∧ b = d := by
  constructor
  · intro heq
    have hfilter {l m : List GridCall} (hl : ∀ x ∈ l, x.row = row) (hm : ∀ x ∈ m, row < x.row) :
        (l ++ m).filter (·.row = row) = l := by
      rw [List.filter_append, List.filter_eq_self.mpr fun x hx => decide_eq_true (hl x hx),
        List.filter_eq_nil_iff.mpr fun x hx => by simpa using (hm x hx).ne', List.append_nil]
    have hfirst : a = c := by rw [← hfilter ha hb, heq, hfilter hc hd]
    exact ⟨hfirst, List.append_cancel_left (hfirst ▸ heq)⟩
  · rintro ⟨rfl, rfl⟩
    rfl

theorem fillRows_iff (row : ℕ) (rows : List (List EditValue)) :
    fillRows isImage fromBytes row rows = allCalls isImage fromBytes showDouble row rows ↔
      ∀ values ∈ rows, Displayable isImage values := by
  induction rows generalizing row with
  | nil => exact iff_of_true rfl (by simp)
  | cons values rest ih =>
    rw [List.forall_mem_cons, ← fillRow_iff row 0, ← ih (row + 1)]
    apply append_inj_of_rows
    · exact fun x hx => row_of_mem_fillRow hx
    · exact fun x hx => lt_of_mem_fillRows hx
    · exact fun x hx => row_of_mem_rowCalls hx
    · exact fun x hx => lt_of_mem_allCalls hx

theorem shownInPlace_iff (isImage : Bytes → Bool) (fromBytes : Bytes → Text) (showDouble : BitVec 64 → Text)
    (rows : List (List EditValue)) :
    ShownInPlace isImage fromBytes showDouble rows ↔ ∀ values ∈ rows, Displayable isImage values := by
  rw [← fillRows_iff 0, ShownInPlace, foldl_displayRecords]
  rfl

/-- A float in front of a name: the name comes into the column of the float. -/
theorem name_shown_under_number :
    let rows : List (List EditValue) := [[.double 0, .wide "a".toList]]
    (rows.foldl (displayRecords (fun _ => false) fun _ => []) {}).calls = [.setCellValue 0 0 "a".toList] ∧
      ¬ ShownInPlace (fun _ => false) (fun _ => []) (fun _ => "0".toList) rows := by
  intro rows
  have hcalls : (rows.foldl (displayRecords (fun _ => false) fun _ => []) {}).calls = [.setCellValue 0 0 "a".toList] := rfl
  refine ⟨hcalls, fun hplace => ?_⟩
  rw [ShownInPlace, hcalls] at hplace
  exact absurd hplace (by decide)

end Runs

end DbHandler.TableData
