import DbHandler.Foundation.Neighbours
import DbHandler.Foundation.Runs
import DbHandler.Interface

namespace DbHandler.QueryBuilder

open Foundation Foundation.Runs

/-- `WhereHavingLines`. -/
structure WhereLine where
  row : ℤ
  old : Text
  new : Text
  deriving DecidableEq, Repr

/-- The grid has ten rows from the start, to which nine are appended. -/
def InGrid (row col : ℤ) : Prop := (0 ≤ row ∧ row < 19) ∧ 0 ≤ col ∧ col < 4

instance (row col : ℤ) : Decidable (InGrid row col) := by
  unfold InGrid
  infer_instance

/-- What is written outside the grid is lost. -/
def setCellValue (cells : ℤ → ℤ → Text) (row col : ℤ) (value : Text) : ℤ → ℤ → Text :=
  fun r c => if InGrid row col ∧ r = row ∧ c = col then value else cells r c

def lineText (cells : ℤ → ℤ → Text) (row : ℤ) : Text :=
  cells row 0 ++ (' ' :: (cells row 1 ++ (' ' :: (cells row 2 ++ (' ' :: cells row 3)))))

/-- The grid, `m_row`, `m_col` and `m_lines`; `announced` are the lines that were sent to the parent. -/
structure WherePage where
  cells : ℤ → ℤ → Text
  row : ℤ
  col : ℤ
  lines : List WhereLine := []
  announced : List WhereLine := []

def updateLine (row : ℤ) (text : Text) : List WhereLine → List WhereLine
  | [] => []
  | line :: rest =>
    if line.row = row then { line with old := line.new, new := text } :: rest else line :: updateLine row text rest

namespace WherePage

def rows (p : WherePage) : List ℤ := p.lines.map (·.row)

section Handlers

/-- `m_lines.at( m_row )` counts the lines, not the rows; it throws where there are too few of them. -/
def clearLine (p : WherePage) : Option WherePage :=
  if 0 ≤ p.row ∧ p.row < p.lines.length then
    some { p with
      cells := setCellValue (setCellValue (setCellValue p.cells p.row 1 []) p.row 2 []) p.row 3 []
      lines := p.lines.modify p.row.toNat fun line => { line with old := line.new, new := [] } }
  else none

def recordLine (p : WherePage) : WherePage :=
  { p with lines :=
      if p.row ∈ p.rows then updateLine p.row (lineText p.cells p.row) p.lines
      else p.lines ++ [⟨p.row, [], lineText p.cells p.row⟩] }

def announce (p : WherePage) : WherePage :=
  match p.lines.find? (·.row = p.row) with
  | some line => { p with announced := p.announced ++ [line] }
  | none => p

/-- Only the column of the event is read; the row is the one of the last click. -/
def onGridCellChanged (col : ℤ) (p : WherePage) : Option WherePage :=
  (if col = 0 ∧ p.cells p.row 0 = [] then p.clearLine else some p).map fun p =>
    (if col = 0 then p.recordLine else p).announce

/-- The user's edit; the event comes only where it changes the cell. -/
def editCell (row col : ℤ) (value : Text) (p : WherePage) : Option WherePage :=
  if InGrid row col ∧ value ≠ p.cells row col then
    { p with cells := setCellValue p.cells row col value }.onGridCellChanged col
  else some p

/-- A click whose cell is being edited sets nothing that is not so already. -/
def onGridClick (row col : ℤ) (p : WherePage) : WherePage := { p with row, col }

/-- `OnColumnName` -/
def onEditorCreated (row col : ℤ) (p : WherePage) : WherePage := if col = 0 then { p with row } else p

/-- A choice in the column's combo box. -/
def onCellChosen (p : WherePage) : WherePage :=
  if p.cells p.row 1 = [] then { p with cells := setCellValue p.cells p.row 1 "=".toList } else p

def onMenuSelection (selection : Text) (p : WherePage) : WherePage :=
  if selection ≠ [] then
    let cells := setCellValue p.cells p.row p.col selection
    { p with cells := if p.col = 0 ∧ cells p.row 1 = [] then setCellValue cells p.row 1 "=".toList else cells }
  else p

end Handlers

end WherePage

inductive WhereEvent
  | click (row col : ℤ)
  | editorCreated (row col : ℤ)
  | edit (row col : ℤ) (value : Text)
  | chosen
  | menuSelection (selection : Text)
  deriving DecidableEq, Repr

namespace WherePage

def step (p : WherePage) : WhereEvent → Option WherePage
  | .click row col => some (p.onGridClick row col)
  | .editorCreated row col => some (p.onEditorCreated row col)
  | .edit row col value => p.editCell row col value
  | .chosen => some p.onCellChosen
  | .menuSelection selection => some (p.onMenuSelection selection)

/-- The text of each row before its last change, which is empty as long as the row has no line. -/
def remember (p t : WherePage) (before : ℤ → Text) (row : ℤ) : Text :=
  if lineText t.cells row = lineText p.cells row then before row
  else if row ∈ p.rows then lineText p.cells row else []

def stepBoth (s : WherePage × (ℤ → Text)) (e : WhereEvent) : Option (WherePage × (ℤ → Text)) :=
  (s.1.step e).map fun t => (t, remember s.1 t s.2)

structure Matches (p : WherePage) (before : ℤ → Text) : Prop where
  single : p.rows.Nodup
  recorded : ∀ row, p.cells row 0 ≠ [] → row ∈ p.rows
  new : ∀ line ∈ p.lines, line.new = lineText p.cells line.row
  old : ∀ line ∈ p.lines, line.old = before line.row

/-- The events after which the lines still match: an edit gives the row of the last click a column, or changes
another cell of a row that has no line yet; nothing else may change a row that has one. -/
def Meets (p : WherePage) : WhereEvent → Prop
  | .click _ _ | .editorCreated _ _ => True
  | .edit row col value => InGrid row col → value ≠ p.cells row col →
      (col = 0 ∧ value ≠ [] ∧ row = p.row) ∨ (col ≠ 0 ∧ row ∉ p.rows)
  | .chosen => InGrid p.row 1 → p.cells p.row 1 = [] → p.row ∉ p.rows
  | .menuSelection selection => InGrid p.row p.col → selection ≠ [] →
      (selection = p.cells p.row p.col ∧ (p.col = 0 → p.cells p.row 1 ≠ [])) ∨ (p.col ≠ 0 ∧ p.row ∉ p.rows)

end WherePage

section Cells

variable {cells : ℤ → ℤ → Text} {row col r c : ℤ} {value : Text}

theorem setCellValue_same (h : InGrid row col) : setCellValue cells row col value row col = value :=
  if_pos ⟨h, rfl, rfl⟩

theorem setCellValue_other (h : r ≠ row ∨ c ≠ col) : setCellValue cells row col value r c = cells r c :=
  if_neg fun hsame => h.elim (· hsame.2.1) (· hsame.2.2)

theorem setCellValue_col (h : c ≠ col) : setCellValue cells row col value r c = cells r c :=
  setCellValue_other (Or.inr h)

theorem setCellValue_outside (h : ¬ InGrid row col) : setCellValue cells row col value = cells := by
  funext r c
  exact if_neg fun hsame => h hsame.1

theorem setCellValue_self (h : value = cells row col) : setCellValue cells row col value = cells := by
  funext r c
  by_cases hsame : r = row ∧ c = col
  · obtain ⟨rfl, rfl⟩ := hsame
    by_cases hin : InGrid r c
    · rw [setCellValue_same hin, h]
    · rw [setCellValue_outside hin]
  · exact setCellValue_other (by tauto)

theorem lineText_other (h : r ≠ row) : lineText (setCellValue cells row col value) r = lineText cells r := by
  simp only [lineText, setCellValue_other (Or.inl h)]

theorem lineText_ne_nil (cells : ℤ → ℤ → Text) (row : ℤ) : lineText cells row ≠ [] := by
  simp [lineText]

theorem lineText_ne (hin : InGrid row col) (h : value ≠ cells row col) :
    lineText (setCellValue cells row col value) row ≠ lineText cells row := by
  obtain rfl | rfl | rfl | rfl : col = 0 ∨ col = 1 ∨ col = 2 ∨ col = 3 := by
    obtain ⟨-, hlow, hhigh⟩ := hin
    omega
  all_goals
    simp (disch := decide) only [lineText, setCellValue_same hin, setCellValue_col]
    simpa using h

end Cells

namespace WherePage

variable {p t : WherePage} {before : ℤ → Text} {row col : ℤ}

section Lines

theorem remember_same (h : lineText t.cells row = lineText p.cells row) : remember p t before row = before row := if_pos h

theorem remember_changed (h : lineText t.cells row ≠ lineText p.cells row) :
    remember p t before row = if row ∈ p.rows then lineText p.cells row else [] := if_neg h

/-- Only rows without a line may change while the lines stay, and their column stays empty. -/
theorem Matches.of_same_lines (h : Matches p before) (hlines : t.lines = p.lines)
    (hcells : ∀ row ∈ p.rows, lineText t.cells row = lineText p.cells row)
    (hcolumn : ∀ row, row ∉ p.rows → t.cells row 0 = p.cells row 0) : Matches t (remember p t before) := by
  have hrows : t.rows = p.rows := congrArg (List.map WhereLine.row) hlines
  refine ⟨hrows ▸ h.single, fun row hrow => ?_, fun line hline => ?_, fun line hline => ?_⟩
  · rw [hrows]
    by_contra hnot
    rw [hcolumn row hnot] at hrow
    exact hnot (h.recorded row hrow)
  · rw [hlines] at hline
    rw [hcells line.row (List.mem_map_of_mem hline)]
    exact h.new line hline
  · rw [hlines] at hline
    rw [remember_same (hcells line.row (List.mem_map_of_mem hline))]
    exact h.old line hline

theorem not_matches_of_stale (h : Matches p before) {after : ℤ → Text} (hrow : row ∈ p.rows) (hlines : t.lines = p.lines)
    (hchanged : lineText t.cells row ≠ lineText p.cells row) : ¬ Matches t after := by
  intro hmatches
  obtain ⟨line, hline, rfl⟩ := List.mem_map.mp hrow
  have hnew := hmatches.new line (hlines ▸ hline)
  rw [h.new line hline] at hnew
  exact hchanged hnew.symm

theorem announce_lines (p : WherePage) : p.announce.lines = p.lines ∧ p.announce.cells = p.cells := by
  rw [announce]
  split <;> exact ⟨rfl, rfl⟩

theorem rows_updateLine (row : ℤ) (text : Text) (lines : List WhereLine) :
    (updateLine row text lines).map (·.row) = lines.map (·.row) := by
  induction lines with
  | nil => rfl
  | cons line rest ih =>
    rw [updateLine]
    split
    · rfl
    · rw [List.map_cons, List.map_cons, ih]

theorem updateLine_split {row : ℤ} {c d : List WhereLine} {line : WhereLine} (hc : row ∉ c.map (·.row))
    (hline : line.row = row) (text : Text) :
    updateLine row text (c ++ line :: d) = c ++ { line with old := line.new, new := text } :: d := by
  induction c with
  | nil => exact if_pos hline
  | cons first c ih =>
    rw [List.map_cons, List.mem_cons, not_or] at hc
    rw [List.cons_append, updateLine, if_neg (Ne.symm hc.1), ih hc.2, List.cons_append]

theorem mem_updateLine_other {row : ℤ} {text : Text} {lines : List WhereLine} {line : WhereLine} (hrow : line.row ≠ row) :
    line ∈ updateLine row text lines ↔ line ∈ lines := by
  induction lines with
  | nil => rfl
  | cons first rest ih =>
    rw [updateLine]
    split
    · rename_i hfirst
      have hne : line ≠ first := fun heq => hrow (heq ▸ hfirst)
      have hne' : line ≠ { first with old := first.new, new := text } := fun heq => hrow (heq ▸ hfirst)
      rw [List.mem_cons, List.mem_cons, or_iff_right hne, or_iff_right hne']
    · rw [List.mem_cons, List.mem_cons, ih]

end Lines

section Events

theorem Matches.recordLine (h : Matches p before) {cells : ℤ → ℤ → Text}
    (hothers : ∀ r, r ≠ p.row → lineText cells r = lineText p.cells r ∧ cells r 0 = p.cells r 0)
    (hchanged : lineText cells p.row ≠ lineText p.cells p.row) :
    Matches { p with cells }.recordLine (remember p { p with cells }.recordLine before) := by
  by_cases hrow : p.row ∈ p.rows
  · obtain ⟨c, line, d, hsplit, hline, hc, hd⟩ := Neighbours.split_at_key h.single hrow
    have hlines : { p with cells }.recordLine.lines =
        c ++ { line with old := line.new, new := lineText cells p.row } :: d := by
      have hupdate : { p with cells }.recordLine.lines = updateLine p.row (lineText cells p.row) p.lines := if_pos hrow
      rw [hupdate, hsplit, updateLine_split hc hline]
    have hrows : { p with cells }.recordLine.rows = p.rows := by
      rw [rows, rows, hlines, hsplit, List.map_append, List.map_append]
      rfl
    have hmem (other : WhereLine) (hother : other ∈ c ∨ other ∈ d) : other ∈ p.lines ∧ other.row ≠ p.row := by
      refine ⟨by rw [hsplit]; simp [or_left_comm, hother], ?_⟩
      rintro heq
      exact hother.elim (fun hin => hc (heq ▸ List.mem_map_of_mem hin)) fun hin => hd (heq ▸ List.mem_map_of_mem hin)
    refine ⟨hrows ▸ h.single, fun r hr => ?_, fun other hother => ?_, fun other hother => ?_⟩
    · rw [hrows]
      by_cases heq : r = p.row
      · rw [heq]
        exact hrow
      · exact h.recorded r ((hothers r heq).2 ▸ hr)
    · rw [hlines, List.mem_append, List.mem_cons, or_left_comm] at hother
      rcases hother with rfl | hother
      · dsimp only
        rw [hline]
        rfl
      · obtain ⟨hin, hne⟩ := hmem other hother
        exact (h.new other hin).trans (hothers other.row hne).1.symm
    · rw [hlines, List.mem_append, List.mem_cons, or_left_comm] at hother
      rcases hother with rfl | hother
      · dsimp only
        rw [hline, remember_changed hchanged, if_pos hrow, h.new line (by rw [hsplit]; simp), hline]
      · obtain ⟨hin, hne⟩ := hmem other hother
        rw [remember_same (hothers other.row hne).1]
        exact h.old other hin
  · have hlines : { p with cells }.recordLine.lines = p.lines ++ [⟨p.row, [], lineText cells p.row⟩] := if_neg hrow
    have hrows : { p with cells }.recordLine.rows = p.rows ++ [p.row] := by
      rw [rows, hlines, List.map_append]
      rfl
    have hne (other : WhereLine) (hin : other ∈ p.lines) : other.row ≠ p.row := fun heq =>
      hrow (heq ▸ List.mem_map_of_mem hin)
    refine ⟨?_, fun r hr => ?_, fun other hother => ?_, fun other hother => ?_⟩
    · rw [hrows, ← List.concat_eq_append, List.nodup_concat]
      exact ⟨hrow, h.single⟩
    · rw [hrows, List.mem_append, List.mem_singleton]
      by_cases heq : r = p.row
      · exact Or.inr heq
      · exact Or.inl (h.recorded r ((hothers r heq).2 ▸ hr))
    · rw [hlines, List.mem_append, List.mem_singleton] at hother
      rcases hother with hin | rfl
      · exact (h.new other hin).trans (hothers other.row (hne other hin)).1.symm
      · rfl
    · rw [hlines, List.mem_append, List.mem_singleton] at hother
      rcases hother with hin | rfl
      · rw [remember_same (hothers other.row (hne other hin)).1]
        exact h.old other hin
      · exact ((remember_changed hchanged).trans (if_neg hrow)).symm

/-- What a change of a column does: only the line of the last click is written, but any line may be emptied. -/
structure Touches (q t : WherePage) : Prop where
  rows : ∀ row ∈ q.rows, row ∈ t.rows
  added : ∀ row ∈ t.rows, row ∈ q.rows ∨ row = q.row
  lines : ∀ line ∈ t.lines, line.row ≠ q.row → line ∈ q.lines ∨ line.new = []
  cells : ∀ row, row ≠ q.row → t.cells row = q.cells row

theorem touches_recordLine (q : WherePage) : Touches q q.recordLine := by
  by_cases hrow : q.row ∈ q.rows
  · have hlines : q.recordLine.lines = updateLine q.row (lineText q.cells q.row) q.lines := if_pos hrow
    have hrows : q.recordLine.rows = q.rows := by
      rw [WherePage.rows, hlines]
      exact rows_updateLine _ _ _
    refine ⟨fun row h => hrows ▸ h, fun row h => Or.inl (hrows ▸ h), fun line hline hne => Or.inl ?_, fun _ _ => rfl⟩
    rwa [hlines, mem_updateLine_other hne] at hline
  · have hlines : q.recordLine.lines = q.lines ++ [⟨q.row, [], lineText q.cells q.row⟩] := if_neg hrow
    have hrows : q.recordLine.rows = q.rows ++ [q.row] := by
      rw [WherePage.rows, hlines, List.map_append]
      rfl
    refine ⟨fun row h => ?_, fun row h => ?_, fun line hline hne => ?_, fun _ _ => rfl⟩
    · rw [hrows]
      exact List.mem_append_left _ h
    · rwa [hrows, List.mem_append, List.mem_singleton] at h
    · rw [hlines, List.mem_append, List.mem_singleton] at hline
      rcases hline with hin | rfl
      · exact Or.inl hin
      · exact absurd rfl hne

theorem clearLine_split {q u : WherePage} (h : q.clearLine = some u) :
    ∃ c line d, q.lines = c ++ line :: d ∧ u.lines = c ++ { line with old := line.new, new := [] } :: d ∧ u.row = q.row ∧
      (∀ row, row ≠ q.row → u.cells row = q.cells row) ∧
      u.cells = setCellValue (setCellValue (setCellValue q.cells q.row 1 []) q.row 2 []) q.row 3 [] := by
  rw [clearLine] at h
  split at h
  · rename_i hinside
    obtain rfl := Option.some.inj h
    have hlength : q.row.toNat < q.lines.length := by omega
    refine ⟨q.lines.take q.row.toNat, q.lines[q.row.toNat], q.lines.drop (q.row.toNat + 1), by simp, ?_, rfl, ?_, rfl⟩
    · exact List.modify_eq_take_cons_drop hlength
    · intro row hne
      funext col
      simp only [setCellValue_other (Or.inl hne)]
  · cases h

theorem touches_clearLine {q u : WherePage} (h : q.clearLine = some u) : Touches q u := by
  obtain ⟨c, line, d, hlines, hcleared, -, hcells, -⟩ := clearLine_split h
  have hrows : u.rows = q.rows := by
    rw [rows, rows, hlines, hcleared, List.map_append, List.map_append]
    rfl
  refine ⟨fun row hin => hrows ▸ hin, fun row hin => Or.inl (hrows ▸ hin), fun other hother _ => ?_, hcells⟩
  rw [hcleared, List.mem_append, List.mem_cons, or_left_comm] at hother
  rcases hother with rfl | hother
  · exact Or.inr rfl
  · rw [hlines]
    exact Or.inl (by simp [or_left_comm, hother])

theorem onGridCellChanged_column {q t : WherePage} (h : q.onGridCellChanged 0 = some t) :
    ∃ u, (if q.cells q.row 0 = [] then q.clearLine else some q) = some u ∧ u.recordLine.announce = t := by
  obtain ⟨u, hu, rfl⟩ := Option.map_eq_some_iff.mp h
  exact ⟨u, by simpa using hu, rfl⟩

theorem touches_onGridCellChanged {q t : WherePage} (h : q.onGridCellChanged 0 = some t) : Touches q t := by
  obtain ⟨u, hu, rfl⟩ := onGridCellChanged_column h
  obtain ⟨hrow, hclear⟩ : u.row = q.row ∧ Touches q u := by
    split at hu
    · obtain ⟨c, line, d, -, -, hrow, -⟩ := clearLine_split hu
      exact ⟨hrow, touches_clearLine hu⟩
    · obtain rfl := Option.some.inj hu
      exact ⟨rfl, fun _ hin => hin, fun _ hin => Or.inl hin, fun _ hin _ => Or.inl hin, fun _ _ => rfl⟩
  have hrecord := touches_recordLine u
  obtain ⟨hlines, hcells⟩ := announce_lines u.recordLine
  have hrows : u.recordLine.announce.rows = u.recordLine.rows := congrArg (List.map WhereLine.row) hlines
  refine ⟨fun row hin => ?_, fun row hin => ?_, fun line hline hne => ?_, fun row hne => ?_⟩
  · rw [hrows]
    exact hrecord.rows row (hclear.rows row hin)
  · rw [hrows] at hin
    rcases hrecord.added row hin with hin | rfl
    · exact hclear.added row hin
    · exact Or.inr hrow
  · rw [hlines] at hline
    rcases hrecord.lines line hline (hrow ▸ hne) with hin | hnil
    · exact hclear.lines line hin hne
    · exact Or.inr hnil
  · rw [hcells, hrecord.cells row (hrow ▸ hne), hclear.cells row hne]

theorem not_matches_of_other_row (h : Matches p before) {value : Text} (hin : InGrid row 0) (hvalue : value ≠ p.cells row 0)
    (hother : row ≠ p.row) (ht : { p with cells := setCellValue p.cells row 0 value }.onGridCellChanged 0 = some t)
    {after : ℤ → Text} : ¬ Matches t after := by
  intro hmatches
  have htouches := touches_onGridCellChanged ht
  have hcells : t.cells row = setCellValue p.cells row 0 value row := htouches.cells row hother
  by_cases hrow : row ∈ p.rows
  · obtain ⟨line, hline, rfl⟩ := List.mem_map.mp (htouches.rows row hrow)
    have hnew := hmatches.new line hline
    have htext : lineText t.cells line.row = lineText (setCellValue p.cells line.row 0 value) line.row := by
      simp only [lineText, hcells]
    rcases htouches.lines line hline hother with hold | hnil
    · rw [h.new line hold, htext] at hnew
      exact lineText_ne hin hvalue hnew.symm
    · rw [hnil] at hnew
      exact lineText_ne_nil _ _ hnew.symm
  · have hempty : p.cells row 0 = [] := by
      by_contra hne
      exact hrow (h.recorded row hne)
    have hfilled : t.cells row 0 ≠ [] := by
      rw [hcells, setCellValue_same hin]
      exact hempty ▸ hvalue
    rcases htouches.added row (hmatches.recorded row hfilled) with hold | hsame
    · exact hrow hold
    · exact hother hsame

/-- A column that is cleared empties some line, and its own a second time. -/
theorem not_matches_of_cleared (h : Matches p before) {q u : WherePage} (hclear : q.clearLine = some u)
    (hlines : q.lines = p.lines) (hrow : q.row = p.row) (hrecorded : p.row ∈ p.rows)
    (hchanged : lineText u.cells p.row ≠ lineText p.cells p.row) :
    ¬ Matches u.recordLine (remember p u.recordLine before) := by
  intro hmatches
  obtain ⟨c, line, d, hsplit, hcleared, hrow', -, -⟩ := clearLine_split hclear
  have hrows : u.rows = p.rows := by
    rw [rows, rows, ← hlines, hsplit, hcleared, List.map_append, List.map_append]
    rfl
  have hu : u.row ∈ u.rows := by rwa [hrow', hrow, hrows]
  have hupdate : u.recordLine.lines = updateLine u.row (lineText u.cells u.row) u.lines := if_pos hu
  by_cases hown : line.row = u.row
  · have hdistinct : u.rows.Nodup := hrows ▸ h.single
    rw [rows, hcleared, List.map_append, List.map_cons, List.nodup_middle, List.nodup_cons, List.mem_append, not_or]
      at hdistinct
    have hc : u.row ∉ c.map (·.row) := hown ▸ hdistinct.1.1
    have hown' : (⟨line.row, line.new, []⟩ : WhereLine).row = u.row := hown
    have hline : (⟨line.row, [], lineText u.cells u.row⟩ : WhereLine) ∈ u.recordLine.lines := by
      rw [hupdate, hcleared, updateLine_split hc hown']
      simp
    have hremember : remember p u.recordLine before p.row = lineText p.cells p.row :=
      (remember_changed hchanged).trans (if_pos hrecorded)
    have hold : [] = remember p u.recordLine before line.row := hmatches.old _ hline
    rw [hown, hrow', hrow, hremember] at hold
    exact lineText_ne_nil _ _ hold.symm
  · have hown' : (⟨line.row, line.new, []⟩ : WhereLine).row ≠ u.row := hown
    have hline : (⟨line.row, line.new, []⟩ : WhereLine) ∈ u.recordLine.lines := by
      rw [hupdate, mem_updateLine_other hown', hcleared]
      simp
    exact lineText_ne_nil _ _ (hmatches.new _ hline).symm

theorem matches_announce (q : WherePage) :
    Matches q.announce (remember p q.announce before) ↔ Matches q (remember p q before) := by
  obtain ⟨hlines, hcells⟩ := announce_lines q
  have hremember : remember p q.announce before = remember p q before := by
    funext row
    rw [remember, remember, hcells]
  rw [hremember]
  constructor
  · rintro ⟨hsingle, hrecorded, hnew, hold⟩
    rw [rows, hlines] at hsingle
    simp only [rows, hlines, hcells] at hrecorded hnew hold
    exact ⟨hsingle, hrecorded, hnew, hold⟩
  · rintro ⟨hsingle, hrecorded, hnew, hold⟩
    refine ⟨?_, ?_, ?_, ?_⟩
    · rwa [rows, hlines]
    · simp only [rows, hlines, hcells]
      exact hrecorded
    · simp only [hlines, hcells]
      exact hnew
    · simp only [hlines]
      exact hold

theorem matches_self (h : Matches p before) (hcells : t.cells = p.cells) (hlines : t.lines = p.lines) :
    Matches t (remember p t before) :=
  h.of_same_lines hlines (fun row _ => by rw [hcells]) fun row _ => by rw [hcells]

/-- A change that leaves the lines alone is harmless exactly in a row without a line, outside its column. -/
theorem set_matches_iff (h : Matches p before) {value : Text} (hin : InGrid row col) (hvalue : value ≠ p.cells row col)
    (hlines : t.lines = p.lines) (hcells : t.cells = setCellValue p.cells row col value) (hcol : col ≠ 0) :
    Matches t (remember p t before) ↔ row ∉ p.rows := by
  constructor
  · intro hmatches hrow
    refine not_matches_of_stale h hrow hlines ?_ hmatches
    rw [hcells]
    exact lineText_ne hin hvalue
  · intro hrow
    refine h.of_same_lines hlines (fun other hother => ?_) fun other _ => ?_
    · rw [hcells]
      exact lineText_other fun heq => hrow (heq ▸ hother)
    · rw [hcells]
      exact setCellValue_col hcol.symm

theorem lineText_cleared {cells : ℤ → ℤ → Text} (hin : InGrid row 0) (hcolumn : cells row 0 ≠ []) :
    lineText (setCellValue (setCellValue (setCellValue (setCellValue cells row 0 []) row 1 []) row 2 []) row 3 []) row ≠
      lineText cells row := by
  have hin' (col : ℤ) (hcol : 0 ≤ col ∧ col < 4) : InGrid row col := ⟨hin.1, hcol⟩
  simp (disch := decide) only [lineText, setCellValue_col, setCellValue_same hin, setCellValue_same (hin' 1 (by decide)),
    setCellValue_same (hin' 2 (by decide)), setCellValue_same (hin' 3 (by decide))]
  intro heq
  have hlength := congrArg List.length heq
  have hpos : 0 < (cells row 0).length := List.length_pos_iff.mpr hcolumn
  simp only [List.length_append, List.length_cons, List.length_nil] at hlength
  omega

theorem edit_own_column_iff (h : Matches p before) {value : Text} (hin : InGrid p.row 0) (hvalue : value ≠ p.cells p.row 0) :
    (∃ t, { p with cells := setCellValue p.cells p.row 0 value }.onGridCellChanged 0 = some t ∧
      Matches t (remember p t before)) ↔ value ≠ [] := by
  have hvalue' : setCellValue p.cells p.row 0 value p.row 0 = value := setCellValue_same hin
  constructor
  · rintro ⟨t, ht, hmatches⟩ rfl
    obtain ⟨u, hu, rfl⟩ := onGridCellChanged_column ht
    rw [if_pos hvalue'] at hu
    rw [matches_announce] at hmatches
    obtain ⟨-, -, -, -, -, -, -, hcells⟩ := clearLine_split hu
    refine not_matches_of_cleared h hu rfl rfl (h.recorded p.row hvalue.symm) ?_ hmatches
    rw [hcells]
    exact lineText_cleared hin hvalue.symm
  · intro hne
    have hstep : { p with cells := setCellValue p.cells p.row 0 value }.onGridCellChanged 0 =
        some { p with cells := setCellValue p.cells p.row 0 value }.recordLine.announce := by
      simp [onGridCellChanged, hvalue', hne]
    refine ⟨_, hstep, (matches_announce _).mpr (h.recordLine (fun r hr => ?_) (lineText_ne hin hvalue))⟩
    exact ⟨lineText_other hr, setCellValue_other (Or.inl hr)⟩

theorem edit_decided (h : Matches p before) (row col : ℤ) (value : Text) :
    (∃ t, p.step (.edit row col value) = some t ∧ Matches t (remember p t before)) ↔ p.Meets (.edit row col value) := by
  rw [step, editCell, Meets]
  by_cases hedit : InGrid row col ∧ value ≠ p.cells row col
  · obtain ⟨hin, hvalue⟩ := hedit
    rw [if_pos ⟨hin, hvalue⟩]
    simp only [hin, hvalue, ne_eq, not_false_eq_true, true_implies]
    by_cases hcol : col = 0
    · subst hcol
      simp only [true_and, not_true_eq_false, false_and, or_false]
      by_cases hrow : row = p.row
      · subst hrow
        rw [and_iff_left rfl]
        exact edit_own_column_iff h hin hvalue
      · refine iff_of_false ?_ fun hgood => hrow hgood.2
        rintro ⟨t, ht, hmatches⟩
        exact not_matches_of_other_row h hin hvalue hrow ht hmatches
    · have hstep : { p with cells := setCellValue p.cells row col value }.onGridCellChanged col =
          some { p with cells := setCellValue p.cells row col value }.announce := by
        simp [onGridCellChanged, hcol]
      simp only [hcol, false_and, false_or, not_false_eq_true, true_and, hstep, Option.some.injEq, exists_eq_left']
      rw [matches_announce]
      exact set_matches_iff h hin hvalue rfl rfl hcol
  · rw [if_neg hedit]
    refine iff_of_true ⟨p, rfl, matches_self h rfl rfl⟩ fun hin hvalue => absurd ⟨hin, hvalue⟩ hedit

theorem chosen_decided (h : Matches p before) :
    (∃ t, p.step .chosen = some t ∧ Matches t (remember p t before)) ↔ p.Meets .chosen := by
  rw [step, onCellChosen, Meets]
  simp only [Option.some.injEq, exists_eq_left']
  by_cases hset : InGrid p.row 1 ∧ p.cells p.row 1 = []
  · obtain ⟨hin, hempty⟩ := hset
    simp only [hin, hempty, true_implies, if_true]
    exact set_matches_iff h hin (by rw [hempty]; decide) rfl rfl (by decide)
  · refine iff_of_true ?_ fun hin hempty => absurd ⟨hin, hempty⟩ hset
    split
    · rename_i hempty
      exact matches_self h (setCellValue_outside fun hin => hset ⟨hin, hempty⟩) rfl
    · exact matches_self h rfl rfl

theorem lineText_operator_ne {cells : ℤ → ℤ → Text} {selection : Text} (hin : InGrid row 0) (hempty : cells row 1 = []) :
    lineText (setCellValue (setCellValue cells row 0 selection) row 1 "=".toList) row ≠ lineText cells row := by
  have hin' : InGrid row 1 := ⟨hin.1, by decide⟩
  simp (disch := decide) only [lineText, setCellValue_col, setCellValue_same hin, setCellValue_same hin', hempty]
  intro heq
  have hlength := congrArg List.length heq
  simp only [List.length_append, List.length_cons, List.length_nil] at hlength
  have hsign := congrArg (·[selection.length + 1]?) heq
  have hcolumn : (cells row 0).length = selection.length + 1 := by
    have hone : "=".toList.length = 1 := by decide
    omega
  simp [hcolumn] at hsign

theorem menuSelection_column {selection : Text} (h : Matches p before) (hin : InGrid p.row 0) (hselection : selection ≠ [])
    (hlines : t.lines = p.lines)
    (hcells : t.cells = if setCellValue p.cells p.row 0 selection p.row 1 = [] then
      setCellValue (setCellValue p.cells p.row 0 selection) p.row 1 "=".toList
      else setCellValue p.cells p.row 0 selection) :
    Matches t (remember p t before) ↔ selection = p.cells p.row 0 ∧ p.cells p.row 1 ≠ [] := by
  have hother : setCellValue p.cells p.row 0 selection p.row 1 = p.cells p.row 1 := setCellValue_col (by decide)
  rw [hother] at hcells
  have hcolumn : t.cells p.row 0 = selection := by
    rw [hcells]
    split
    · exact (setCellValue_col (by decide)).trans (setCellValue_same hin)
    · exact setCellValue_same hin
  constructor
  · intro hmatches
    have hrow : p.row ∈ p.rows := by
      have hrecorded := hmatches.recorded p.row (by rwa [hcolumn])
      rwa [rows, hlines] at hrecorded
    by_contra hnot
    refine not_matches_of_stale h hrow hlines ?_ hmatches
    rw [hcells]
    split
    · rename_i hempty
      exact lineText_operator_ne hin hempty
    · rename_i hfilled
      exact lineText_ne hin fun hsame => hnot ⟨hsame, hfilled⟩
  · rintro ⟨hsame, hfilled⟩
    rw [if_neg hfilled, setCellValue_self hsame] at hcells
    exact matches_self h hcells hlines

theorem menuSelection_decided (h : Matches p before) (selection : Text) :
    (∃ t, p.step (.menuSelection selection) = some t ∧ Matches t (remember p t before)) ↔
      p.Meets (.menuSelection selection) := by
  rw [step, onMenuSelection, Meets]
  simp only [Option.some.injEq, exists_eq_left']
  by_cases hset : InGrid p.row p.col ∧ selection ≠ []
  · obtain ⟨hin, hselection⟩ := hset
    simp only [hin, hselection, ne_eq, not_false_eq_true, if_true, true_implies]
    by_cases hcol : p.col = 0
    · rw [hcol] at hin ⊢
      simp only [true_and, true_implies, not_true_eq_false, false_and, or_false]
      exact menuSelection_column h hin hselection rfl rfl
    · simp only [hcol, false_and, if_false, false_implies, and_true, not_false_eq_true, true_and]
      by_cases hsame : selection = p.cells p.row p.col
      · refine iff_of_true (matches_self h ?_ rfl) (Or.inl hsame)
        exact setCellValue_self hsame
      · rw [or_iff_right hsame]
        exact set_matches_iff h hin hsame rfl rfl hcol
  · refine iff_of_true ?_ fun hin hselection => absurd ⟨hin, hselection⟩ hset
    by_cases hselection : selection = []
    · rw [if_neg (not_not.mpr hselection)]
      exact matches_self h rfl rfl
    · have hout : ¬ InGrid p.row p.col := fun hin => hset ⟨hin, hselection⟩
      rw [if_pos hselection, setCellValue_outside hout]
      refine matches_self h ?_ rfl
      dsimp only
      split
      · rename_i hoperator
        apply setCellValue_outside
        rintro ⟨hrow, -⟩
        exact hout ⟨hrow, by rw [hoperator.1]; decide⟩
      · rfl

theorem stepBoth_decided (s : WherePage × (ℤ → Text)) (e : WhereEvent) (h : Matches s.1 s.2) :
    (∃ t, stepBoth s e = some t ∧ Matches t.1 t.2) ↔ Meets s.1 e := by
  have hboth : (∃ t, stepBoth s e = some t ∧ Matches t.1 t.2) ↔
      ∃ t, s.1.step e = some t ∧ Matches t (remember s.1 t s.2) := by
    constructor
    · rintro ⟨t, ht, hmatches⟩
      obtain ⟨u, hu, rfl⟩ := Option.map_eq_some_iff.mp ht
      exact ⟨u, hu, hmatches⟩
    · rintro ⟨t, ht, hmatches⟩
      exact ⟨_, congrArg (Option.map _) ht, hmatches⟩
  rw [hboth]
  cases e with
  | click row col => exact iff_of_true ⟨_, rfl, matches_self h rfl rfl⟩ trivial
  | editorCreated row col =>
    refine iff_of_true ⟨_, rfl, matches_self h ?_ ?_⟩ trivial <;> (rw [onEditorCreated]; split <;> rfl)
  | edit row col value => exact edit_decided h row col value
  | chosen => exact chosen_decided h
  | menuSelection selection => exact menuSelection_decided h selection

end Events

/-- The page as it opens; nothing sets the row and the column before the first click. -/
def opened (row col : ℤ) : WherePage := { cells := fun _ _ => [], row, col }

theorem matches_opened (row col : ℤ) : Matches (opened row col) fun _ => [] :=
  ⟨List.nodup_nil, fun _ hne => absurd rfl hne, by simp [opened], by simp [opened]⟩

end WherePage

end DbHandler.QueryBuilder
