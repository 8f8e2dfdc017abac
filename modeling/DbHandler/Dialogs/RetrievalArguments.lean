import Mathlib.Data.List.Nodup
import Mathlib.Data.List.Flatten
import Mathlib.Tactic.Common
import DbHandler.Foundation.Decimal
import DbHandler.Foundation.Runs
import DbHandler.Interface

namespace DbHandler.Dialogs

open Foundation Foundation.Runs

/-! A window is a number that no other window of the dialog has. -/

structure StaticBitmap where
  window : ℕ
  isShown : Bool
  deriving DecidableEq, Repr

structure StaticText where
  window : ℕ
  label : Text
  deriving DecidableEq, Repr

structure TextCtrl where
  window : ℕ
  value : Text
  deriving DecidableEq, Repr

structure TypeComboBox where
  window : ℕ
  type : Text
  deriving DecidableEq, Repr

structure QueryLines where
  pointer : StaticBitmap
  number : StaticText
  name : TextCtrl
  type : TypeComboBox
  deriving DecidableEq, Repr

structure QueryArguments where
  pos : ℤ
  name : Text
  type : Text
  deriving DecidableEq, Repr

/-- The windows of the dialog that its lines and their sizer hold; `fresh` is the next one created. -/
structure RetrievalArguments where
  lines : List QueryLines
  fgs : List ℕ
  currentLine : ℤ
  fresh : ℕ
  deriving DecidableEq, Repr

/-- `Format( "%d", n )`. -/
def printed : ℤ → Text
  | .ofNat n => Nat.toDigits 10 n
  | .negSucc n => '-' :: Nat.toDigits 10 (n + 1)

/-- A text without a number gives 0. -/
def wxAtoi (t : Text) : ℤ := (Decimal.signed (t.dropWhile Decimal.isSpace)).getD 0

namespace QueryLines

def controls (line : QueryLines) : List ℕ :=
  [line.pointer.window, line.number.window, line.name.window, line.type.window]

def showPointer (visible : Bool) (line : QueryLines) : QueryLines :=
  { line with pointer := { line.pointer with isShown := visible } }

def setLabel (label : Text) (line : QueryLines) : QueryLines :=
  { line with number := { line.number with label := label } }

end QueryLines

inductive Key
  | up
  | down
  | other
  deriving DecidableEq, Repr

/-- What the casts of `OnKillFocus` tell apart. -/
inductive WindowClass
  | textCtrl
  | button
  | panel
  | other
  deriving DecidableEq, Repr

inductive DialogEvent
  | add
  | insert
  | remove
  | keyDown (key : Key)
  | setFocus (object : Option ℕ)
  | killFocus (object window : WindowClass)
  deriving DecidableEq, Repr

def dummies : List ℕ := [0, 1, 2, 3]

def findLineNumberFrom (win : ℕ) : ℤ → List QueryLines → ℤ
  | _, [] => -1
  | lineNumber, line :: lines =>
    if line.name.window = win ∨ line.type.window = win then lineNumber + 1
    else findLineNumberFrom win (lineNumber + 1) lines

def renumber : ℤ → List QueryLines → List QueryLines
  | _, [] => []
  | n, line :: lines => line.setLabel (printed n) :: renumber (n + 1) lines

def renumberFrom (index : ℕ) (n : ℤ) (lines : List QueryLines) : List QueryLines :=
  lines.take index ++ renumber n (lines.drop index)

namespace RetrievalArguments

variable (r : RetrievalArguments)

def findLineNumberFromControl : Option ℕ → ℤ
  | none => -1
  | some win => findLineNumberFrom win 0 r.lines

def setIndicatorLine (activeLine : ℤ) : RetrievalArguments :=
  { r with
    lines := r.lines.mapIdx fun lineNumber line => line.showPointer (activeLine - 1 = lineNumber)
    currentLine := activeLine }

def onSetFocus (object : Option ℕ) : RetrievalArguments :=
  let focusLine := r.findLineNumberFromControl object
  if 1 ≤ focusLine ∧ focusLine ≤ r.lines.length then r.setIndicatorLine focusLine else r

/-- `m_lines[index].m_name->SetFocus()`. -/
def focusName (index : ℕ) : RetrievalArguments :=
  match r.lines[index]? with
  | some line => r.onSetFocus (some line.name.window)
  | none => r

def setActiveLine (line : ℤ) : RetrievalArguments :=
  let index := line - 1
  if index < 0 ∨ index ≥ r.lines.length then r else r.focusName index.toNat

def newLine (label name type : Text) : QueryLines :=
  ⟨⟨r.fresh, true⟩, ⟨r.fresh + 1, label⟩, ⟨r.fresh + 2, name⟩, ⟨r.fresh + 3, type⟩⟩

def appendLine (label name type : Text) : RetrievalArguments :=
  let line := r.newLine label name type
  ({ r with lines := r.lines ++ [line], fgs := r.fgs ++ line.controls, fresh := r.fresh + 4 } :
    RetrievalArguments).onSetFocus (some line.name.window)

def onAddArgument : RetrievalArguments := r.appendLine (printed (r.lines.length + 1)) [] []

/-- The current line is dereferenced: there has to be one. -/
def onInsertArgument : Option RetrievalArguments :=
  if 1 ≤ r.currentLine then
    let index := (r.currentLine - 1).toNat
    r.lines[index]?.map fun it =>
      let pos := (r.currentLine * 4).toNat
      let position := wxAtoi it.number.label
      let line := r.newLine (printed r.currentLine) [] []
      let inserted : RetrievalArguments := { r with
        lines := r.lines.take index ++ line :: r.lines.drop index
        fgs := (((r.fgs.insertIdx pos line.pointer.window).insertIdx (pos + 1) line.number.window).insertIdx (pos + 2)
          line.name.window).insertIdx (pos + 3) line.type.window
        fresh := r.fresh + 4 }
      let focused := inserted.onSetFocus (some line.name.window)
      { focused with lines := renumberFrom (index + 1) (position + 1) focused.lines }
  else none

def onRemoveArgument : Option RetrievalArguments :=
  if 1 ≤ r.currentLine then
    let index := (r.currentLine - 1).toNat
    r.lines[index]?.map fun it =>
      let removed : RetrievalArguments := { r with
        lines := r.lines.eraseIdx index
        fgs := r.fgs.diff [it.pointer.window, it.name.window, it.number.window, it.type.window] }
      let relabelled : RetrievalArguments :=
        if removed.lines = [] then removed
        else if index = removed.lines.length then { removed with
          lines := renumberFrom (index - 1) (r.currentLine - 1) removed.lines
          currentLine := r.currentLine - 1 }
        else { removed with lines := renumberFrom index r.currentLine removed.lines }
      relabelled.setActiveLine relabelled.currentLine
  else none

def onKeyDown : Key → RetrievalArguments
  | .up => r.setActiveLine (r.currentLine - 1)
  | .down => r.setActiveLine (r.currentLine + 1)
  | .other => r

/-- The button that gets the focus from a text control has no handler for it. -/
def onKillFocus (object window : WindowClass) : RetrievalArguments :=
  if object = .button ∧ window = .panel ∧ r.lines ≠ [] then r.focusName 0 else r

def step : RetrievalArguments → DialogEvent → Option RetrievalArguments
  | r, .add => some r.onAddArgument
  | r, .insert => r.onInsertArgument
  | r, .remove => r.onRemoveArgument
  | r, .keyDown key => some (r.onKeyDown key)
  | r, .setFocus object => some (r.onSetFocus object)
  | r, .killFocus object window => some (r.onKillFocus object window)

/-- The constructor. -/
def opened (arguments : List QueryArguments) : RetrievalArguments :=
  arguments.foldl (fun r argument => r.appendLine (printed argument.pos) argument.name argument.type) ⟨[], dummies, 0, 4⟩

end RetrievalArguments

section Numbers

theorem natural_printed (n : ℕ) : wxAtoi (printed n) = n := by
  obtain ⟨c, t, hct⟩ := List.exists_cons_of_ne_nil (Nat.toDigits_ne_nil (b := 10) (n := n))
  have hc : c.isDigit = true :=
    Nat.isDigit_of_mem_toDigits (b := 10) (n := n) (by omega) (by omega) (by rw [hct]; exact List.mem_cons_self)
  have hdrop : (Nat.toDigits 10 n).dropWhile Decimal.isSpace = Nat.toDigits 10 n := by
    rw [hct, List.dropWhile_cons_of_neg (by simp [Decimal.isSpace_of_isDigit hc])]
  change (Decimal.signed ((Nat.toDigits 10 n).dropWhile Decimal.isSpace)).getD 0 = n
  rw [hdrop, hct, Decimal.signed_of_isDigit t hc, ← hct, Decimal.natural_toDigits]
  rfl

/-- The labels of `length` lines of which the first has the number `n`. -/
def numbers (n : ℤ) (length : ℕ) : List Text := (List.range length).map fun i : ℕ => printed (n + i)

theorem numbers_succ (n : ℤ) (length : ℕ) : numbers n (length + 1) = printed n :: numbers (n + 1) length := by
  rw [numbers, numbers, List.range_succ_eq_map, List.map_cons, List.map_map]
  refine congrArg₂ List.cons (by simp) (List.map_congr_left fun i _ => ?_)
  have hnumber : n + (i.succ : ℕ) = n + 1 + i := by omega
  exact congrArg printed hnumber

theorem numbers_add (n : ℤ) (a b : ℕ) : numbers n (a + b) = numbers n a ++ numbers (n + a) b := by
  rw [numbers, numbers, numbers, List.range_add, List.map_append, List.map_map]
  apply congrArg
  apply List.map_congr_left
  intro i _
  have hnumber : n + (a + i : ℕ) = n + a + i := by omega
  exact congrArg printed hnumber

theorem renumber_map {α : Type*} (f : QueryLines → α) (hf : ∀ label line, f (line.setLabel label) = f line) (n : ℤ)
    (lines : List QueryLines) : (renumber n lines).map f = lines.map f := by
  induction lines generalizing n with
  | nil => rfl
  | cons line lines ih => rw [renumber, List.map_cons, List.map_cons, ih, hf]

theorem renumberFrom_map {α : Type*} (f : QueryLines → α) (hf : ∀ label line, f (line.setLabel label) = f line)
    (index : ℕ) (n : ℤ) (lines : List QueryLines) : (renumberFrom index n lines).map f = lines.map f := by
  rw [renumberFrom, List.map_append, renumber_map f hf, ← List.map_append, List.take_append_drop]

theorem renumberFrom_length (index : ℕ) (n : ℤ) (lines : List QueryLines) :
    (renumberFrom index n lines).length = lines.length := by
  simpa using congrArg List.length (renumberFrom_map (fun line => line.name) (fun _ _ => rfl) index n lines)

theorem renumber_label (n : ℤ) (lines : List QueryLines) :
    (renumber n lines).map (·.number.label) = numbers n lines.length := by
  induction lines generalizing n with
  | nil => rfl
  | cons line lines ih =>
    rw [renumber, List.map_cons, List.length_cons, numbers_succ, ih]
    rfl

/-- The lines before `index` have their numbers; those from there on get theirs. -/
theorem renumberFrom_label {index : ℕ} {lines : List QueryLines} (hindex : index ≤ lines.length)
    (h : (lines.take index).map (·.number.label) = numbers 1 index) :
    (renumberFrom index (index + 1) lines).map (·.number.label) = numbers 1 lines.length := by
  have hnumber : (index : ℤ) + 1 = 1 + index := by omega
  rw [renumberFrom, List.map_append, h, renumber_label, List.length_drop, hnumber, ← numbers_add]
  congr 1
  omega

end Numbers

namespace RetrievalArguments

/-- Which of `length` pointers is shown when the line `currentLine` is the current one. -/
def indicators (currentLine : ℤ) (length : ℕ) : List Bool :=
  (List.range length).map fun i : ℕ => decide ((i : ℤ) + 1 = currentLine)

/-- The lines are numbered from 1, they are the rows of the sizer, and the pointer marks the current one. -/
structure Marked (r : RetrievalArguments) : Prop where
  labels : r.lines.map (·.number.label) = numbers 1 r.lines.length
  rows : r.fgs = dummies ++ (r.lines.map QueryLines.controls).flatten
  current : r.lines ≠ [] → 1 ≤ r.currentLine ∧ r.currentLine ≤ r.lines.length ∧
    r.lines.map (·.pointer.isShown) = indicators r.currentLine r.lines.length

/-- Every row of the sizer is a line, and the next window is a new one. -/
structure Seated (r : RetrievalArguments) : Prop where
  rows : r.fgs = dummies ++ (r.lines.map QueryLines.controls).flatten
  apart : r.fgs.Nodup
  older : ∀ win ∈ r.fgs, win < r.fresh

def Kept (r : RetrievalArguments) : Prop := Seated r ∧ Marked r

variable {r : RetrievalArguments}

section Focus

theorem setIndicatorLine_map {α : Type*} (f : QueryLines → α) (hf : ∀ visible line, f (line.showPointer visible) = f line)
    (activeLine : ℤ) : (r.setIndicatorLine activeLine).lines.map f = r.lines.map f := by
  apply List.ext_getElem?
  intro i
  simp only [setIndicatorLine, List.getElem?_map, List.getElem?_mapIdx, Option.map_map]
  apply congrArg (Option.map · _)
  funext line
  exact hf _ line

@[simp] theorem setIndicatorLine_length (activeLine : ℤ) :
    (r.setIndicatorLine activeLine).lines.length = r.lines.length := by
  simp [setIndicatorLine]

theorem setIndicatorLine_isShown (activeLine : ℤ) :
    (r.setIndicatorLine activeLine).lines.map (·.pointer.isShown) = indicators activeLine r.lines.length := by
  apply List.ext_getElem?
  intro i
  by_cases hi : i < r.lines.length
  · simp only [setIndicatorLine, indicators, List.getElem?_map, List.getElem?_mapIdx, List.getElem?_range hi,
      List.getElem?_eq_getElem hi, Option.map_some, QueryLines.showPointer, Option.some.injEq, decide_eq_decide]
    omega
  · rw [List.getElem?_eq_none (by simpa using hi), List.getElem?_eq_none (by simpa [indicators] using hi)]

theorem Seated.setIndicatorLine (h : Seated r) (activeLine : ℤ) : Seated (r.setIndicatorLine activeLine) where
  rows := by
    rw [setIndicatorLine_map _ (fun _ _ => rfl)]
    exact h.rows
  apart := h.apart
  older := h.older

theorem Seated.kept (h : Seated r) (hlabels : r.lines.map (·.number.label) = numbers 1 r.lines.length)
    {activeLine : ℤ} (hfirst : 1 ≤ activeLine) (hlast : activeLine ≤ r.lines.length) :
    Kept (r.setIndicatorLine activeLine) := by
  have hseated := h.setIndicatorLine activeLine
  refine ⟨hseated, ?_, hseated.rows, fun _ => ⟨hfirst, ?_, ?_⟩⟩
  · rw [setIndicatorLine_map _ (fun _ _ => rfl), setIndicatorLine_length]
    exact hlabels
  · rw [setIndicatorLine_length]
    exact hlast
  · rw [setIndicatorLine_isShown, setIndicatorLine_length]
    rfl

theorem findLineNumberFrom_append (lineNumber : ℤ) (above : List QueryLines) (line : QueryLines)
    (below : List QueryLines)
    (h : ∀ other ∈ above, other.name.window ≠ line.name.window ∧ other.type.window ≠ line.name.window) :
    findLineNumberFrom line.name.window lineNumber (above ++ line :: below) = lineNumber + above.length + 1 := by
  induction above generalizing lineNumber with
  | nil => simp [findLineNumberFrom]
  | cons other above ih =>
    obtain ⟨hother, habove⟩ := List.forall_mem_cons.mp h
    rw [List.cons_append, findLineNumberFrom, if_neg (by tauto), ih (lineNumber + 1) habove, List.length_cons]
    push_cast
    omega

theorem Seated.onSetFocus_name (h : Seated r) {above below : List QueryLines} {line : QueryLines}
    (hlines : r.lines = above ++ line :: below) :
    r.onSetFocus (some line.name.window) = r.setIndicatorLine (above.length + 1) := by
  have hrows := h.apart
  rw [h.rows, hlines, List.map_append, List.map_cons, List.flatten_append, List.flatten_cons] at hrows
  have hapart := (List.nodup_append.mp (List.nodup_append.mp hrows).2.1).2.2
  have hfind : r.findLineNumberFromControl (some line.name.window) = above.length + 1 := by
    rw [findLineNumberFromControl, hlines, findLineNumberFrom_append]
    · omega
    · intro other hother
      have hmem (win : ℕ) (hwin : win ∈ other.controls) : win ≠ line.name.window := by
        apply hapart win (List.mem_flatten.mpr ⟨_, List.mem_map_of_mem hother, hwin⟩)
        exact List.mem_append_left _ (by simp [QueryLines.controls])
      exact ⟨hmem _ (by simp [QueryLines.controls]), hmem _ (by simp [QueryLines.controls])⟩
  have hlength : r.lines.length = above.length + (below.length + 1) := by simp [hlines]
  rw [onSetFocus, hfind, if_pos (by omega)]

theorem Seated.kept_setActiveLine (h : Seated r) (hlabels : r.lines.map (·.number.label) = numbers 1 r.lines.length)
    (hfirst : 1 ≤ r.currentLine) (hlast : r.currentLine ≤ r.lines.length) : Kept (r.setActiveLine r.currentLine) := by
  have hindex : (r.currentLine - 1).toNat < r.lines.length := by omega
  have hlines : r.lines = r.lines.take (r.currentLine - 1).toNat ++ r.lines[(r.currentLine - 1).toNat] ::
      r.lines.drop ((r.currentLine - 1).toNat + 1) := by
    rw [List.getElem_cons_drop, List.take_append_drop]
  have hline : ((r.currentLine - 1).toNat : ℤ) + 1 = r.currentLine := by omega
  rw [setActiveLine, if_neg (by omega), focusName, List.getElem?_eq_getElem hindex]
  change Kept (r.onSetFocus (some r.lines[(r.currentLine - 1).toNat].name.window))
  rw [h.onSetFocus_name hlines, List.length_take, Nat.min_eq_left (Nat.le_of_lt hindex), hline]
  exact h.kept hlabels hfirst hlast

theorem Kept.onSetFocus (h : Kept r) (object : Option ℕ) : Kept (r.onSetFocus object) := by
  rw [RetrievalArguments.onSetFocus]
  split_ifs with hline
  · exact h.1.kept h.2.labels hline.1 hline.2
  · exact h

theorem Kept.focusName (h : Kept r) (index : ℕ) : Kept (r.focusName index) := by
  rw [RetrievalArguments.focusName]
  split
  · exact h.onSetFocus _
  · exact h

theorem Kept.setActiveLine (h : Kept r) (line : ℤ) : Kept (r.setActiveLine line) := by
  rw [RetrievalArguments.setActiveLine]
  split_ifs
  · exact h
  · exact h.focusName _

end Focus

section Rows

theorem Seated.renumberFrom (h : Seated r) (index : ℕ) (n currentLine : ℤ) :
    Seated ⟨renumberFrom index n r.lines, r.fgs, currentLine, r.fresh⟩ where
  rows := by
    change r.fgs = dummies ++ ((Dialogs.renumberFrom index n r.lines).map QueryLines.controls).flatten
    rw [renumberFrom_map _ (fun _ _ => rfl)]
    exact h.rows
  apart := h.apart
  older := h.older

/-- A new line takes its place between two rows. -/
theorem Seated.insert (h : Seated r) {above below : List QueryLines} (hlines : r.lines = above ++ below)
    (label name type : Text) :
    Seated ⟨above ++ r.newLine label name type :: below,
      dummies ++ (above.map QueryLines.controls).flatten ++ (r.newLine label name type).controls ++
        (below.map QueryLines.controls).flatten, r.currentLine, r.fresh + 4⟩ := by
  have hperm : (dummies ++ (above.map QueryLines.controls).flatten ++ (r.newLine label name type).controls ++
      (below.map QueryLines.controls).flatten).Perm (r.fgs ++ (r.newLine label name type).controls) := by
    rw [h.rows, hlines, List.map_append, List.flatten_append, List.append_assoc, List.append_assoc, List.append_assoc,
      List.append_assoc]
    exact (List.perm_append_comm.append_left _).append_left _
  constructor
  · simp
  · apply hperm.nodup_iff.mpr
    refine List.nodup_append.mpr ⟨h.apart, by simp [QueryLines.controls, newLine], ?_⟩
    intro win hwin other hother
    have := h.older win hwin
    simp only [QueryLines.controls, newLine, List.mem_cons, List.not_mem_nil, or_false] at hother
    omega
  · intro win hwin
    change win < r.fresh + 4
    rcases List.mem_append.mp (hperm.mem_iff.mp hwin) with hwin | hwin
    · have := h.older win hwin
      omega
    · simp only [QueryLines.controls, newLine, List.mem_cons, List.not_mem_nil, or_false] at hwin
      omega

theorem Seated.remove (h : Seated r) {above below : List QueryLines} {it : QueryLines}
    (hlines : r.lines = above ++ it :: below) (currentLine : ℤ) :
    Seated ⟨above ++ below, r.fgs.diff [it.pointer.window, it.name.window, it.number.window, it.type.window],
      currentLine, r.fresh⟩ := by
  have hrows := h.rows
  have hnodup := h.apart
  rw [hlines, List.map_append, List.map_cons, List.flatten_append, List.flatten_cons, ← List.append_assoc,
    ← List.append_assoc] at hrows
  have hdiff : r.fgs.diff [it.pointer.window, it.name.window, it.number.window, it.type.window] =
      r.fgs.filter (· ∉ it.controls) := by
    rw [hnodup.sdiff_eq_filter]
    apply List.filter_congr
    intro win _
    simp only [QueryLines.controls, List.mem_cons, List.not_mem_nil, or_false, decide_eq_decide]
    tauto
  rw [hrows] at hnodup
  obtain ⟨hupper, hlower, hboth⟩ := List.nodup_append.mp hnodup
  obtain ⟨-, -, hcontrols⟩ := List.nodup_append.mp hupper
  have hfgs : r.fgs.filter (· ∉ it.controls) =
      dummies ++ (above.map QueryLines.controls).flatten ++ (below.map QueryLines.controls).flatten := by
    rw [hrows, List.filter_append, List.filter_append]
    congr 1
    · rw [List.filter_eq_self.mpr, List.filter_eq_nil_iff.mpr, List.append_nil]
      · simp
      · intro win hwin
        simpa using fun hmem => hcontrols win hwin win hmem rfl
    · apply List.filter_eq_self.mpr
      intro win hwin
      simpa using fun hmem => hboth win (List.mem_append_right _ hmem) win hwin rfl
  constructor
  · rw [hdiff, hfgs, List.map_append, List.flatten_append, List.append_assoc]
  · rw [hdiff]
    exact h.apart.filter _
  · rw [hdiff]
    intro win hwin
    exact h.older win (List.mem_of_mem_filter hwin)

end Rows

section Handlers

theorem kept_appendLine (h : Seated r) (hlabels : r.lines.map (·.number.label) = numbers 1 r.lines.length)
    (name type : Text) : Kept (r.appendLine (printed (r.lines.length + 1)) name type) := by
  have hfgs : r.fgs ++ (r.newLine (printed (r.lines.length + 1)) name type).controls =
      dummies ++ (r.lines.map QueryLines.controls).flatten ++
        (r.newLine (printed (r.lines.length + 1)) name type).controls ++ [] := by
    rw [List.append_nil, ← h.rows]
  have hseated := h.insert (List.append_nil r.lines).symm (printed (r.lines.length + 1)) name type
  rw [List.map_nil, List.flatten_nil, ← hfgs] at hseated
  rw [appendLine, hseated.onSetFocus_name rfl]
  apply hseated.kept
  · have hnumber : (r.lines.length : ℤ) + 1 = 1 + r.lines.length := by omega
    rw [List.map_append, hlabels, List.length_append, numbers_add, List.length_singleton, numbers_succ, ← hnumber]
    rfl
  · omega
  · simp

theorem appendLine_length (label name type : Text) :
    (r.appendLine label name type).lines.length = r.lines.length + 1 := by
  rw [appendLine, onSetFocus]
  split_ifs <;> simp

theorem insertIdx_row (upper lower : List ℕ) (line : QueryLines) :
    ((((upper ++ lower).insertIdx upper.length line.pointer.window).insertIdx (upper.length + 1)
      line.number.window).insertIdx (upper.length + 2) line.name.window).insertIdx (upper.length + 3)
      line.type.window = upper ++ line.controls ++ lower := by
  induction upper with
  | nil => rfl
  | cons win upper ih => exact congrArg (win :: ·) ih

theorem controls_flatten_length (lines : List QueryLines) :
    (lines.map QueryLines.controls).flatten.length = 4 * lines.length := by
  induction lines with
  | nil => rfl
  | cons line lines ih =>
    rw [List.map_cons, List.flatten_cons, List.length_append, ih, List.length_cons]
    change 4 + 4 * lines.length = _
    omega

/-- The current line with the lines above and below it. -/
theorem Kept.current_line (h : Kept r) (hlines : r.lines ≠ []) :
    ∃ above it below, r.lines = above ++ it :: below ∧ r.currentLine = above.length + 1 ∧
      (r.currentLine - 1).toNat = above.length := by
  obtain ⟨hfirst, hlast, -⟩ := h.2.current hlines
  have hindex : (r.currentLine - 1).toNat < r.lines.length := by omega
  refine ⟨r.lines.take (r.currentLine - 1).toNat, r.lines[(r.currentLine - 1).toNat],
    r.lines.drop ((r.currentLine - 1).toNat + 1), ?_, ?_, ?_⟩
  · rw [List.getElem_cons_drop, List.take_append_drop]
  · rw [List.length_take]
    omega
  · rw [List.length_take]
    omega

theorem labels_above {above below : List QueryLines}
    (hlabels : (above ++ below).map (·.number.label) = numbers 1 (above ++ below).length) :
    above.map (·.number.label) = numbers 1 above.length ∧
      below.map (·.number.label) = numbers (1 + above.length) below.length := by
  rw [List.map_append, List.length_append, numbers_add] at hlabels
  apply List.append_inj hlabels
  simp [numbers]

/-- The lines below the new one are numbered again. -/
theorem kept_of_inserted {above below : List QueryLines} {fgs : List ℕ} {currentLine : ℤ} {fresh : ℕ}
    {line : QueryLines} (h : Seated ⟨above ++ line :: below, fgs, currentLine, fresh⟩)
    (habove : above.map (·.number.label) = numbers 1 above.length)
    (hline : line.number.label = printed (above.length + 1)) :
    let focused := RetrievalArguments.setIndicatorLine ⟨above ++ line :: below, fgs, currentLine, fresh⟩ (above.length + 1)
    Kept { focused with lines := renumberFrom (above.length + 1) (above.length + 1 + 1) focused.lines } := by
  intro focused
  have hseated : Seated focused := h.setIndicatorLine _
  have hlength : focused.lines.length = above.length + (below.length + 1) := by
    rw [setIndicatorLine_length]
    simp
  have hlabels : (focused.lines.take (above.length + 1)).map (·.number.label) = numbers 1 (above.length + 1) := by
    rw [List.map_take, setIndicatorLine_map _ (fun _ _ => rfl), ← List.map_take, List.take_append,
      List.take_of_length_le (Nat.le_succ _), Nat.add_sub_cancel_left, List.take_succ_cons, List.take_zero,
      List.map_append, habove, numbers_add, List.map_singleton, hline, numbers_succ, Int.add_comm]
    rfl
  have hindex : above.length + 1 ≤ focused.lines.length := by omega
  have hnumbered := renumberFrom_label hindex hlabels
  have hrenumbered := hseated.renumberFrom (above.length + 1) (above.length + 1 + 1) focused.currentLine
  refine ⟨hrenumbered, ?_, hrenumbered.rows, fun _ => ⟨?_, ?_, ?_⟩⟩
  · rw [renumberFrom_length]
    exact hnumbered
  · change (1 : ℤ) ≤ above.length + 1
    omega
  · rw [renumberFrom_length, hlength]
    change (above.length : ℤ) + 1 ≤ _
    omega
  · rw [renumberFrom_map _ (fun _ _ => rfl), renumberFrom_length]
    rw [setIndicatorLine_isShown, setIndicatorLine_length]
    rfl

theorem Kept.onInsertArgument (h : Kept r) (hlines : r.lines ≠ []) : ∃ t, r.onInsertArgument = some t ∧ Kept t := by
  obtain ⟨above, it, below, hsplit, hcurrent, hindex⟩ := h.current_line hlines
  have hit : r.lines[above.length]? = some it := by simp [hsplit]
  have hlabels := h.2.labels
  rw [hsplit] at hlabels
  obtain ⟨habove, hbelow⟩ := labels_above hlabels
  rw [List.map_cons, List.length_cons, numbers_succ] at hbelow
  have hposition : wxAtoi it.number.label = above.length + 1 := by
    rw [(List.cons.inj hbelow).1, Int.add_comm]
    exact natural_printed (above.length + 1)
  have hpos : (r.currentLine * 4).toNat = (dummies ++ (above.map QueryLines.controls).flatten).length := by
    rw [List.length_append, controls_flatten_length]
    change _ = 4 + 4 * above.length
    omega
  have hfgs : r.fgs = dummies ++ (above.map QueryLines.controls).flatten ++
      ((it :: below).map QueryLines.controls).flatten := by
    rw [h.1.rows, hsplit, List.map_append, List.flatten_append, List.append_assoc]
  have hseated := h.1.insert hsplit (printed r.currentLine) [] []
  have hfocus := hseated.onSetFocus_name rfl
  refine ⟨_, ?_, kept_of_inserted hseated habove (congrArg printed hcurrent)⟩
  rw [RetrievalArguments.onInsertArgument, if_pos (by omega)]
  dsimp only
  rw [hindex, hit, Option.map_some, hposition, hpos, hfgs, insertIdx_row, hsplit, List.take_left, List.drop_left, hfocus]

theorem labels_take {lines : List QueryLines} (h : lines.map (·.number.label) = numbers 1 lines.length) {k : ℕ}
    (hk : k ≤ lines.length) : (lines.take k).map (·.number.label) = numbers 1 k := by
  rw [← List.take_append_drop k lines] at h
  rw [(labels_above h).1, List.length_take, Nat.min_eq_left hk]

theorem Kept.onRemoveArgument (h : Kept r) (hlines : r.lines ≠ []) : ∃ t, r.onRemoveArgument = some t ∧ Kept t := by
  obtain ⟨above, it, below, hsplit, hcurrent, hindex⟩ := h.current_line hlines
  have hit : r.lines[above.length]? = some it := by simp [hsplit]
  have herase : r.lines.eraseIdx above.length = above ++ below := by
    rw [hsplit, List.eraseIdx_append_of_length_le (Nat.le_refl _), Nat.sub_self]
    rfl
  have hlabels := h.2.labels
  rw [hsplit] at hlabels
  obtain ⟨habove, -⟩ := labels_above hlabels
  rw [RetrievalArguments.onRemoveArgument, if_pos (by omega)]
  dsimp only
  rw [hindex, hit, Option.map_some]
  refine ⟨_, rfl, ?_⟩
  rw [herase]
  split_ifs with hnone hlast
  · have hseated := h.1.remove hsplit r.currentLine
    rw [RetrievalArguments.setActiveLine, if_pos]
    · refine ⟨hseated, ?_, hseated.rows, fun hsome => absurd hnone hsome⟩
      change (above ++ below).map _ = numbers 1 (above ++ below).length
      rw [hnone]
      rfl
    · right
      change (above ++ below).length ≤ r.currentLine - 1
      rw [hnone, hcurrent]
      simp
  · -- the last line went: the one above it becomes current
    obtain rfl : below = [] := by simpa using hlast
    have hpositive : 0 < above.length := List.length_pos_of_ne_nil (by simpa using hnone)
    have hnumber : r.currentLine - 1 = ((above.length - 1 : ℕ) : ℤ) + 1 := by omega
    have hseated := h.1.remove hsplit (r.currentLine - 1)
    rw [List.append_nil] at hseated ⊢
    have hrenumbered := hseated.renumberFrom (above.length - 1) (r.currentLine - 1) (r.currentLine - 1)
    have hlength := renumberFrom_length (above.length - 1) (r.currentLine - 1) above
    have hlast : r.currentLine - 1 ≤ (renumberFrom (above.length - 1) (r.currentLine - 1) above).length := by omega
    refine hrenumbered.kept_setActiveLine ?_ (by change (1 : ℤ) ≤ r.currentLine - 1; omega) hlast
    change (renumberFrom (above.length - 1) (r.currentLine - 1) above).map _ = _
    rw [hlength, hnumber]
    exact renumberFrom_label (Nat.sub_le _ _) (labels_take habove (Nat.sub_le _ _))
  · have hbelow : 0 < below.length := by
      simp only [List.length_append] at hlast
      omega
    have hseated := h.1.remove hsplit r.currentLine
    have hrenumbered := hseated.renumberFrom above.length r.currentLine r.currentLine
    have hlength := renumberFrom_length above.length r.currentLine (above ++ below)
    have hsum : (above ++ below).length = above.length + below.length := List.length_append
    have hlast : r.currentLine ≤ (renumberFrom above.length r.currentLine (above ++ below)).length := by omega
    refine hrenumbered.kept_setActiveLine ?_ (by change (1 : ℤ) ≤ r.currentLine; omega) hlast
    change (renumberFrom above.length r.currentLine (above ++ below)).map _ = _
    rw [hlength, hcurrent]
    exact renumberFrom_label (by omega) (by rw [List.take_left]; exact habove)

theorem Kept.onKeyDown (h : Kept r) (key : Key) : Kept (r.onKeyDown key) := by
  cases key with
  | up => exact h.setActiveLine _
  | down => exact h.setActiveLine _
  | other => exact h

theorem Kept.onKillFocus (h : Kept r) (object window : WindowClass) : Kept (r.onKillFocus object window) := by
  rw [RetrievalArguments.onKillFocus]
  split_ifs
  · exact h.focusName _
  · exact h

end Handlers

/-- The buttons for inserting and deleting are enabled while there is a line. -/
def Enabled (r : RetrievalArguments) (e : DialogEvent) : Prop := e = .insert ∨ e = .remove → r.lines ≠ []

theorem kept_step (h : Kept r) {e : DialogEvent} (hallowed : Enabled r e) : ∃ t, step r e = some t ∧ Kept t := by
  cases e with
  | add => exact ⟨_, rfl, kept_appendLine h.1 h.2.labels [] []⟩
  | insert => exact h.onInsertArgument (hallowed (.inl rfl))
  | remove => exact h.onRemoveArgument (hallowed (.inr rfl))
  | keyDown key => exact ⟨_, rfl, h.onKeyDown key⟩
  | setFocus object => exact ⟨_, rfl, h.onSetFocus object⟩
  | killFocus object window => exact ⟨_, rfl, h.onKillFocus object window⟩

/-- The arguments have the positions 1 to n, in order. -/
def InOrder (arguments : List QueryArguments) : Prop :=
  arguments.map QueryArguments.pos = (List.range arguments.length).map fun i : ℕ => (i : ℤ) + 1

theorem kept_foldl (arguments : List QueryArguments) {r : RetrievalArguments} (h : Kept r)
    (hpos : ∀ i (hi : i < arguments.length), arguments[i].pos = r.lines.length + i + 1) :
    Kept (arguments.foldl (fun r argument => r.appendLine (printed argument.pos) argument.name argument.type) r) := by
  induction arguments generalizing r with
  | nil => exact h
  | cons argument arguments ih =>
    have hfirst : argument.pos = r.lines.length + 1 := (hpos 0 (by simp)).trans (by simp)
    rw [List.foldl_cons, hfirst]
    apply ih (kept_appendLine h.1 h.2.labels _ _)
    intro i hi
    have hnext := hpos (i + 1) (by simpa using hi)
    rw [appendLine_length]
    rw [List.getElem_cons_succ] at hnext
    push_cast at hnext ⊢
    omega

theorem kept_opened {arguments : List QueryArguments} (h : InOrder arguments) : Kept (opened arguments) := by
  apply kept_foldl
  · refine ⟨⟨rfl, by decide, by decide⟩, rfl, rfl, fun hlines => absurd rfl hlines⟩
  · intro i hi
    have hpos := congrArg (fun positions => positions[i]?) h
    simp only [List.getElem?_map, List.getElem?_eq_getElem hi, List.getElem?_range hi, Option.map_some,
      Option.some.injEq] at hpos
    rw [hpos]
    simp

/-- Whatever the user does in the dialog, its lines stay numbered and its current line marked. -/
theorem marked_throughout {arguments : List QueryArguments} (harguments : InOrder arguments)
    {events : List DialogEvent} (hevents : Before step Enabled (opened arguments) events) :
    (∃ t, run step (opened arguments) events = some t) ∧ Throughout step Marked (opened arguments) events := by
  have hkept := run_of_before (P := Kept) (Q := fun _ _ _ => True) (C := Enabled)
    (fun r e h hallowed => by
      obtain ⟨t, ht, hkept⟩ := kept_step h hallowed
      exact ⟨t, ht, hkept, trivial⟩)
    (kept_opened harguments) events hevents
  exact ⟨hkept.1, fun pre hpre t ht => (hkept.2.1 pre hpre t ht).2⟩

theorem marked_throughout_insert_remove :
    let arguments : List QueryArguments := [⟨1, "from".toList, "date".toList⟩, ⟨2, "until".toList, "date".toList⟩]
    let events : List DialogEvent := [.keyDown .up, .insert, .remove, .add]
    (∃ t, run step (opened arguments) events = some t) ∧ Throughout step Marked (opened arguments) events := by
  apply marked_throughout
  · rfl
  · refine (before_cons ..).mpr ⟨by simp [Enabled], fun t ht => ?_⟩
    obtain rfl := Option.some.inj ht
    refine (before_cons ..).mpr ⟨fun _ => by decide, fun t ht => ?_⟩
    obtain rfl := Option.some.inj ht
    refine (before_cons ..).mpr ⟨fun _ => by decide, fun t ht => ?_⟩
    obtain rfl := Option.some.inj ht
    exact (before_cons ..).mpr ⟨by simp [Enabled], fun t ht => before_nil _ _⟩

end RetrievalArguments

end DbHandler.Dialogs
