import DbHandler.FieldProperties.Commands
import DbHandler.TableProperties.Loading

namespace DbHandler.PropertyPages

/-- A `wxFont` with what it keeps of its constructor; its weight is bold or normal. -/
structure WxFont where
  pointSize : ℤ
  italic : Bool
  bold : Bool
  underlined : Bool
  strikethrough : Bool
  faceName : Text
  deriving DecidableEq, Repr

def WxFont.numericWeight (f : WxFont) : ℤ := if f.bold then 700 else 400

/-- The font of a page, made of its settings: every weight but 0 is bold. -/
def fontOf (f : LoadedFont) : WxFont where
  pointSize := f.font.size
  italic := f.font.italic
  bold := f.font.weight ≠ 0
  underlined := f.font.underline
  strikethrough := f.font.strikethrough
  faceName := f.font.name

section Handlers

variable (encoding : WxFont → ℤ)

/-- The settings that are read from the font of a page, over the pixel size they had. -/
def storeFont (w : WxFont) (old : LoadedFont) : LoadedFont where
  characterSet := encoding w
  font := {
    size := w.pointSize
    weight := w.numericWeight
    italic := w.italic
    underline := w.underlined
    strikethrough := w.strikethrough
    encoding := encoding w
    pixelSize := old.font.pixelSize
    name := w.faceName }

structure TablePages where
  comment : Text
  dataFont : WxFont
  headingFont : WxFont
  labelFont : WxFont
  deriving DecidableEq, Repr

/-- `SetTableProperties` of a database: its result and its command, from the table's properties, the new ones, whether
only the command is wanted, and the command before. -/
abbrev TableCall := LoadedProperties → LoadedProperties → Bool → Text → ℤ × Text

/-- `DatabasePropertiesHandler`: the properties of the table, its own copy, the command, and the log it appends to. -/
structure TableHandler where
  table : LoadedProperties
  prop : LoadedProperties
  command : Text
  log : Text

def TableHandler.open (table : LoadedProperties) : TableHandler := ⟨table, table, [], []⟩

def editProperties (p : LoadedProperties) : TablePages where
  comment := p.comment
  dataFont := fontOf p.data
  headingFont := fontOf p.heading
  labelFont := fontOf p.label

def readPages (pages : TablePages) (p : LoadedProperties) : LoadedProperties where
  comment := pages.comment
  data := storeFont encoding pages.dataFont p.data
  heading := storeFont encoding pages.headingFont p.heading
  label := storeFont encoding pages.labelFont p.label

def getProperties (call : TableCall) (pages : TablePages) (isLogOnly : Bool) (h : TableHandler) : ℤ × TableHandler :=
  let prop := readPages encoding pages h.prop
  let answer := call h.table prop isLogOnly h.command
  (answer.1, {
    table := if answer.1 = 0 ∧ ¬ isLogOnly then prop else h.table
    prop := prop
    command := answer.2
    log := if isLogOnly then h.log ++ answer.2 else h.log })

/-- The pages are opened on a table and accepted as they are. -/
def openAndAccept (table : LoadedProperties) (accepted : TableCall × Bool) : LoadedProperties :=
  let h := TableHandler.open table
  (getProperties encoding accepted.1 (editProperties h.prop) accepted.2 h).2.table

structure FieldPages where
  comment : Text
  label : Text
  heading : Text
  labelAlignment : ℤ
  headerAlignment : ℤ

abbrev FieldCall := FieldProperties → Bool → Text → ℤ × Text

/-- `FieldPropertiesHandler` -/
structure FieldHandler where
  field : FieldProperties
  prop : FieldProperties
  command : Text
  log : Text

/-- The result of the call is that of the block, and 0 is returned. -/
def getFieldProperties (call : FieldCall) (pages : FieldPages) (isLogOnly : Bool) (h : FieldHandler) : ℤ × FieldHandler :=
  let prop : FieldProperties :=
    ⟨pages.comment, pages.label, pages.heading, pages.labelAlignment, pages.headerAlignment⟩
  let answer := call prop isLogOnly h.command
  (0, {
    field := if answer.1 = 0 ∧ ¬ isLogOnly then prop else h.field
    prop := prop
    command := answer.2
    log := if isLogOnly then h.log ++ answer.2 else h.log })

/-- The pages show what was stored as they showed what was there before, after one acceptance and after any number. -/
structure Stable (p : LoadedProperties) : Prop where
  stored : editProperties (readPages encoding (editProperties p) p) = editProperties p
  cycles : ∀ cycles : List (TableCall × Bool), editProperties (cycles.foldl (openAndAccept encoding) p) = editProperties p

/-- A call by a handler: what it was asked and answered, and what the handler holds and returns afterwards. -/
structure Reports {π : Type} (result : ℤ) (isLogOnly : Bool) (old new stored : π) (returned : ℤ) : Prop where
  stored : stored = if result = 0 ∧ ¬ isLogOnly then new else old
  returned : returned ≠ 0 ↔ result ≠ 0

def TableReports (call : TableCall) (pages : TablePages) (isLogOnly : Bool) (h : TableHandler) : Prop :=
  let after := getProperties encoding call pages isLogOnly h
  Reports (call h.table after.2.prop isLogOnly h.command).1 isLogOnly h.table after.2.prop after.2.table after.1

def FieldReports (call : FieldCall) (pages : FieldPages) (isLogOnly : Bool) (h : FieldHandler) : Prop :=
  let after := getFieldProperties call pages isLogOnly h
  Reports (call after.2.prop isLogOnly h.command).1 isLogOnly h.field after.2.prop after.2.field after.1

def Bold (p : LoadedProperties) : Prop := p.data.font.weight ≠ 0 ∧ p.heading.font.weight ≠ 0 ∧ p.label.font.weight ≠ 0

end Handlers

section Fonts

variable {encoding : WxFont → ℤ}

theorem numericWeight_ne_zero (w : WxFont) : w.numericWeight ≠ 0 := by
  unfold WxFont.numericWeight
  split <;> omega

/-- A font comes back bold, whatever it was. -/
theorem fontOf_storeFont (w : WxFont) (old : LoadedFont) :
    fontOf (storeFont encoding w old) = ⟨w.pointSize, w.italic, true, w.underlined, w.strikethrough, w.faceName⟩ := by
  have hweight : (storeFont encoding w old).font.weight ≠ 0 := numericWeight_ne_zero w
  rw [fontOf, decide_eq_true hweight]
  rfl

theorem fontOf_stable_iff (f : LoadedFont) : fontOf (storeFont encoding (fontOf f) f) = fontOf f ↔ f.font.weight ≠ 0 := by
  rw [fontOf_storeFont]
  by_cases hweight : f.font.weight = 0 <;> simp [fontOf, hweight]

theorem stored_iff (p : LoadedProperties) :
    editProperties (readPages encoding (editProperties p) p) = editProperties p ↔ Bold p := by
  have hdata : fontOf (storeFont encoding (fontOf p.data) p.data) = fontOf p.data ↔ _ := fontOf_stable_iff p.data
  have hheading : fontOf (storeFont encoding (fontOf p.heading) p.heading) = fontOf p.heading ↔ _ :=
    fontOf_stable_iff p.heading
  have hlabel : fontOf (storeFont encoding (fontOf p.label) p.label) = fontOf p.label ↔ _ := fontOf_stable_iff p.label
  rw [Bold, ← hdata, ← hheading, ← hlabel]
  constructor
  · intro h
    injection h with hcomment hdata hheading hlabel
    exact ⟨hdata, hheading, hlabel⟩
  · rintro ⟨hdata, hheading, hlabel⟩
    simp only [editProperties, readPages, hdata, hheading, hlabel]

theorem openAndAccept_table (p : LoadedProperties) (accepted : TableCall × Bool) :
    openAndAccept encoding p accepted = p ∨ openAndAccept encoding p accepted = readPages encoding (editProperties p) p := by
  by_cases hdone : (accepted.1 p (readPages encoding (editProperties p) p) accepted.2 []).1 = 0 ∧ ¬ accepted.2
  · exact Or.inr (if_pos hdone)
  · exact Or.inl (if_neg hdone)

theorem bold_stored (pages : TablePages) (p : LoadedProperties) : Bold (readPages encoding pages p) :=
  ⟨numericWeight_ne_zero _, numericWeight_ne_zero _, numericWeight_ne_zero _⟩

theorem cycles_stable {p : LoadedProperties} (h : Bold p) (cycles : List (TableCall × Bool)) :
    editProperties (cycles.foldl (openAndAccept encoding) p) = editProperties p := by
  induction cycles generalizing p with
  | nil => rfl
  | cons accepted cycles ih =>
    rw [List.foldl_cons]
    rcases openAndAccept_table p accepted with hkept | hstored
    · rw [hkept]
      exact ih h
    · rw [hstored]
      exact (ih (bold_stored _ p)).trans ((stored_iff p).mpr h)

variable (encoding) in
theorem stable_iff (p : LoadedProperties) : Stable encoding p ↔ Bold p := by
  constructor
  · intro h
    exact (stored_iff p).mp h.stored
  · intro h
    exact ⟨(stored_iff p).mpr h, cycles_stable h⟩

variable (encoding) in
theorem tableReports (call : TableCall) (pages : TablePages) (isLogOnly : Bool) (h : TableHandler) :
    TableReports encoding call pages isLogOnly h := ⟨rfl, Iff.rfl⟩

theorem fieldReports_iff (call : FieldCall) (pages : FieldPages) (isLogOnly : Bool) (h : FieldHandler) :
    FieldReports call pages isLogOnly h ↔
      (call (getFieldProperties call pages isLogOnly h).2.prop isLogOnly h.command).1 = 0 := by
  constructor
  · intro hreports
    by_contra hfailed
    exact hreports.returned.mpr hfailed rfl
  · intro hdone
    exact ⟨rfl, iff_of_false (fun h => h rfl) fun h => h hdone⟩

end Fonts

theorem accepting_changes_nothing_iff (encoding : WxFont → ℤ) (p : LoadedProperties) (tableCall : TableCall)
    (tablePages : TablePages) (tableLogOnly : Bool) (tableHandler : TableHandler) (fieldCall : FieldCall)
    (fieldPages : FieldPages) (fieldLogOnly : Bool) (fieldHandler : FieldHandler) :
    (Stable encoding p ∧ TableReports encoding tableCall tablePages tableLogOnly tableHandler ∧
      FieldReports fieldCall fieldPages fieldLogOnly fieldHandler) ↔
    Bold p ∧ (fieldCall ⟨fieldPages.comment, fieldPages.label, fieldPages.heading, fieldPages.labelAlignment,
      fieldPages.headerAlignment⟩ fieldLogOnly fieldHandler.command).1 = 0 := by
  have hfield : FieldReports fieldCall fieldPages fieldLogOnly fieldHandler ↔ _ :=
    fieldReports_iff fieldCall fieldPages fieldLogOnly fieldHandler
  have htable := tableReports encoding tableCall tablePages tableLogOnly tableHandler
  rw [stable_iff, hfield]
  constructor
  · rintro ⟨hbold, -, hdone⟩
    exact ⟨hbold, hdone⟩
  · rintro ⟨hbold, hdone⟩
    exact ⟨hbold, htable, hdone⟩

def plainFont (weight : ℤ) : LoadedFont where
  characterSet := -1
  font := ⟨8, weight, false, false, false, 0, 0, "MS Sans Serif".toList⟩

/-- The properties that a table is made with: the data font is not bold, the others are. -/
def madeProperties : LoadedProperties := ⟨[], plainFont 0, plainFont 1, plainFont 1⟩

def noFieldProperties : FieldProperties := ⟨[], [], [], 0, 0⟩

theorem data_font_turns_bold :
    ¬ Stable (fun _ => 0) madeProperties ∧
      ¬ FieldReports (fun _ _ command => (1, command)) ⟨[], [], [], 0, 0⟩ false ⟨noFieldProperties, noFieldProperties, [], []⟩ := by
  constructor
  · intro h
    have hfont := congrArg (fun pages => pages.dataFont.bold) h.stored
    exact absurd hfont (by decide)
  · intro h
    exact h.returned.mpr (by decide) rfl

end DbHandler.PropertyPages
