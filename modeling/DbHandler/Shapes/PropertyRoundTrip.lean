import DbHandler.Shapes.PropertyIO

namespace DbHandler.Shapes

open Foundation Foundation.Scanning PropertyIO

namespace PropertyIO

theorem longFromString_ofInt {n : ℤ} (h : FitsLong n) : longFromString (ofInt n) = n := by
  rw [longFromString, whole_ofInt, Option.filter_some, if_pos (by simpa using h), Option.getD_some]

theorem FitsInt.toLong {n : ℤ} (h : FitsInt n) : FitsLong n := by
  obtain ⟨hlow, hhigh⟩ := h
  constructor <;> omega

theorem toInt_of_fits {n : ℤ} (h : FitsInt n) : toInt n = n := Int.bmod_eq_of_le h.1 h.2

theorem intFromString_ofInt {n : ℤ} (h : FitsInt n) : intFromString (ofInt n) = n := by
  rw [intFromString, longFromString_ofInt h.toLong, toInt_of_fits h]

theorem boolFromString_boolToString (b : Bool) : boolFromString (boolToString b) = b := by
  rw [boolFromString, boolToString, longFromString_ofInt (by cases b <;> decide)]
  cases b <;> rfl

theorem pointFromString_pairToString (x y : ℤ) : pointFromString (pairToString x y) = (x, y) := by
  have hscan := scanAll_intercalate ',' rfl [x, y]
  rw [pointFromString, pairToString]
  rw [List.length_cons, List.length_singleton, List.map_cons, List.map_singleton] at hscan
  rw [hscan]
  rfl

theorem channel_of_lt {n : ℕ} (h : n < 256) : channel n = n := by
  rw [channel]
  omega

end PropertyIO

structure Colour.Fits (c : Colour) : Prop where
  red : c.red < 256
  green : c.green < 256
  blue : c.blue < 256
  alpha : c.alpha < 256

instance (c : Colour) : Decidable c.Fits :=
  decidable_of_iff (c.red < 256 ∧ c.green < 256 ∧ c.blue < 256 ∧ c.alpha < 256)
    ⟨fun h => ⟨h.1, h.2.1, h.2.2.1, h.2.2.2⟩, fun h => ⟨h.red, h.green, h.blue, h.alpha⟩⟩

namespace PropertyIO

theorem colourFromString_colourToString {c : Colour} (h : c.Fits) : colourFromString (colourToString c) = c := by
  have hscan : scanAll ',' 4 (colourToString c) = [(c.red : ℤ), c.green, c.blue, c.alpha] :=
    scanAll_intercalate ',' rfl [(c.red : ℤ), c.green, c.blue, c.alpha]
  rw [colourFromString, hscan]
  simp [channel_of_lt, h.red, h.green, h.blue, h.alpha]

theorem space_not_mem_colourToString (c : Colour) : ' ' ∉ colourToString c := by
  have hnot (n : ℤ) : ' ' ∉ ofInt n := not_mem_ofInt rfl (by decide) n
  rw [colourToString]
  simp [List.intercalate_cons_cons, hnot]

theorem colourToString_ne_nil (c : Colour) : colourToString c ≠ [] := by
  rw [colourToString, List.intercalate_cons_cons]
  simp [ofInt_ne_nil]

/-- The tokens of a colour followed by numbers. -/
theorem tokens_colour (c : Colour) (ns : List ℤ) :
    tokens ' ' ([' '].intercalate (colourToString c :: ns.map ofInt)) = colourToString c :: ns.map ofInt := by
  apply tokens_intercalate
  · intro part hpart
    rcases List.mem_cons.mp hpart with rfl | hpart
    · exact space_not_mem_colourToString c
    · obtain ⟨n, -, rfl⟩ := List.mem_map.mp hpart
      exact not_mem_ofInt rfl (by decide) n
  · intro part hpart
    rcases List.mem_cons.mp hpart with rfl | hpart
    · exact colourToString_ne_nil c
    · obtain ⟨n, -, rfl⟩ := List.mem_map.mp hpart
      exact ofInt_ne_nil n
  · exact List.cons_ne_nil _ _

theorem items_itemNodes (ts : List Text) : items (Property.itemNodes ts) = ts := by
  induction ts with
  | nil => rfl
  | cons t ts ih =>
    rw [items] at ih
    rw [items, Property.itemNodes, Forest.roots_node, List.filter_cons_of_pos (by simp), List.map_cons, ih]

end PropertyIO

namespace Value

/-- The numbers are values of their C types. -/
def Fits : Value → Prop
  | .long n => FitsLong n
  | .int n => FitsInt n
  | .colour c => c.Fits
  | .pen c width style => c.Fits ∧ FitsInt width ∧ FitsInt style
  | .brush c style => c.Fits ∧ FitsInt style
  | .arrayint ns => ∀ n ∈ ns, FitsInt n
  | .arraylong ns => ∀ n ∈ ns, FitsLong n
  | _ => True

instance (v : Value) : Decidable v.Fits := by
  cases v <;> unfold Fits <;> infer_instance

theorem read_congr {v w : Value} (h : w.dataType = v.dataType) (content : Text) (below : Forest Element) :
    w.read content below = v.read content below := by
  cases v <;> cases w <;> first | rfl | cases h

/-- A text that is written for a value is read as that value. -/
theorem read_text {v w : Value} (h : w.dataType = v.dataType) (hfits : v.Fits) {t : Text} (ht : v.toString = .inl t)
    (below : Forest Element) : w.read t below = v := by
  rw [read_congr h]
  cases v with
  | string s =>
    obtain rfl := Sum.inl.inj ht
    rfl
  | long n =>
    obtain rfl := Sum.inl.inj ht
    exact congrArg Value.long (longFromString_ofInt hfits)
  | int n =>
    obtain rfl := Sum.inl.inj ht
    exact congrArg Value.int (intFromString_ofInt hfits)
  | bool b =>
    obtain rfl := Sum.inl.inj ht
    exact congrArg Value.bool (boolFromString_boolToString b)
  | point x y =>
    obtain rfl := Sum.inl.inj ht
    rw [read, pointFromString_pairToString]
  | size x y =>
    obtain rfl := Sum.inl.inj ht
    rw [read, pointFromString_pairToString]
  | colour c =>
    obtain rfl := Sum.inl.inj ht
    exact congrArg Value.colour (colourFromString_colourToString hfits)
  | pen c width style =>
    obtain rfl := Sum.inl.inj ht
    obtain ⟨hc, hwidth, hstyle⟩ := hfits
    have htokens := tokens_colour c [width, style]
    simp only [List.map_cons, List.map_nil] at htokens
    simp only [read, token, penToString, htokens, List.getD_cons_zero, List.getD_cons_succ]
    rw [colourFromString_colourToString hc, longFromString_ofInt hwidth.toLong, longFromString_ofInt hstyle.toLong,
      toInt_of_fits hwidth, toInt_of_fits hstyle]
  | brush c style =>
    obtain rfl := Sum.inl.inj ht
    obtain ⟨hc, hstyle⟩ := hfits
    have htokens := tokens_colour c [style]
    simp only [List.map_cons, List.map_nil] at htokens
    simp only [read, token, brushToString, htokens, List.getD_cons_zero, List.getD_cons_succ]
    rw [colourFromString_colourToString hc, longFromString_ofInt hstyle.toLong, toInt_of_fits hstyle]
  | arraystring ts => cases ht
  | arrayint ns => cases ht
  | arraylong ns => cases ht

theorem map_ofInt_read {f : Text → ℤ} {ns : List ℤ} (h : ∀ n ∈ ns, f (ofInt n) = n) : (ns.map ofInt).map f = ns := by
  rw [List.map_map]
  calc ns.map (f ∘ ofInt) = ns.map id := List.map_congr_left h
    _ = ns := List.map_id ns

/-- The items that are written for an array are read as that array. -/
theorem read_items {v w : Value} (h : w.dataType = v.dataType) (hfits : v.Fits) {ts : List Text}
    (hts : v.toString = .inr ts) (content : Text) : w.read content (Property.itemNodes ts) = v := by
  rw [read_congr h]
  cases v with
  | arraystring us =>
    obtain rfl := Sum.inr.inj hts
    exact congrArg Value.arraystring (items_itemNodes us)
  | arrayint ns =>
    obtain rfl := Sum.inr.inj hts
    rw [read, items_itemNodes, map_ofInt_read fun n hn => intFromString_ofInt (hfits n hn)]
  | arraylong ns =>
    obtain rfl := Sum.inr.inj hts
    rw [read, items_itemNodes, map_ofInt_read fun n hn => longFromString_ofInt (hfits n hn)]
  | _ => cases hts

end Value

/-- What makes a property show up in the document. -/
def Property.written (p : Property) : Bool :=
  p.serialize && match p.value.toString with
    | .inl val => decide (val ≠ p.defaultValueStr)
    | .inr texts => decide (texts ≠ [])

namespace Serializable

variable {p : Property} {properties fresh : List Property}

theorem serialize_cons (properties : List Property) (h : p.written = true) : ∃ content below,
    serialize (p :: properties) = .node (p.element content) below (serialize properties) ∧
      ∀ w : Value, w.dataType = p.value.dataType → p.value.Fits → w.read content below = p.value := by
  rw [Property.written, Bool.and_eq_true] at h
  obtain ⟨hserialize, hwritten⟩ := h
  rw [serialize, if_pos hserialize, Property.write]
  cases htext : p.value.toString with
  | inl val =>
    have hval : val ≠ p.defaultValueStr := by simpa [htext] using hwritten
    exact ⟨val, .nil, by simp [hval, Forest.single, Forest.append], fun w hw hfits => Value.read_text hw hfits htext _⟩
  | inr texts =>
    have htexts : texts ≠ [] := by simpa [htext] using hwritten
    exact ⟨[], Property.itemNodes texts, by simp [htexts, Forest.single, Forest.append],
      fun w hw hfits => Value.read_items hw hfits htext _⟩

theorem serialize_skip (h : p.written = false) : serialize (p :: properties) = serialize properties := by
  rw [serialize]
  split
  · rename_i hserialize
    have hnil : p.write = .nil := by
      rw [Property.written, hserialize, Bool.true_and] at h
      rw [Property.write]
      cases htext : p.value.toString with
      | inl val =>
        have hdefault : val = p.defaultValueStr := by simpa [htext] using h
        simp [hdefault]
      | inr texts =>
        have hempty : texts = [] := by simpa [htext] using h
        simp [hempty]
    rw [hnil]
    rfl
  · rfl

theorem readProperty_eq (hdistinct : (fresh.map (·.fieldName)).Nodup) (name content : Text) (below : Forest Element) :
    readProperty name content below fresh =
      fresh.map fun q => if q.fieldName = name then q.read content below else q := by
  induction fresh with
  | nil => rfl
  | cons q fresh ih =>
    obtain ⟨hout, hrest⟩ := List.nodup_cons.mp hdistinct
    rw [readProperty, List.map_cons]
    split
    · rename_i hname
      have hothers : (fresh.map fun q => if q.fieldName = name then q.read content below else q) = fresh.map id := by
        apply List.map_congr_left
        intro r hr
        exact if_neg fun hsame => hout (List.mem_map.mpr ⟨r, hr, hsame.trans hname.symm⟩)
      rw [hothers, List.map_id]
    · rw [ih hrest]

/-- What a property of a new object becomes when the properties of the saved one are read into it. -/
def restored (saved : List Property) (q : Property) : Property :=
  ((saved.filter Property.written).find? fun p => p.fieldName = q.fieldName).elim q fun p => { q with value := p.value }

theorem restored_name (saved : List Property) (q : Property) : (restored saved q).fieldName = q.fieldName := by
  rw [restored]
  cases (saved.filter Property.written).find? fun p => p.fieldName = q.fieldName <;> rfl

theorem restored_of_not_mem {saved : List Property} {q : Property} (h : q.fieldName ∉ saved.map (·.fieldName)) :
    restored saved q = q := by
  have hnone : (saved.filter Property.written).find? (fun p => p.fieldName = q.fieldName) = none := by
    apply List.find?_eq_none.mpr
    intro p hp
    simp only [decide_eq_true_eq]
    exact fun hsame => h (List.mem_map.mpr ⟨p, (List.mem_filter.mp hp).1, hsame⟩)
  rw [restored, hnone, Option.elim_none]

theorem restored_created {saved : List Property} (hsaved : (saved.map (·.fieldName)).Nodup) (hp : p ∈ saved)
    (value : Value) : restored saved { p with value := value } = if p.written then p else { p with value := value } := by
  have honly : ∀ r ∈ saved, r.fieldName = p.fieldName → r = p :=
    fun r hr hname => List.inj_on_of_nodup_map hsaved hr hp hname
  rw [restored]
  cases hfind : (saved.filter Property.written).find? fun r => r.fieldName = p.fieldName with
  | none =>
    rw [if_neg, Option.elim_none]
    intro hwritten
    have hnot := List.find?_eq_none.mp hfind p (List.mem_filter.mpr ⟨hp, hwritten⟩)
    simp at hnot
  | some r =>
    obtain ⟨hr, hwritten⟩ := List.mem_filter.mp (List.mem_of_find?_eq_some hfind)
    obtain rfl := honly r hr (by simpa using List.find?_some hfind)
    rw [if_pos hwritten, Option.elim_some]

/-- Reading what is written for distinct properties, into any object that has them with the same data types. -/
theorem deserialize_serialize {saved : List Property} (hsaved : (saved.map (·.fieldName)).Nodup)
    (hfits : ∀ p ∈ saved, p.value.Fits) (hcreated : (fresh.map (·.fieldName)).Nodup)
    (htypes : ∀ p ∈ saved, ∀ q ∈ fresh, q.fieldName = p.fieldName → q.value.dataType = p.value.dataType)
    (propName : Text) : deserialize (serialize saved) propName fresh = fresh.map (restored saved) := by
  induction saved generalizing fresh propName with
  | nil => exact (List.map_id'' (fun _ => rfl) fresh).symm
  | cons p saved ih =>
    obtain ⟨hout, hrest⟩ := List.nodup_cons.mp hsaved
    simp only [List.mem_cons, forall_eq_or_imp] at hfits htypes
    cases hwritten : p.written with
    | false =>
      rw [serialize_skip hwritten, ih hrest hfits.2 hcreated htypes.2]
      apply List.map_congr_left
      intro q _
      rw [restored, restored, List.filter_cons_of_neg (by simp [hwritten])]
    | true =>
      obtain ⟨content, below, hserialize, hread⟩ := serialize_cons saved hwritten
      have hreads : (fresh.map fun q => if q.fieldName = p.fieldName then q.read content below else q) =
          fresh.map fun q => if q.fieldName = p.fieldName then { q with value := p.value } else q := by
        apply List.map_congr_left
        intro q hq
        split
        · rename_i hname
          rw [Property.read, hread q.value (htypes.1 q hq hname) hfits.1]
        · rfl
      have hnames : ((fresh.map fun q => if q.fieldName = p.fieldName then { q with value := p.value } else q).map
          (·.fieldName)) = fresh.map (·.fieldName) := by
        rw [List.map_map]
        apply List.map_congr_left
        intro q _
        simp only [Function.comp_apply]
        split <;> rfl
      rw [hserialize]
      show deserialize (serialize saved) p.fieldName (readProperty p.fieldName content below fresh) = _
      rw [readProperty_eq hcreated, hreads, ih hrest hfits.2 (hnames ▸ hcreated), List.map_map]
      · apply List.map_congr_left
        intro q _
        simp only [Function.comp_apply]
        split
        · rename_i hname
          rw [restored_of_not_mem (by rwa [hname]), restored, List.filter_cons_of_pos hwritten,
            List.find?_cons_of_pos (by simp [hname])]
          rfl
        · rename_i hname
          rw [restored, restored, List.filter_cons_of_pos hwritten,
            List.find?_cons_of_neg (by simpa using fun hsame => hname hsame.symm)]
      · intro r hr q' hq' hsame
        obtain ⟨q, hq, rfl⟩ := List.mem_map.mp hq'
        by_cases hname : q.fieldName = p.fieldName
        · rw [if_pos hname] at hsame
          exact absurd (List.mem_map.mpr ⟨r, hr, hsame.symm.trans hname⟩) hout
        · rw [if_neg hname] at hsame ⊢
          exact htypes.2 r hr q hq hsame

theorem marked_nodup (declared : List Property) : ((marked declared).map (·.fieldName)).Nodup := by
  have hkeep (declared : List Property) : ∀ properties : List Property, (properties.map (·.fieldName)).Nodup →
      ((declared.foldl addProperty properties).map (·.fieldName)).Nodup := by
    induction declared with
    | nil => exact fun _ h => h
    | cons p declared ih =>
      intro properties h
      apply ih
      rw [addProperty]
      split
      · exact h
      · rename_i hout
        rw [List.map_append, List.map_singleton, List.nodup_append]
        refine ⟨h, List.nodup_singleton _, ?_⟩
        rintro a ha b hb rfl
        exact hout (List.mem_singleton.mp hb ▸ ha)
  exact hkeep declared [] List.nodup_nil

/-- A new object of the same class: each property has the value that the constructor gives it. -/
def created (blank : Text → Value) (saved : List Property) : List Property :=
  saved.map fun p => { p with value := blank p.fieldName }

/-- An object is read back as it was saved if and only if every property that is not written, being at its default
or an empty array, has the value that a new object has. -/
theorem read_back_iff (declared : List Property) (blank : Text → Value)
    (htypes : ∀ p ∈ marked declared, (blank p.fieldName).dataType = p.value.dataType)
    (hfits : ∀ p ∈ marked declared, p.value.Fits) :
    deserialize (serialize (marked declared)) [] (created blank (marked declared)) = marked declared ↔
      ∀ p ∈ marked declared, p.written = true ∨ p.value = blank p.fieldName := by
  have hnames : ((created blank (marked declared)).map (·.fieldName)).Nodup := by
    rw [created, List.map_map]
    exact marked_nodup declared
  have hsame : ∀ p ∈ marked declared, ∀ q ∈ created blank (marked declared), q.fieldName = p.fieldName →
      q.value.dataType = p.value.dataType := by
    intro p hp q hq hname
    obtain ⟨r, hr, rfl⟩ := List.mem_map.mp hq
    obtain rfl := List.inj_on_of_nodup_map (marked_nodup declared) hr hp hname
    exact htypes r hr
  rw [deserialize_serialize (marked_nodup declared) hfits hnames hsame, created, List.map_map]
  have hrestored (p : Property) (hp : p ∈ marked declared) :
      restored (marked declared) { p with value := blank p.fieldName } =
        if p.written then p else { p with value := blank p.fieldName } :=
    restored_created (marked_nodup declared) hp _
  constructor
  · intro h p hp
    have hback := (List.map_inj_left.mp (h.trans (List.map_id _).symm)) p hp
    rw [Function.comp_apply, hrestored p hp] at hback
    split at hback
    · exact .inl ‹_›
    · exact .inr (congrArg Property.value hback).symm
  · intro h
    refine Eq.trans ?_ (List.map_id _)
    apply List.map_congr_left
    intro p hp
    rw [Function.comp_apply, hrestored p hp]
    split
    · rfl
    · rename_i hskipped
      rw [← (h p hp).resolve_left hskipped]
      rfl

/-- A label with its id, its colour and an empty text, for which a new label says something. -/
def someDeclared : List Property :=
  [{ fieldName := "id".toList, value := .long (-1) }, { fieldName := "text".toList, value := .string [] },
    { fieldName := "color".toList, value := .colour ⟨0, 0, 255, 255⟩, defaultValueStr := "0,0,0,255".toList },
    { fieldName := "id".toList, value := .long 3 }]

def someBlank (name : Text) : Value :=
  if name = "id".toList then .long (-1)
  else if name = "text".toList then .string "Text".toList
  else .colour ⟨0, 0, 0, 255⟩

theorem read_back_iff_someDeclared :
    deserialize (serialize (marked someDeclared)) [] (created someBlank (marked someDeclared)) = marked someDeclared ↔
      ∀ p ∈ marked someDeclared, p.written = true ∨ p.value = someBlank p.fieldName :=
  read_back_iff someDeclared someBlank (by decide) (by decide)

end Serializable

end DbHandler.Shapes
