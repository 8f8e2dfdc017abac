import Mathlib.Data.List.Lemmas
import DbHandler.Foundation.Runs
import DbHandler.QueryBuilder.Pages

namespace DbHandler.QueryBuilder

open Foundation.Runs
open scoped List

def texts (items : List Item) : List Text := items.map (·.text)

structure Kept (names all selected : List Text) (source dest : List Item) : Prop where
  source : all = texts source
  dest : selected = texts dest
  perm : (all ++ selected).Perm names

structure Conserved (groupFields sortFields : List Text) (l : Lists) : Prop where
  group : Kept groupFields l.doc.groupByFieldsAll l.doc.groupByFields l.group.source l.group.dest
  sort : Kept sortFields l.doc.sortedFieldsAll l.doc.sortedFields l.sort.source l.sort.dest

def ConservedIn (groupFields sortFields : List Text) (w : Option Lists) : Prop :=
  ∃ l, w = some l ∧ Conserved groupFields sortFields l

def Lists.Draggable (l : Lists) : Drag → Prop
  | .group .source _ _ => True
  | .group .dest row release => ∀ item, l.group.dest[row]? = some item →
      if release.side.or l.group.dragDest = some .dest then l.group.dest.length = 1 ∨ item.data = row
      else item.data ≤ l.group.source.length
  | .sort .source _ (.onDest _) => True
  | .sort .source _ (.onSource _ _) => False
  | .sort .dest _ (.onDest _) => True
  | .sort .dest row (.onSource resolved _) => ∀ item, l.sort.dest[row]? = some item →
      ∃ found, resolved.bind (l.sort.dest[·]?) = some found ∧ found.data = min item.data l.sort.source.length

@[simp] theorem texts_length (items : List Item) : (texts items).length = items.length := by
  simp [texts]

theorem texts_insertItem (items : List Item) (pos : ℕ) (item : Item) :
    texts (insertItem items pos item) = (texts items).insertIdx (min pos items.length) item.text := by
  simp [texts, insertItem, List.map_insertIdx]

theorem texts_eraseIdx (items : List Item) (row : ℕ) : texts (items.eraseIdx row) = (texts items).eraseIdx row := by
  simp [texts, List.eraseIdx_map]

theorem texts_getElem? {items : List Item} {row : ℕ} {item : Item} (h : items[row]? = some item) :
    (texts items)[row]? = some item.text := by
  simp [texts, h]

theorem filter_eq_eraseIdx {l : List Text} (hl : l.Nodup) {row : ℕ} {name : Text} (h : l[row]? = some name) :
    l.filter (· ≠ name) = l.eraseIdx row := by
  induction l generalizing row with
  | nil => simp at h
  | cons head l ih =>
    obtain ⟨hhead, hrest⟩ := List.nodup_cons.mp hl
    cases row with
    | zero =>
      obtain rfl : head = name := by simpa using h
      have hkeep : l.filter (· ≠ head) = l :=
        List.filter_eq_self.mpr fun x hx => by simpa using ne_of_mem_of_not_mem hx hhead
      simpa using hkeep
    | succ row =>
      have hname : l[row]? = some name := by simpa using h
      have hne : head ≠ name := fun heq => hhead (heq ▸ List.mem_of_getElem? hname)
      simpa [hne] using ih hrest hname

theorem perm_eraseIdx {l : List Text} {row : ℕ} {name : Text} (h : l[row]? = some name) :
    l.Perm (name :: l.eraseIdx row) := by
  obtain ⟨hrow, rfl⟩ := List.getElem?_eq_some_iff.mp h
  exact (List.getElem_cons_eraseIdx_perm hrow).symm

section Kept

variable {names all selected : List Text} {source dest : List Item} {row : ℕ} {item : Item}

theorem Kept.nodup (h : Kept names all selected source dest) (hnames : names.Nodup) : (all ++ selected).Nodup :=
  h.perm.nodup_iff.mpr hnames

theorem Kept.select (h : Kept names all selected source dest) (hnames : names.Nodup)
    (hitem : source[row]? = some item) {pos : ℕ} (hpos : pos ≤ dest.length) (data : ℕ) :
    Kept names (all.filter (· ≠ item.text)) (selected.insertIdx pos item.text) (source.eraseIdx row)
      (insertItem dest pos ⟨item.text, data⟩) := by
  have hall : all.Nodup := (List.nodup_append.mp (h.nodup hnames)).1
  obtain ⟨rfl, rfl, hperm⟩ := h
  have hname := texts_getElem? hitem
  rw [filter_eq_eraseIdx hall hname]
  refine ⟨(texts_eraseIdx source row).symm, ?_, ?_⟩
  · rw [texts_insertItem, min_eq_left hpos]
  · calc
      (texts source).eraseIdx row ++ (texts dest).insertIdx pos item.text
        ~ (texts source).eraseIdx row ++ item.text :: texts dest :=
          (List.perm_insertIdx _ _ (by simpa using hpos)).append_left _
      _ ~ item.text :: (texts source).eraseIdx row ++ texts dest := List.perm_middle
      _ ~ texts source ++ texts dest := ((perm_eraseIdx hname).symm).append_right _
      _ ~ names := hperm

theorem Kept.restore_iff (h : Kept names all selected source dest) (hnames : names.Nodup)
    (hitem : dest[row]? = some item) {original : ℕ} (horiginal : original ≤ source.length) (pos data : ℕ) :
    Kept names (all.insertIdx original item.text) (selected.filter (· ≠ item.text))
      (insertItem source pos ⟨item.text, data⟩) (dest.eraseIdx row) ↔ original = min pos source.length := by
  obtain ⟨-, hselected, hdisjoint⟩ := List.nodup_append.mp (h.nodup hnames)
  obtain ⟨rfl, rfl, hperm⟩ := h
  have hname := texts_getElem? hitem
  have hnew : item.text ∉ texts source := fun hmem => hdisjoint _ hmem _ (List.mem_of_getElem? hname) rfl
  rw [filter_eq_eraseIdx hselected hname]
  constructor
  · rintro ⟨hsource, -, -⟩
    rw [texts_insertItem] at hsource
    exact List.injOn_insertIdx_index_of_notMem _ _ hnew (by simpa using horiginal) (by simp) hsource
  · rintro rfl
    refine ⟨(texts_insertItem source pos ⟨item.text, data⟩).symm, (texts_eraseIdx dest row).symm, ?_⟩
    calc
      (texts source).insertIdx (min pos source.length) item.text ++ (texts dest).eraseIdx row
        ~ item.text :: texts source ++ (texts dest).eraseIdx row :=
          (List.perm_insertIdx _ _ (by simp)).append_right _
      _ ~ texts source ++ item.text :: (texts dest).eraseIdx row := List.perm_middle.symm
      _ ~ texts source ++ texts dest := ((perm_eraseIdx hname).symm).append_left _
      _ ~ names := hperm

theorem Kept.reorder_iff (h : Kept names all selected source dest) (hnames : names.Nodup)
    (hitem : dest[row]? = some item) {pos : ℕ} (hpos : pos ≤ (dest.eraseIdx item.data).length) (data : ℕ) :
    Kept names all ((selected.filter (· ≠ item.text)).insertIdx pos item.text) source
      (insertItem (dest.eraseIdx item.data) pos ⟨item.text, data⟩) ↔ item.data = row := by
  have hselected := (List.nodup_append.mp (h.nodup hnames)).2.1
  obtain ⟨rfl, rfl, hperm⟩ := h
  have hname := texts_getElem? hitem
  rw [filter_eq_eraseIdx hselected hname]
  constructor
  · rintro h
    have hnodup := (List.nodup_append.mp (h.nodup hnames)).2.1
    rw [h.dest, texts_insertItem, min_eq_left hpos, texts_eraseIdx,
      (List.perm_insertIdx _ _ (by simpa [← texts_eraseIdx] using hpos)).nodup_iff] at hnodup
    by_contra hne
    exact (List.nodup_cons.mp hnodup).1 (List.mem_eraseIdx_iff_getElem?.mpr ⟨row, fun heq => hne heq.symm, hname⟩)
  · intro hrow
    rw [hrow] at hpos ⊢
    refine ⟨rfl, by rw [texts_insertItem, min_eq_left hpos, texts_eraseIdx], ?_⟩
    have hpos' : pos ≤ ((texts dest).eraseIdx row).length := by simpa [← texts_eraseIdx] using hpos
    calc
      texts source ++ ((texts dest).eraseIdx row).insertIdx pos item.text
        ~ texts source ++ item.text :: (texts dest).eraseIdx row := (List.perm_insertIdx _ _ hpos').append_left _
      _ ~ texts source ++ texts dest := ((perm_eraseIdx hname).symm).append_left _
      _ ~ names := hperm

end Kept

theorem rowOf_le {items : List Item} {target : Option ℕ} {pos : ℕ} (h : rowOf items target = some pos) :
    pos ≤ items.length := by
  cases target with
  | none =>
    obtain rfl : items.length = pos := by simpa [rowOf] using h
    exact le_rfl
  | some row =>
    obtain ⟨hrow, rfl⟩ : row < items.length ∧ row = pos := by simpa [rowOf] using h
    exact hrow.le

@[simp] theorem conservedIn_none (groupFields sortFields : List Text) : ¬ ConservedIn groupFields sortFields none := by
  simp [ConservedIn]

@[simp] theorem conservedIn_some (groupFields sortFields : List Text) (l : Lists) :
    ConservedIn groupFields sortFields (some l) ↔ Conserved groupFields sortFields l := by
  simp [ConservedIn]

theorem conserved_iff_group {groupFields sortFields : List Text} {l : Lists}
    (hsort : Kept sortFields l.doc.sortedFieldsAll l.doc.sortedFields l.sort.source l.sort.dest) :
    Conserved groupFields sortFields l ↔
      Kept groupFields l.doc.groupByFieldsAll l.doc.groupByFields l.group.source l.group.dest :=
  ⟨fun h => h.group, fun h => ⟨h, hsort⟩⟩

theorem conserved_iff_sort {groupFields sortFields : List Text} {l : Lists}
    (hgroup : Kept groupFields l.doc.groupByFieldsAll l.doc.groupByFields l.group.source l.group.dest) :
    Conserved groupFields sortFields l ↔
      Kept sortFields l.doc.sortedFieldsAll l.doc.sortedFields l.sort.source l.sort.dest :=
  ⟨fun h => h.sort, fun h => ⟨hgroup, h⟩⟩

section Steps

variable {groupFields sortFields : List Text} {l : Lists}

theorem group_decided (hnames : groupFields.Nodup) (h : Conserved groupFields sortFields l) {dragSource : Side}
    {row : ℕ} {release : Release} {w : Option Lists} (hstep : dragStep (some l) (.group dragSource row release) = some w) :
    ConservedIn groupFields sortFields w ↔ l.Draggable (.group dragSource row release) := by
  obtain ⟨hgroup, hsort⟩ := h
  obtain ⟨r, hdrag, rfl⟩ := Option.map_eq_some_iff.mp hstep
  obtain ⟨item, hitem, hdrag⟩ := Option.bind_eq_some_iff.mp hdrag
  have hunchanged : ∀ page : GroupPage, page.source = l.group.source → page.dest = l.group.dest →
      ConservedIn groupFields sortFields (some { l with group := page }) := by
    rintro page hsource hdest
    exact ⟨_, rfl, by rw [hsource, hdest]; exact hgroup, hsort⟩
  cases dragSource with
  | source =>
    refine iff_of_true ?_ trivial
    cases hside : release.side.or l.group.dragDest with
    | none =>
      obtain rfl : ({ l.group with dragDest := none }, none) = r := by simpa [hside] using hdrag
      exact hunchanged _ rfl rfl
    | some side =>
      cases side with
      | source =>
        obtain rfl : ({ l.group with dragDest := some .source }, none) = r := by simpa [hside] using hdrag
        exact hunchanged _ rfl rfl
      | dest =>
        obtain ⟨pos, hpos, rfl⟩ : ∃ pos, rowOf l.group.dest release.hit = some pos ∧
            (⟨l.group.source.eraseIdx row, insertItem l.group.dest pos ⟨item.text, item.data⟩, none⟩,
              some ⟨.addField, item.text, ⟨pos, item.data⟩⟩) = r := by simpa [hside] using hdrag
        have hle := rowOf_le hpos
        have hinsert : pos ≤ l.doc.groupByFields.length := by simpa [hgroup.dest] using hle
        simp only [Lists.change, changeFields, addGroupByFieldToQuery, insertAt, hinsert, if_true, Option.map_some]
        exact ⟨_, rfl, hgroup.select hnames hitem hle item.data, hsort⟩
  | dest =>
    have hdraggable : l.Draggable (.group .dest row release) ↔
        if release.side.or l.group.dragDest = some .dest then l.group.dest.length = 1 ∨ item.data = row
        else item.data ≤ l.group.source.length := by simp [Lists.Draggable, hitem]
    rw [hdraggable]
    by_cases hside : release.side.or l.group.dragDest = some .dest
    · rw [if_pos hside]
      by_cases hsingle : l.group.dest.length = 1
      · obtain rfl : ({ l.group with dragDest := some .dest }, none) = r := by simpa [hside, hsingle] using hdrag
        exact iff_of_true (hunchanged _ rfl rfl) (.inl hsingle)
      · obtain ⟨pos, hpos, rfl⟩ : ∃ pos, rowOf (l.group.dest.eraseIdx item.data) release.hit = some pos ∧
            (⟨l.group.source, insertItem (l.group.dest.eraseIdx item.data) pos
                ⟨item.text, itemData l.group.source item.data⟩, none⟩,
              some ⟨.changeField, item.text, ⟨pos, itemData l.group.source item.data⟩⟩) = r := by
          simpa [hside, hsingle] using hdrag
        have hle := rowOf_le hpos
        have hreorder := hgroup.reorder_iff hnames hitem hle (itemData l.group.source item.data)
        have hmem : item.text ∈ l.doc.groupByFields := by
          rw [hgroup.dest]
          exact List.mem_of_getElem? (texts_getElem? hitem)
        simp only [Lists.change, changeFields, shuffleGroupByFields, insertAt, hmem, if_true, or_iff_right hsingle]
        by_cases hinsert : pos ≤ (l.doc.groupByFields.filter (· ≠ item.text)).length
        · simp only [hinsert, if_true, Option.map_some, conservedIn_some]
          refine (conserved_iff_group ?_).trans hreorder
          exact hsort
        · simp only [hinsert, if_false, Option.map_none]
          refine iff_of_false (conservedIn_none _ _) fun hrow => hinsert ?_
          have hselected := (List.nodup_append.mp (hgroup.nodup hnames)).2.1
          rw [hgroup.dest] at hselected ⊢
          rw [filter_eq_eraseIdx hselected (texts_getElem? hitem), ← texts_eraseIdx, texts_length, ← hrow]
          exact hle
    · rw [if_neg hside]
      obtain rfl : (⟨insertItem l.group.source item.data ⟨item.text, item.data⟩, l.group.dest.eraseIdx row, none⟩,
          some ⟨.removeField, item.text, ⟨item.data, item.data⟩⟩) = r := by
        cases hval : release.side.or l.group.dragDest with
        | none => simpa [hval] using hdrag
        | some side =>
          cases side with
          | source => simpa [hval] using hdrag
          | dest => exact absurd hval hside
      have hlength : l.doc.groupByFieldsAll.length = l.group.source.length := by simp [hgroup.source]
      simp only [Lists.change, changeFields, deleteGroupByField, insertAt, if_true, hlength]
      by_cases hinsert : item.data ≤ l.group.source.length
      · simp only [hinsert, if_true, Option.map_some, conservedIn_some]
        refine (conserved_iff_group ?_).trans ((hgroup.restore_iff hnames hitem hinsert item.data item.data).trans ?_)
        · exact hsort
        · simp [hinsert]
      · simp [hinsert]

theorem sort_decided (hnames : sortFields.Nodup) (h : Conserved groupFields sortFields l) {dragSource : Side}
    {row : ℕ} {drop : SortDrop} {w : Option Lists} (hstep : dragStep (some l) (.sort dragSource row drop) = some w) :
    ConservedIn groupFields sortFields w ↔ l.Draggable (.sort dragSource row drop) := by
  obtain ⟨hgroup, hsort⟩ := h
  obtain ⟨r, hdrag, rfl⟩ := Option.map_eq_some_iff.mp hstep
  obtain ⟨item, hitem, hdrag⟩ := Option.bind_eq_some_iff.mp hdrag
  have hpage : sortPage ≠ groupByPage := by decide
  cases dragSource with
  | source =>
    cases drop with
    | onDest target =>
      obtain ⟨pos, hpos, rfl⟩ : ∃ pos, rowOf l.sort.dest target = some pos ∧
          some (⟨l.sort.source.eraseIdx row, insertItem l.sort.dest pos ⟨item.text, row⟩⟩,
            ⟨.addField, item.text, ⟨pos, row⟩⟩) = r := by simpa using hdrag
      have hle := rowOf_le hpos
      have hinsert : pos ≤ l.doc.sortedFields.length := by simpa [hsort.dest] using hle
      simp only [Lists.change, changeFields, hpage, if_false, addSortedField, insertAt, hinsert, if_true,
        Option.map_some, Option.bind_some]
      exact iff_of_true ⟨_, rfl, hgroup, hsort.select hnames hitem hle row⟩ trivial
    | onSource resolved uninitialised =>
      obtain rfl : some (l.sort, ⟨.removeField, item.text, ⟨0, uninitialised⟩⟩) = r := by simpa using hdrag
      refine iff_of_false ?_ id
      simp only [Lists.change, changeFields, hpage, if_false, deleteSortedField, insertAt, Option.bind_some]
      by_cases hinsert : uninitialised ≤ l.doc.sortedFieldsAll.length
      · simp only [hinsert, if_true, Option.map_some, conservedIn_some]
        intro hafter
        -- the field is in the available list already
        have hlength : (l.doc.sortedFieldsAll.insertIdx uninitialised item.text).length = (texts l.sort.source).length :=
          congrArg List.length hafter.sort.source
        rw [List.length_insertIdx_of_le_length hinsert, ← hsort.source] at hlength
        omega
      · simp [hinsert]
  | dest =>
    cases drop with
    | onDest target =>
      obtain rfl : some (l.sort, ⟨.changeField, item.text, ⟨0, 0⟩⟩) = r := by simpa using hdrag
      exact iff_of_true ⟨l, rfl, hgroup, hsort⟩ trivial
    | onSource resolved uninitialised =>
      obtain rfl : (resolved.bind (l.sort.dest[·]?)).map (fun found =>
          (⟨insertItem l.sort.source item.data ⟨item.text, 0⟩, l.sort.dest.eraseIdx row⟩,
            ⟨.removeField, item.text, ⟨found.data, found.data⟩⟩)) = r := by simpa using hdrag
      have hdraggable : l.Draggable (.sort .dest row (.onSource resolved uninitialised)) ↔
          ∃ found, resolved.bind (l.sort.dest[·]?) = some found ∧ found.data = min item.data l.sort.source.length := by
        simp [Lists.Draggable, hitem]
      rw [hdraggable]
      cases hresolved : resolved.bind (l.sort.dest[·]?) with
      | none => simp
      | some found =>
        have hlength : l.doc.sortedFieldsAll.length = l.sort.source.length := by simp [hsort.source]
        simp only [Lists.change, changeFields, hpage, if_false, deleteSortedField, insertAt, Option.map_some,
          Option.bind_some, hlength, Option.some.injEq, exists_eq_left']
        by_cases hinsert : found.data ≤ l.sort.source.length
        · simp only [hinsert, if_true, Option.map_some, conservedIn_some]
          refine (conserved_iff_sort ?_).trans (hsort.restore_iff hnames hitem hinsert item.data 0)
          exact hgroup
        · simp only [hinsert, if_false, Option.map_none]
          refine iff_of_false (conservedIn_none _ _) fun hmin => hinsert ?_
          rw [hmin]
          exact min_le_right _ _

end Steps

theorem dragStep_decided {groupFields sortFields : List Text} (hgroup : groupFields.Nodup) (hsort : sortFields.Nodup)
    (w : Option Lists) (e : Drag) (w' : Option Lists) (h : ConservedIn groupFields sortFields w)
    (hstep : dragStep w e = some w') :
    ConservedIn groupFields sortFields w' ↔ ∀ l, w = some l → l.Draggable e := by
  obtain ⟨l, rfl, hl⟩ := h
  simp only [Option.some.injEq, forall_eq']
  cases e with
  | group dragSource row release => exact group_decided hgroup hl hstep
  | sort dragSource row drop => exact sort_decided hsort hl hstep

theorem texts_itemsFrom (i : ℕ) (names : List Text) : texts (itemsFrom i names) = names := by
  induction names generalizing i with
  | nil => rfl
  | cons name names ih => exact congrArg (name :: ·) (ih (i + 1))

theorem loaded_conserved (groupFields sortFields : List Text) :
    Conserved groupFields sortFields (loaded groupFields sortFields) := by
  constructor
  · exact ⟨(texts_itemsFrom 0 groupFields).symm, rfl, by simp [loaded]⟩
  · exact ⟨by simp [loaded, texts, Function.comp_def], rfl, by simp [loaded]⟩

theorem lists_conserved_iff {groupFields sortFields : List Text} (hgroup : groupFields.Nodup)
    (hsort : sortFields.Nodup) (es : List Drag) :
    Throughout dragStep (ConservedIn groupFields sortFields) (some (loaded groupFields sortFields)) es ↔
      EachStep dragStep (fun w e _ => ∀ l, w = some l → l.Draggable e) (some (loaded groupFields sortFields)) es := by
  have hstart : ConservedIn groupFields sortFields (some (loaded groupFields sortFields)) :=
    ⟨_, rfl, loaded_conserved groupFields sortFields⟩
  rw [throughout_iff, and_iff_right hstart]
  exact eachStep_iff (P := ConservedIn groupFields sortFields) (fun _ _ _ _ _ hq => hq)
    (dragStep_decided hgroup hsort) hstart es

def twoFields : List Text := ["\"client\".\"id\"".toList, "\"client\".\"name\"".toList]

def lateReturn : List Drag :=
  [.group .source 0 (.onDest none), .group .source 0 (.onDest none), .group .dest 1 .onSource]

theorem selected_fields_conserved :
    Throughout dragStep (ConservedIn twoFields twoFields) (some (loaded twoFields twoFields))
      [.group .source 0 (.onDest none), .sort .source 1 (.onDest none)] := by
  refine (lists_conserved_iff (by decide) (by decide) _).mpr ?_
  rw [eachStep_cons]
  intro w hw
  refine ⟨fun l hl => ?_, ?_⟩
  · obtain rfl := Option.some.inj hl
    trivial
  · rw [eachStep_cons]
    intro v hv
    refine ⟨fun l hl => ?_, eachStep_nil _ _⟩
    trivial

theorem late_return_is_undefined :
    ¬ Throughout dragStep (ConservedIn twoFields twoFields) (some (loaded twoFields twoFields)) lateReturn := by
  intro h
  have hrun : run dragStep (some (loaded twoFields twoFields)) lateReturn = some none := by decide
  exact conservedIn_none _ _ (h lateReturn (List.prefix_refl _) none hrun)

end DbHandler.QueryBuilder
