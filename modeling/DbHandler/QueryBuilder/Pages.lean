import DbHandler.QueryBuilder.Document

namespace DbHandler.QueryBuilder

structure Item where
  text : Text
  data : ℕ
  deriving DecidableEq, Repr

inductive Side
  | source
  | dest
  deriving DecidableEq, Repr

/-- The two list controls of the group-by page; a drag that was given up leaves `dragDest` behind. -/
structure GroupPage where
  source : List Item
  dest : List Item
  dragDest : Option Side
  deriving DecidableEq, Repr

structure SortPage where
  source : List Item
  dest : List Item
  deriving DecidableEq, Repr

/-- Where the mouse goes up; on the destination list `HitTest` may find a row. -/
inductive Release
  | onSource
  | onDest (hit : Option ℕ)
  | outside
  deriving DecidableEq, Repr

/-- Where the item of a drop is. The source list gets an item whose row the destination list is asked
for, and a drop from the source list sends a position that was not set. -/
inductive SortDrop
  | onDest (target : Option ℕ)
  | onSource (resolved : Option ℕ) (uninitialised : ℕ)
  deriving DecidableEq, Repr

structure ChangeQuery where
  type : FieldChange
  fieldName : Text
  positions : Positions
  deriving DecidableEq, Repr

def Release.side : Release → Option Side
  | onSource => some .source
  | onDest _ => some .dest
  | outside => none

def Release.hit : Release → Option ℕ
  | onDest hit => hit
  | _ => none

/-- `GetItemData`, 0 for a row that is not there. -/
def itemData (items : List Item) (row : ℕ) : ℕ := (items[row]?.map (·.data)).getD 0

/-- A row beyond the end is the end. -/
def insertItem (items : List Item) (row : ℕ) (item : Item) : List Item :=
  items.insertIdx (min row items.length) item

def rowOf (items : List Item) : Option ℕ → Option ℕ
  | none => some items.length
  | some row => if row < items.length then some row else none

/-- `OnBeginDrag`, `OnLeftUp` and `FinishDragging`; `none` when a row is not in its list. -/
def dragGroupItem (dragSource : Side) (row : ℕ) (release : Release) (page : GroupPage) :
    Option (GroupPage × Option ChangeQuery) :=
  let items := match dragSource with
    | .source => page.source
    | .dest => page.dest
  items[row]?.bind fun item =>
    match dragSource, release.side.or page.dragDest with
    | .source, some .source => some ({ page with dragDest := some .source }, none)
    | .source, none => some ({ page with dragDest := none }, none)
    | .source, some .dest =>
      (rowOf page.dest release.hit).map fun pos =>
        (⟨page.source.eraseIdx row, insertItem page.dest pos ⟨item.text, item.data⟩, none⟩,
          some ⟨.addField, item.text, ⟨pos, item.data⟩⟩)
    | .dest, some .dest =>
      if page.dest.length = 1 then some ({ page with dragDest := some .dest }, none)
      else
        -- the stored position of the item is taken for its row, and for a row of the source list
        let position := itemData page.source item.data
        let dest := page.dest.eraseIdx item.data
        (rowOf dest release.hit).map fun pos =>
          (⟨page.source, insertItem dest pos ⟨item.text, position⟩, none⟩,
            some ⟨.changeField, item.text, ⟨pos, position⟩⟩)
    | .dest, _ =>
      some (⟨insertItem page.source item.data ⟨item.text, item.data⟩, page.dest.eraseIdx row, none⟩,
        some ⟨.removeField, item.text, ⟨item.data, item.data⟩⟩)

/-- `OnSortBeginDrag` and `OnSortDrop`; the inner `none` is a position read from a row that is not there. -/
def dragSortItem (dragSource : Side) (row : ℕ) (drop : SortDrop) (page : SortPage) :
    Option (Option (SortPage × ChangeQuery)) :=
  let items := match dragSource with
    | .source => page.source
    | .dest => page.dest
  items[row]?.bind fun item =>
    match dragSource, drop with
    | .source, .onSource _ uninitialised =>
      some (some (page, ⟨.removeField, item.text, ⟨0, uninitialised⟩⟩))
    | .source, .onDest target =>
      (rowOf page.dest target).map fun pos =>
        some (⟨page.source.eraseIdx row, insertItem page.dest pos ⟨item.text, row⟩⟩,
          ⟨.addField, item.text, ⟨pos, row⟩⟩)
    | .dest, .onDest _ => some (some (page, ⟨.changeField, item.text, ⟨0, 0⟩⟩))
    | .dest, .onSource resolved _ =>
      some ((resolved.bind (page.dest[·]?)).map fun found =>
        (⟨insertItem page.source item.data ⟨item.text, 0⟩, page.dest.eraseIdx row⟩,
          ⟨.removeField, item.text, ⟨found.data, found.data⟩⟩))

structure Lists where
  doc : Document
  group : GroupPage
  sort : SortPage
  deriving DecidableEq, Repr

inductive Drag
  | group (dragSource : Side) (row : ℕ) (release : Release)
  | sort (dragSource : Side) (row : ℕ) (drop : SortDrop)
  deriving DecidableEq, Repr

def Lists.change (l : Lists) (queryType : ℕ) (e : ChangeQuery) : Option Lists :=
  (changeFields e.type queryType e.fieldName e.positions l.doc).map fun r => { l with doc := r.1 }

/-- A drag that cannot be made gives `none`, and one with an undefined access `some none`. -/
def dragStep : Option Lists → Drag → Option (Option Lists)
  | none, _ => none
  | some l, .group dragSource row release =>
    (dragGroupItem dragSource row release l.group).map fun r =>
      match r.2 with
      | none => some { l with group := r.1 }
      | some e => { l with group := r.1 }.change groupByPage e
  | some l, .sort dragSource row drop =>
    (dragSortItem dragSource row drop l.sort).map fun r =>
      r.bind fun r => { l with sort := r.1 }.change sortPage r.2

def itemsFrom : ℕ → List Text → List Item
  | _, [] => []
  | i, name :: names => ⟨name, i⟩ :: itemsFrom (i + 1) names

/-- The fields of the tables on the group-by page, and those of the quick select on the sort page. -/
def loaded (groupFields sortFields : List Text) : Lists where
  doc := ⟨[], groupFields, [], sortFields, []⟩
  group := ⟨itemsFrom 0 groupFields, [], none⟩
  sort := ⟨sortFields.map (⟨·, 0⟩), []⟩

end DbHandler.QueryBuilder
