import PanelSketch.Workspace.Load

/-!
# Editing a Workspace

The operations on screens, elements and assets, each as the steps it takes. A step
may find that the operation cannot be carried out; it then answers so and leaves the
workspace as the steps before it have made it. An operation that is carried out keeps
the placement in step with the lists it changes.

Positions that are asked for may be any number; whatever is taken out of a list
is put back at the position asked for, or at the end when the list is shorter.

Editing hands a record or an element to a function that may change anything
about it. The id is put back afterwards.

## Main definitions

* `addScreen`, `removeScreen`, `selectScreen`, `reorderScreen`, `editScreen`
* `addElement`, `removeElement`, `moveElement`, `reorderElement`, `editElement`
* `addAsset`, `removeAsset`

## Theorems

* `Workspace.mem_putAt`: What is put into a list is in it.
-/

namespace PanelSketch.Workspace

/-- Put an item into a list at a position, or at the end when the list is
    shorter. -/
def putAt {α : Type} (position : Nat) (item : α) (items : List α) : List α :=
  items.insertIdx (min position items.length) item

theorem mem_putAt {α : Type} (position : Nat) (item : α) (items : List α) :
    item ∈ putAt position item items := by
  rw [putAt, List.mem_insertIdx (Nat.min_le_right _ _)]
  exact Or.inl rfl

/-- Take the positions of screens from their order. -/
def reposition (w : Workspace) : Workspace :=
  { w with placement := w.placement.reposition w.screenIds }

/-- Change the record at a position. -/
def modifyScreen (w : Workspace) (position : Nat) (change : ScreenRecord → ScreenRecord) :
    Workspace :=
  { w with screens := w.screens.modify position change }

/-! ### Screens -/

/-- Append a screen and make it active; also returns its record. -/
def addScreen (w : Workspace) (name? : Option String) : ScreenRecord × Workspace :=
  let (id, numbering) := w.numbering.issueScreen w.placement.positions.keys
  let name := name?.getD ("Tela_" ++ (w.screens.length + 1).repr)
  let record : ScreenRecord := { id, name }
  (record, { w with screens := w.screens ++ [record], active := id, numbering }.reposition)

/-- Remove a screen with its elements, unless it is the only one. -/
def removeScreen (w : Workspace) (id : ScreenId) : Bool × Workspace := Id.run do
  -- The only screen stays, whichever one is meant.
  if w.screens.length ≤ 1 then return (false, w)
  let some position := w.placement.position? id | return (false, w)
  let some record := w.screens[position]? | return (false, w)
  let screens := w.screens.eraseIdx position
  return (true, reposition { w with
    screens
    elements := record.elementIds.foldl (·.erase ·) w.elements
    selected := w.selected.filter (· ∉ record.elementIds)
    active := if w.active = id then (screens.map (·.id)).headD w.active else w.active
    placement := record.elementIds.foldl (fun p e => p.disown e) w.placement })

/-- Make a screen active and select no element. -/
def selectScreen (w : Workspace) (id : ScreenId) : Bool × Workspace := Id.run do
  if !w.placement.hasScreen id then return (false, w)
  return (true, { w with active := id, selected := none })

/-- Move a screen to a position in the list of screens. -/
def reorderScreen (w : Workspace) (id : ScreenId) (target : Nat) : Bool × Workspace := Id.run do
  let some position := w.placement.position? id | return (false, w)
  let some record := w.screens[position]? | return (false, w)
  return (true, reposition { w with
    screens := putAt target record (w.screens.eraseIdx position) })

/-- Change the record of a screen; its id stays. -/
def editScreen (w : Workspace) (id : ScreenId) (edit : ScreenRecord → ScreenRecord) :
    Bool × Workspace := Id.run do
  let some position := w.placement.position? id | return (false, w)
  return (true, w.modifyScreen position fun record => { edit record with id })

/-! ### Elements -/

/-- The position of the next element on a screen that has `count` of them: each
    one stands five pixels further in than the one before. -/
def cascade (count : Nat) : Int32 :=
  Text.clampPixels (5 * count + 10)

/-- Append an element to a screen and select it; also returns it. -/
def addElement (w : Workspace) (screen : ScreenId) (kind : Primitive) (asset : Option String) :
    Option Element × Workspace := Id.run do
  let some position := w.placement.position? screen | return (none, w)
  let some record := w.screens[position]? | return (none, w)
  let count := record.elementIds.length
  let (id, numbering) := w.numbering.issueElement w.elements.keys
  let element : Element :=
    { id, kind, asset
      name := kind.tag ++ "_" ++ (count + 1).repr
      x := cascade count
      y := cascade count
      w := if kind.isCircle then 60 else 80
      h := if kind.isCircle then 60 else 40 }
  let w := w.modifyScreen position fun s => { s with elementIds := s.elementIds ++ [id] }
  return (some element, { w with
    elements := w.elements.insert id element
    selected := some id
    numbering
    placement := w.placement.own id screen })

/-- Remove an element from its screen. -/
def removeElement (w : Workspace) (id : ElementId) : Bool × Workspace := Id.run do
  let some owner := w.placement.owner? id | return (false, w)
  let some position := w.placement.position? owner | return (false, w)
  let w := w.modifyScreen position fun s => { s with elementIds := s.elementIds.filter (· ≠ id) }
  return (true, { w with
    elements := w.elements.erase id
    selected := w.selected.filter (· ≠ id)
    placement := w.placement.disown id })

/-- Move an element to the front of a different screen. -/
def moveElement (w : Workspace) (id : ElementId) (target : ScreenId) :
    Bool × Workspace := Id.run do
  let some owner := w.placement.owner? id | return (false, w)
  let some source := w.placement.position? owner | return (false, w)
  let some position := w.placement.position? target | return (false, w)
  -- A move to its own screen is refused; that is what reordering is for.
  if source = position then return (false, w)
  let w := w.modifyScreen source fun s => { s with elementIds := s.elementIds.filter (· ≠ id) }
  let w := w.modifyScreen position fun s => { s with elementIds := s.elementIds ++ [id] }
  return (true, { w with placement := w.placement.own id target })

/-- Move an element to a position in the paint order of its own screen. -/
def reorderElement (w : Workspace) (screen : ScreenId) (id : ElementId) (target : Nat) :
    Bool × Workspace := Id.run do
  -- An element of another screen is left alone.
  if w.placement.owner? id ≠ some screen then return (false, w)
  let some position := w.placement.position? screen | return (false, w)
  return (true, w.modifyScreen position fun s =>
    { s with elementIds := putAt target id (s.elementIds.filter (· ≠ id)) })

/-- Change an element; its id stays. -/
def editElement (w : Workspace) (id : ElementId) (edit : Element → Element) :
    Bool × Workspace := Id.run do
  let some element := w.elements[id]? | return (false, w)
  return (true, { w with elements := w.elements.insert id { edit element with id } })

/-! ### Assets -/

/-- Append an asset under a name of its own; also returns it as it is stored. -/
def addAsset (w : Workspace) (asset : Asset) : Asset × Workspace :=
  let name := Text.freshName (Text.identifier asset.name "asset") (w.assets.map (·.name))
  let asset := { asset with name }
  (asset, { w with assets := w.assets ++ [asset] })

/-- A record that does not refer to an asset; its picture goes with it. -/
def forgetBackground (name : String) (record : ScreenRecord) : ScreenRecord :=
  if record.backgroundAsset = some name then
    { record with backgroundAsset := none, background := none }
  else record

/-- An element that does not refer to an asset. -/
def forgetImage (name : String) (element : Element) : Element :=
  if element.asset = some name then { element with asset := none } else element

/-- Remove the first asset with a name, and every reference to the name. -/
def removeAsset (w : Workspace) (name : String) : Bool × Workspace := Id.run do
  let some position := w.assets.findIdx? (·.name == name) | return (false, w)
  return (true, { w with
    assets := w.assets.eraseIdx position
    screens := w.screens.map (forgetBackground name)
    elements := w.elements.map fun _ e => forgetImage name e })

end PanelSketch.Workspace
