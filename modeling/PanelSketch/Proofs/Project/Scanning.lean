import Mathlib.Data.Option.Basic
import PanelSketch.Proofs.Project.WellFormed
import PanelSketch.Workspace.Operation

/-!
# Editing a Project by Scanning

The operations on a workspace, said once more for the nested project and without
any store or placement. Everything is found by going through the lists: a screen
by its id, an element by its id on whatever screen it stands, the owner of an
element as the screen that has it. What has been found is changed where it
stands, and nothing else is kept up to date, because there is nothing else.

This is what editing means. It is slow, and it is obviously right, which makes it
the measure of the operations on a workspace.

## Main definitions

* `Project.screen?`, `element?`, `owner?`: Searches.
* `Screen.push`, `without`, `reinsert`, `edit`: Changes of one screen.
* `Element.editOnly`: A change of the one element that is meant.
* `Project.updateScreen`, `updateElements`: Changes in place.
* `Project.addScreen`, …, `Project.removeAsset`: The operations.
* `Project.perform`: One operation, with its answer.

## Theorems

* `guard_bind`, `guard_eq_some`: What a condition comes to.
-/

namespace PanelSketch

namespace Screen

/-- A screen with what there is to it besides its elements replaced. -/
def withInfo (s : Screen) (info : ScreenInfo) : Screen :=
  { id := info.id, name := info.name, background := info.background
    backgroundAsset := info.backgroundAsset, backgroundColor := info.backgroundColor
    elements := s.elements }

/-- A screen with an element in front of all others. -/
def push (s : Screen) (e : Element) : Screen :=
  { s with elements := s.elements ++ [e] }

/-- A screen without an element. -/
def without (s : Screen) (id : ElementId) : Screen :=
  { s with elements := s.elements.filter (·.id ≠ id) }

/-- A screen with an element taken out of its paint order and put back at a
    position, or in front when there are fewer. -/
def reinsert (e : Element) (target : Nat) (s : Screen) : Screen :=
  let rest := s.elements.filter (·.id ≠ e.id)
  { s with elements := rest.insertIdx (min target rest.length) e }

/-- A screen with the ids of its elements in their place. -/
def record (s : Screen) : ScreenRecord :=
  { toScreenInfo := s.info, elementIds := s.elementIds }

/-- A screen after a change of its record; its id and its elements stay. -/
def edit (change : ScreenRecord → ScreenRecord) (s : Screen) : Screen :=
  s.withInfo { (change s.record).toScreenInfo with id := s.id }

theorem record_edit {change : ScreenRecord → ScreenRecord}
    (h : ∀ r, (change r).elementIds = r.elementIds) (s : Screen) :
    (s.edit change).record = { change s.record with id := s.id } := by
  have hids : s.elementIds = (change s.record).elementIds := (h s.record).symm
  exact congrArg (ScreenRecord.mk { (change s.record).toScreenInfo with id := s.id }) hids

end Screen

namespace Element

/-- An element, changed if it is the one that is meant; its id stays. -/
def editOnly (id : ElementId) (edit : Element → Element) (e : Element) : Element :=
  if e.id = id then { edit e with id } else e

theorem editOnly_id (id : ElementId) (edit : Element → Element) (e : Element) :
    (e.editOnly id edit).id = e.id := by
  -- Whatever the change makes of the id, the id that was asked for is put back.
  by_cases he : e.id = id
  · rw [editOnly, if_pos he, he]
  · rw [editOnly, if_neg he]

end Element

/-- What follows a guard happens if the condition holds. -/
theorem guard_bind {α : Type} {c : Prop} [Decidable c] (f : Unit → Option α) :
    (guard c : Option Unit).bind f = if c then f () else none := by
  unfold guard
  split
  · rfl
  · rfl

theorem guard_eq_some {c : Prop} [Decidable c] {u : Unit} :
    (guard c : Option Unit) = some u ↔ c := by
  by_cases h : c
  · simp [guard, h]
  · simp [guard, h]

namespace Project

/-! ### Searches and changes in place -/

/-- The first screen with an id. -/
def screen? (p : Project) (id : ScreenId) : Option Screen :=
  p.screens.find? (·.id = id)

/-- The first element with an id, on whatever screen. -/
def element? (p : Project) (id : ElementId) : Option Element :=
  p.elements.find? (·.id = id)

/-- The first screen that has an element with an id. -/
def owner? (p : Project) (id : ElementId) : Option Screen :=
  p.screens.find? (id ∈ ·.elementIds)

/-- Change every screen with an id. -/
def updateScreen (p : Project) (id : ScreenId) (change : Screen → Screen) : Project :=
  { p with screens := p.screens.map fun s => if s.id = id then change s else s }

/-- Change every element. -/
def updateElements (p : Project) (change : Element → Element) : Project :=
  { p with screens := p.screens.map fun s => { s with elements := s.elements.map change } }

/-- Take an element off whatever screen has it. -/
def dropElement (p : Project) (id : ElementId) : Project :=
  { p with screens := p.screens.map (·.without id) }

/-! ### Screens -/

/-- Append a screen and make it active; also returns its record. -/
def addScreen (p : Project) (name? : Option String) : ScreenRecord × Project :=
  let (id, numbering) := p.counters.issueScreen p.screenIds
  let s := Screen.new id (name?.getD ("Tela_" ++ (p.screens.length + 1).repr))
  (s.record, { p with
    screens := p.screens ++ [s], active := id, screenSeq := numbering.screens.next })

/-- Remove a screen with its elements, unless it is the only one. -/
def removeScreen (p : Project) (id : ScreenId) : Option Project := do
  let s ← p.screen? id
  guard (1 < p.screens.length)
  let screens := p.screens.filter (·.id ≠ id)
  return { p with
    screens
    selected := p.selected.filter (· ∉ s.elementIds)
    active := if p.active = id then (screens.map (·.id)).headD p.active else p.active }

/-- Make a screen active and select no element. -/
def selectScreen (p : Project) (id : ScreenId) : Option Project :=
  if id ∈ p.screenIds then some { p with active := id, selected := none } else none

/-- Take a screen out of the list and put it back at a position, or at the end
    when the list is shorter. -/
def reorderScreen (p : Project) (id : ScreenId) (target : Nat) : Option Project := do
  let s ← p.screen? id
  let rest := p.screens.filter (·.id ≠ id)
  return { p with screens := rest.insertIdx (min target rest.length) s }

/-- Change what there is to a screen besides its elements. -/
def editScreen (p : Project) (id : ScreenId) (edit : ScreenRecord → ScreenRecord) :
    Option Project := do
  guard (id ∈ p.screenIds)
  return p.updateScreen id (·.edit edit)

/-! ### Elements -/

/-- An element as it is when it is the next one on a screen that has `count`. -/
def newElement (id : ElementId) (kind : Primitive) (asset : Option String) (count : Nat) :
    Element :=
  { id, kind, asset
    name := kind.tag ++ "_" ++ (count + 1).repr
    x := Workspace.cascade count
    y := Workspace.cascade count
    w := if kind.isCircle then 60 else 80
    h := if kind.isCircle then 60 else 40 }

/-- Append an element to a screen and select it; also returns it. -/
def addElement (p : Project) (screen : ScreenId) (kind : Primitive) (asset : Option String) :
    Option (Element × Project) := do
  let s ← p.screen? screen
  let (id, numbering) := p.counters.issueElement p.elementIds
  let e := newElement id kind asset s.elements.length
  return (e, { p.updateScreen screen (·.push e) with
    selected := some id, elementSeq := numbering.elements.next })

/-- Remove an element from whatever screen has it. -/
def removeElement (p : Project) (id : ElementId) : Option Project := do
  guard (id ∈ p.elementIds)
  return { p.dropElement id with selected := p.selected.filter (· ≠ id) }

/-- Take an element off its screen and append it to a different one. -/
def moveElement (p : Project) (id : ElementId) (target : ScreenId) : Option Project := do
  let e ← p.element? id
  let owner ← p.owner? id
  guard (target ∈ p.screenIds ∧ owner.id ≠ target)
  return (p.dropElement id).updateScreen target (·.push e)

/-- Take an element out of the paint order of its own screen and put it back at a
    position, or in front when there are fewer. -/
def reorderElement (p : Project) (screen : ScreenId) (id : ElementId) (target : Nat) :
    Option Project := do
  let e ← p.element? id
  let owner ← p.owner? id
  guard (owner.id = screen)
  return p.updateScreen screen (·.reinsert e target)

/-- Change an element; its id stays. -/
def editElement (p : Project) (id : ElementId) (edit : Element → Element) : Option Project := do
  guard (id ∈ p.elementIds)
  return p.updateElements (·.editOnly id edit)

/-! ### Assets -/

/-- Append an asset under an identifier of its own; also returns it as it is
    stored. -/
def addAsset (p : Project) (asset : Asset) : Asset × Project :=
  let name := Text.freshName (Text.identifier asset.name "asset") p.assetNames
  ({ asset with name }, { p with assets := p.assets ++ [{ asset with name }] })

/-- A screen that refers to an asset neither itself nor through an element; the
    picture of its background goes with the reference. -/
def forgetAsset (name : String) (s : Screen) : Screen :=
  let elements := s.elements.map fun e =>
    if e.asset = some name then { e with asset := none } else e
  if s.backgroundAsset = some name then
    { s with backgroundAsset := none, background := none, elements }
  else { s with elements }

/-- Remove the first asset with a name, and every reference to the name. -/
def removeAsset (p : Project) (name : String) : Option Project := do
  guard (name ∈ p.assetNames)
  return { p with
    assets := p.assets.eraseP (·.name == name)
    screens := p.screens.map (forgetAsset name) }

/-! ### Templates and operations -/

/-- Append a styled element to a screen, if there is that screen. -/
def addStyled (screen : ScreenId) (p : Project) (styling : Styling) : Project :=
  match p.addElement screen styling.kind none with
  | none => p
  | some (e, p) => (p.editElement e.id (Template.restyle styling)).getD p

/-- Seed a screen from a template. -/
def seed (p : Project) (screen : ScreenId) (template : Template) : Project :=
  let p := template.stylings.foldl (addStyled screen) p
  template.furtherScreens.foldl (fun p name => (p.addScreen (some name)).2) p

/-- Answer whether an operation was carried out, and stay if it was not. -/
def orStay (p : Project) (result : Option Project) : Answer × Project :=
  (.done result.isSome, result.getD p)

/-- Perform an operation. There is nothing to rebuild, so that is always right. -/
def perform (p : Project) : Operation → Answer × Project
  | .addScreen name? =>
    let (record, p) := p.addScreen name?
    (.screen record, p)
  | .removeScreen id => p.orStay (p.removeScreen id)
  | .selectScreen id => p.orStay (p.selectScreen id)
  | .reorderScreen id target => p.orStay (p.reorderScreen id target)
  | .editScreen id edit => p.orStay (p.editScreen id edit)
  | .addElement screen kind asset =>
    match p.addElement screen kind asset with
    | some (e, p) => (.element (some e), p)
    | none => (.element none, p)
  | .removeElement id => p.orStay (p.removeElement id)
  | .moveElement id target => p.orStay (p.moveElement id target)
  | .reorderElement screen id target => p.orStay (p.reorderElement screen id target)
  | .editElement id edit => p.orStay (p.editElement id edit)
  | .addAsset asset =>
    let (asset, p) := p.addAsset asset
    (.asset asset, p)
  | .removeAsset name => p.orStay (p.removeAsset name)
  | .rebuild => (.done true, p)
  | .applyTemplate screen template => (.nothing, p.seed screen template)

/-- Perform operations in order and forget the answers. -/
def run (p : Project) (operations : List Operation) : Project :=
  operations.foldl (fun p operation => (p.perform operation).2) p

end Project

end PanelSketch
