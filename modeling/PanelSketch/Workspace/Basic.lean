import PanelSketch.Workspace.Numbering
import PanelSketch.Workspace.Placement

/-!
# Workspaces

A project that is being edited. Elements live in one store under their ids,
screens hold the ids of their elements from back to front, and a placement
answers which screen owns an element and where a screen stands, without
searching.

The nested project that a file holds is one view of a workspace: `project`
puts every element back into its screen.

## Main definitions

* `ScreenInfo`, `ScreenRecord`: A screen without elements, and with their ids.
* `Workspace`: A project being edited.
* `Workspace.project`: The nested project.
* `Workspace.describe`: The placement that the lists of ids describe.
-/

namespace PanelSketch

/-- What there is to a screen besides its elements. -/
structure ScreenInfo where
  id : ScreenId
  name : String
  background : Option String := none
  backgroundAsset : Option String := none
  backgroundColor : Option String := some "#000000"
  deriving DecidableEq, Repr

/-- A screen with the ids of its elements from back to front. -/
structure ScreenRecord extends ScreenInfo where
  elementIds : List ElementId := []
  deriving DecidableEq, Repr

/-- A screen without its elements. -/
def Screen.info (s : Screen) : ScreenInfo :=
  { id := s.id, name := s.name, background := s.background
    backgroundAsset := s.backgroundAsset, backgroundColor := s.backgroundColor }

/-- A project being edited. -/
structure Workspace where
  screens : List ScreenRecord
  elements : Std.ExtTreeMap ElementId Element
  assets : List Asset
  active : ScreenId
  selected : Option ElementId
  numbering : Numbering
  placement : Placement
  deriving DecidableEq

namespace Workspace

/-- The ids of the screens in display order. -/
def screenIds (w : Workspace) : List ScreenId :=
  w.screens.map (·.id)

/-- Every screen id with the ids of its elements. -/
def outline (w : Workspace) : List (ScreenId × List ElementId) :=
  w.screens.map fun s => (s.id, s.elementIds)

/-- The placement that the lists of ids describe. -/
def describe (w : Workspace) : Placement :=
  Placement.ofScreens w.outline

/-- Take the placement from the lists of ids. -/
def rebuild (w : Workspace) : Workspace :=
  { w with placement := w.describe }

/-- The record of a screen. -/
def screen? (w : Workspace) (id : ScreenId) : Option ScreenRecord :=
  (w.placement.position? id).bind fun position => w.screens[position]?

/-- The element with an id. No element has the empty id. -/
def element? (w : Workspace) (id : ElementId) : Option Element :=
  if id.isEmpty then none else w.elements[id]?

/-- The elements of a record from back to front. -/
def elementsOf (w : Workspace) (record : ScreenRecord) : List Element :=
  record.elementIds.filterMap fun id => w.elements[id]?

/-- A record with its elements put back. -/
def assemble (w : Workspace) (record : ScreenRecord) : Screen :=
  { id := record.id, name := record.name, background := record.background
    backgroundAsset := record.backgroundAsset, backgroundColor := record.backgroundColor
    elements := w.elementsOf record }

/-- A screen with its elements. -/
def snapshot? (w : Workspace) (id : ScreenId) : Option Screen :=
  (w.screen? id).map w.assemble

/-- The nested project. -/
def project (w : Workspace) : Project :=
  { screens := w.screens.map w.assemble
    active := w.active
    selected := w.selected
    assets := w.assets
    elementSeq := w.numbering.elements.next
    screenSeq := w.numbering.screens.next }

end Workspace

end PanelSketch
