import Std.Data.ExtTreeMap
import PanelSketch.Project.Basic

/-!
# Placement

Where things are: the position of every screen in the list of screens, and the
screen that owns every element. Both can be read off the lists of ids that
screens hold, and `ofScreens` does so. Operations keep a placement up to date
piece by piece instead, which is only right as long as the two agree.

Maps are compared by what they answer, so two placements are equal exactly when
they place everything alike.

## Main definitions

* `Placement`: Positions of screens and owners of elements.
* `Placement.ofScreens`: The placement that lists of ids describe.
* `Placement.reposition`, `own`, `disown`: Changes of one piece.

## Theorems

* `Placement.owner?_own`: An element that has been given an owner has it.
-/

namespace PanelSketch

/-- The position of every screen and the owner of every element. -/
structure Placement where
  positions : Std.ExtTreeMap ScreenId Nat
  owners : Std.ExtTreeMap ElementId ScreenId
  deriving DecidableEq

namespace Placement

/-- The positions of screens in an order; of two places for one screen the later
    counts. -/
def positionsOf (order : List ScreenId) : Std.ExtTreeMap ScreenId Nat :=
  order.zipIdx.foldl (fun m (id, position) => m.insert id position) ∅

/-- The owners of elements; of two owners of one element the later counts. -/
def ownersOf (screens : List (ScreenId × List ElementId)) : Std.ExtTreeMap ElementId ScreenId :=
  screens.foldl (fun m (screen, elements) => elements.foldl (·.insert · screen) m) ∅

/-- The placement that screens with their lists of element ids describe. -/
def ofScreens (screens : List (ScreenId × List ElementId)) : Placement :=
  ⟨positionsOf (screens.map (·.1)), ownersOf screens⟩

/-- Take the positions of screens from an order. -/
def reposition (order : List ScreenId) (p : Placement) : Placement :=
  { p with positions := positionsOf order }

/-- Give an element an owner. -/
def own (element : ElementId) (screen : ScreenId) (p : Placement) : Placement :=
  { p with owners := p.owners.insert element screen }

/-- Take an element from its owner. -/
def disown (element : ElementId) (p : Placement) : Placement :=
  { p with owners := p.owners.erase element }

/-- The position of a screen. -/
def position? (p : Placement) (screen : ScreenId) : Option Nat :=
  p.positions[screen]?

/-- The owner of an element. -/
def owner? (p : Placement) (element : ElementId) : Option ScreenId :=
  p.owners[element]?

/-- Whether a screen has a position. -/
def hasScreen (p : Placement) (screen : ScreenId) : Bool :=
  p.positions.contains screen

/-- Whether an element has an owner. -/
def hasElement (p : Placement) (element : ElementId) : Bool :=
  p.owners.contains element

theorem owner?_own (element : ElementId) (screen : ScreenId) (p : Placement) :
    (p.own element screen).owner? element = some screen := by
  simp [owner?, own]

end Placement

end PanelSketch
