import PanelSketch.Project.Primitive

/-!
# Projects

A project is what a file holds: screens in display order, each with its
elements from back to front, a list of images, the screen being edited, the
element being selected, and the numbers that the next ids will carry.

This is the nested form of a project. It says nothing about how the parts are
found or changed, and it may hold anything a file may hold: ids that repeat,
references that lead nowhere, counters at zero.

Coordinates and sizes are signed words of 32 bits, counters and image sizes
unsigned ones, because files hold exactly those.

## Main definitions

* `Element`, `Screen`, `Asset`, `Project`: The parts and the whole.
* `Project.asset?`: The first asset with a name.

## Theorems

* `Project.asset?_name`: The asset found has the name asked for.
-/

namespace PanelSketch

/-- The name of a screen, unique once a project is loaded. -/
abbrev ScreenId := String

/-- The name of an element, unique in the whole project once it is loaded. -/
abbrev ElementId := String

/-- Tokens that name values resolved elsewhere; they are only carried along. -/
structure Bindings where
  x : Option String := none
  y : Option String := none
  w : Option String := none
  h : Option String := none
  color : Option String := none
  value : Option String := none
  deriving DecidableEq, Repr

/-- The colour of a new element. -/
def defaultColor : String := "#38bdf8"

/-- A drawing primitive in its bounding box. -/
structure Element where
  id : ElementId := ""
  kind : Primitive := .fillRect
  /-- The label, which text elements also show. -/
  name : String := ""
  x : Int32 := 10
  y : Int32 := 10
  w : Int32 := 50
  h : Int32 := 50
  /-- A colour as `#rrggbb` or `#rgb`. -/
  color : String := defaultColor
  /-- The name of the asset that an image element shows. -/
  asset : Option String := none
  /-- The screen to show when the element is tapped. -/
  target : Option ScreenId := none
  bindings : Bindings := {}
  deriving DecidableEq, Repr

/-- A screen with its elements from back to front. -/
structure Screen where
  id : ScreenId := ""
  name : String := ""
  /-- A picture that only the editor shows. -/
  background : Option String := none
  /-- The name of the asset drawn behind everything. -/
  backgroundAsset : Option String := none
  /-- The colour that fills the screen when no asset does. -/
  backgroundColor : Option String := some "#000000"
  elements : List Element := []
  deriving DecidableEq, Repr

/-- Where an image lives on the device. -/
inductive Storage where
  /-- In program memory, as an array of the generated header. -/
  | flash
  /-- As a file of the device's file system. -/
  | littleFs
  deriving DecidableEq, Repr

/-- An image. -/
structure Asset where
  name : String := ""
  dataUrl : String := ""
  width : UInt32 := 240
  height : UInt32 := 240
  kind : String := "image"
  storage : Storage := .flash
  deriving DecidableEq, Repr

/-- A screen as it is when it has just been created. -/
def Screen.new (id : ScreenId) (name : String) : Screen :=
  { id, name }

/-- A whole project; by default a single empty screen. -/
structure Project where
  screens : List Screen := [Screen.new "screen_1" "Home"]
  active : ScreenId := "screen_1"
  selected : Option ElementId := none
  assets : List Asset := []
  /-- The number of the next element id. -/
  elementSeq : UInt32 := 1
  /-- The number of the next screen id. -/
  screenSeq : UInt32 := 2
  deriving DecidableEq, Repr

namespace Project

/-- The first asset with a name. -/
def asset? (p : Project) (name : String) : Option Asset :=
  p.assets.find? (·.name == name)

/-- The elements of all screens in reading order. -/
def elements (p : Project) : List Element :=
  p.screens.flatMap (·.elements)

/-- How many elements there are on all screens. -/
def elementCount (p : Project) : Nat :=
  p.elements.length

theorem asset?_name {p : Project} {name : String} {a : Asset} (h : p.asset? name = some a) :
    a.name = name := by
  simpa using List.find?_some h

end Project

end PanelSketch
