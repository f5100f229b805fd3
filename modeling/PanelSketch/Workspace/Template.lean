import PanelSketch.Workspace.Edit

/-!
# Screen Templates

A template seeds a screen with a few styled elements. The menu template also
appends a second screen, whether or not there is a screen to seed.

## Main definitions

* `Template`: The templates there are.
* `Template.parse?`: The template a text names, or its cleaned name.
* `Template.apply`: A workspace after a screen has been seeded.
-/

namespace PanelSketch

/-- A way to seed a screen. -/
inductive Template where
  | loading
  | menu
  deriving DecidableEq, Repr

/-- How an element of a template differs from a new element. -/
structure Styling where
  kind : Primitive
  name : Option String := none
  color : Option String := none
  deriving DecidableEq, Repr

namespace Template

/-- The template that a text names, in any case and with blanks around it; the
    error is the name without blanks and in small letters. -/
def parse? (text : String) : Except String Template :=
  match (Text.trim text).toLower with
  | "loading" => .ok loading
  | "menu" => .ok menu
  | other => .error other

/-- The complaint about a name that no template has. -/
def unknownMessage (name : String) : String :=
  "unknown template '" ++ name ++ "'"

/-- The elements of a template from back to front. -/
def stylings : Template → List Styling
  | loading =>
    [{ kind := .fillScreen, color := some "#000000" },
     { kind := .drawCentreString, name := some "Loading..." },
     { kind := .drawRect, name := some "ProgressBarBorder" }]
  | menu => [{ kind := .fillRect, name := some "HeaderBg" }]

/-- The screens that a template appends, by name. -/
def furtherScreens : Template → List String
  | loading => []
  | menu => ["SubMenu"]

/-- An element in a style. -/
def restyle (styling : Styling) (e : Element) : Element :=
  { e with name := styling.name.getD e.name, color := styling.color.getD e.color }

/-- Append a styled element to a screen, if there is that screen. -/
def addStyled (screen : ScreenId) (w : Workspace) (styling : Styling) : Workspace :=
  match w.addElement screen styling.kind none with
  | (none, w) => w
  | (some e, w) => (w.editElement e.id (restyle styling)).2

/-- Seed a screen. -/
def apply (template : Template) (w : Workspace) (screen : ScreenId) : Workspace :=
  let w := template.stylings.foldl (addStyled screen) w
  template.furtherScreens.foldl (fun w name => (w.addScreen (some name)).2) w

end Template

end PanelSketch
