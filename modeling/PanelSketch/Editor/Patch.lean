import Std.Data.ExtTreeMap
import PanelSketch.Json.Value
import PanelSketch.Text.Blank
import PanelSketch.Text.Numeral
import PanelSketch.Workspace.Basic

/-!
# Patches

A patch is a loosely typed object: its keys name fields in any case, and its
values are texts or numbers. The keys are visited in the order of their code
points, so of two keys that name one field the one that comes later in that
order has the last word.

Every value is first turned into text. Null has none, and neither has a list or
an object. A field then takes the text as it is, reads a number from it, or
finds it unusable and keeps what it had.

## Main definitions

* `Patch`: An object with its keys in order.
* `patchText`: The text of a value.
* `ScreenInfo.patch`, `Element.patch`: A screen or an element after a patch.
-/

namespace PanelSketch

/-- A loosely typed object with its keys in the order of their code points. -/
abbrev Patch := Std.ExtTreeMap String Json.Value

/-- The patch that an object describes; of two members with one key the later
    counts. -/
def Patch.ofMembers (members : List (String × Json.Value)) : Patch :=
  members.foldl (fun patch (key, value) => patch.insert key value) ∅

/-- The text of a value: a text itself, numbers and booleans as a document
    spells them. -/
def patchText : Json.Value → Option String
  | .text s => some s
  | .number n => some n.text
  | .boolean true => some "true"
  | .boolean false => some "false"
  | .null | .list _ | .object _ => none

/-- A text that is not empty. -/
def patchLabel (v : Json.Value) : Option String :=
  (patchText v).filter (· ≠ "")

/-- A coordinate, written as an integer with blanks around it. -/
def patchPixels (v : Json.Value) : Option Int32 :=
  (patchText v).bind fun s => Text.pixels? (Text.trim s)

/-- A size, which is positive. -/
def patchSize (v : Json.Value) : Option Int32 :=
  (patchPixels v).filter (0 < ·)

/-- A screen after one member of a patch. -/
def ScreenInfo.patchField (s : ScreenInfo) (key : String) (v : Json.Value) : ScreenInfo :=
  match key.toLower with
  | "name" => { s with name := (patchLabel v).getD s.name }
  | "backgroundcolor" => { s with backgroundColor := patchText v }
  | _ => s

/-- A screen after a patch. -/
def ScreenInfo.patch (p : Patch) (s : ScreenInfo) : ScreenInfo :=
  p.toList.foldl (fun s (key, v) => s.patchField key v) s

/-- An element after one member of a patch. -/
def Element.patchField (e : Element) (key : String) (v : Json.Value) : Element :=
  match key.toLower with
  | "name" => { e with name := (patchLabel v).getD e.name }
  | "color" => { e with color := (patchLabel v).getD e.color }
  | "asset" => { e with asset := patchLabel v }
  | "targetscreenid" => { e with target := patchText v }
  | "x" => { e with x := (patchPixels v).getD e.x }
  | "y" => { e with y := (patchPixels v).getD e.y }
  | "w" => { e with w := (patchSize v).getD e.w }
  | "h" => { e with h := (patchSize v).getD e.h }
  | _ => e

/-- An element after a patch. -/
def Element.patch (p : Patch) (e : Element) : Element :=
  p.toList.foldl (fun e (key, v) => e.patchField key v) e

end PanelSketch
