import PanelSketch.Text.Blank

/-!
# Drawing Primitives

Every element of a screen is drawn by one call of the graphics library, and the
name of that call is the element's type in a project file. Files and people may
write the name in any case and with blanks around it; it is always written back
in its own spelling.

## Main definitions

* `Primitive`: The drawing calls an element can stand for.
* `Primitive.tag`: The name of the call.
* `Primitive.parse?`: The primitive a text names.

## Theorems

* `Primitive.mem_all`: The list of primitives is complete.
* `Primitive.parse?_tag`: Every primitive is named by its own tag.
-/

namespace PanelSketch

/-- A drawing call that an element can stand for. -/
inductive Primitive where
  | fillRect
  | drawRect
  | fillRoundRect
  | drawRoundRect
  | fillCircle
  | drawCircle
  | fillEllipse
  | drawEllipse
  | fillTriangle
  | drawTriangle
  | drawLine
  | drawFastHLine
  | drawFastVLine
  | drawPixel
  | drawString
  | drawCentreString
  | fillScreen
  | pushImage
  deriving DecidableEq, Repr

namespace Primitive

/-- All primitives. -/
def all : List Primitive :=
  [fillRect, drawRect, fillRoundRect, drawRoundRect, fillCircle, drawCircle, fillEllipse,
   drawEllipse, fillTriangle, drawTriangle, drawLine, drawFastHLine, drawFastVLine, drawPixel,
   drawString, drawCentreString, fillScreen, pushImage]

/-- The name of the drawing call. -/
def tag : Primitive → String
  | fillRect => "fillRect"
  | drawRect => "drawRect"
  | fillRoundRect => "fillRoundRect"
  | drawRoundRect => "drawRoundRect"
  | fillCircle => "fillCircle"
  | drawCircle => "drawCircle"
  | fillEllipse => "fillEllipse"
  | drawEllipse => "drawEllipse"
  | fillTriangle => "fillTriangle"
  | drawTriangle => "drawTriangle"
  | drawLine => "drawLine"
  | drawFastHLine => "drawFastHLine"
  | drawFastVLine => "drawFastVLine"
  | drawPixel => "drawPixel"
  | drawString => "drawString"
  | drawCentreString => "drawCentreString"
  | fillScreen => "fillScreen"
  | pushImage => "pushImage"

/-- A text in small letters and without the blanks around it. -/
def fold (text : String) : List Char :=
  (Text.trimChars text.toList).map Char.toLower

/-- The primitive that a text names, in any case and with blanks around it. -/
def parse? (text : String) : Option Primitive :=
  let name := fold text
  all.find? fun p => fold p.tag == name

/-- Whether the primitive is a circle. -/
def isCircle : Primitive → Bool
  | fillCircle | drawCircle => true
  | _ => false

/-- Whether the primitive shows a text. -/
def isText : Primitive → Bool
  | drawString | drawCentreString => true
  | _ => false

/-- The complaint about a text that names no primitive. -/
def unknownMessage (text : String) : String :=
  "Unknown element type: " ++ text

theorem mem_all (p : Primitive) : p ∈ all := by
  cases p <;> decide

theorem parse?_tag (p : Primitive) : parse? p.tag = some p := by
  cases p <;> decide +kernel

end Primitive

end PanelSketch
