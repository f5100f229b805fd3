import PanelSketch.Sketch.Statement
import PanelSketch.Sketch.Symbols
import PanelSketch.Settings.Basic

/-!
# Drawing Elements and Backgrounds

An element is a bounding box and a primitive. The primitive decides which call
draws it and how centres, radii and corners follow from the box. All of that is
computed on exact integers, with quotients cut off toward zero, so no box is
too large for its corners.

Images need a symbol. An image element whose reference leads nowhere becomes a
remark, and a screen whose background image cannot be found falls back to its
background colour.

## Main definitions

* `Box`: A bounding box of exact integers.
* `Element.call`: The call that draws a plain element.
* `Element.lines`: The lines that draw any element.
* `Screen.backgroundLines`: The lines that draw a background.

## Theorems

* `render_panelCall`: The text of a call of the graphics library.
* `Element.lines_ne_nil`: Every element is drawn by some line.
-/

namespace PanelSketch

/-- A bounding box of exact integers. -/
structure Box where
  x : Int
  y : Int
  w : Int
  h : Int
  deriving DecidableEq, Repr

namespace Box

/-- The first coordinate of the centre. -/
def centerX (b : Box) : Int := b.x + b.w.tdiv 2

/-- The second coordinate of the centre. -/
def centerY (b : Box) : Int := b.y + b.h.tdiv 2

/-- The radius of a circle in the box. -/
def radius (b : Box) : Int := (min b.w b.h).tdiv 2

/-- The right edge. -/
def right (b : Box) : Int := b.x + b.w

/-- The lower edge. -/
def bottom (b : Box) : Int := b.y + b.h

/-- The size of a text that fills the height of the box, at least 1. -/
def textSize (b : Box) : Int := max (b.h.tdiv 8) 1

end Box

/-- The bounding box of an element. -/
def Element.box (e : Element) : Box :=
  ⟨e.x.toInt, e.y.toInt, e.w.toInt, e.h.toInt⟩

/-- The colour of an element. -/
def Element.paint (e : Element) : Rgb565 :=
  Rgb565.ofText e.color

/-- A call of the graphics library. -/
def panelCall (name : String) (arguments : List Argument) : Call :=
  ⟨"tft." ++ name, arguments⟩

/-- The numbers among the arguments of a primitive that needs no more than its
    box, in order; the other primitives have none. -/
def Primitive.numbers (p : Primitive) (cornerRadius : Nat) (b : Box) : List Int :=
  match p with
  | .fillRect | .drawRect => [b.x, b.y, b.w, b.h]
  | .fillRoundRect | .drawRoundRect => [b.x, b.y, b.w, b.h, cornerRadius]
  | .fillCircle | .drawCircle => [b.centerX, b.centerY, b.radius]
  | .fillEllipse | .drawEllipse => [b.centerX, b.centerY, b.w.tdiv 2, b.h.tdiv 2]
  | .fillTriangle | .drawTriangle => [b.centerX, b.y, b.x, b.bottom, b.right, b.bottom]
  | .drawLine => [b.x, b.y, b.right, b.bottom]
  | .drawFastHLine => [b.x, b.y, b.w]
  | .drawFastVLine => [b.x, b.y, b.h]
  | .drawPixel => [b.x, b.y]
  | .fillScreen | .drawString | .drawCentreString | .pushImage => []

/-- The font that centred texts are set in. -/
def centredFont : Int := 2

/-- The call that draws an image in a box. -/
def imageCall (asset : Asset) (symbol : String) (b : Box) : Call :=
  match asset.storage with
  | .flash =>
    panelCall "pushImage" [.number b.x, .number b.y, .number b.w, .number b.h, .symbol symbol]
  | .littleFs =>
    ⟨"TJpgDec.drawFsJpg", [.number b.x, .number b.y, .imageFile symbol, .symbol "LittleFS"]⟩

/-- A reference that is not empty. -/
def reference? (name? : Option String) : Option String :=
  name?.filter (· ≠ "")

/-- The line that draws an image element. -/
def Element.imageLine (symbols : AssetSymbols) (e : Element) : Line :=
  match reference? e.asset with
  | none => .remark "pushImage skipped: no asset"
  | some name =>
    match symbols.resolve? name with
    | some (asset, symbol) => .calls [imageCall asset symbol e.box]
    | none => .remark ("pushImage skipped: asset '" ++ Text.escape name ++ "' not found")

/-- The lines that draw an element. -/
def Element.lines (symbols : AssetSymbols) (cornerRadius : Nat) (e : Element) : List Line :=
  let b := e.box
  let style := Line.calls
    [panelCall "setTextColor" [.color e.paint], panelCall "setTextSize" [.number b.textSize]]
  match e.kind with
  | .pushImage => [e.imageLine symbols]
  | .drawString =>
    [style, .calls [panelCall e.kind.tag [.label e.name, .number b.x, .number b.y]]]
  | .drawCentreString =>
    [style, .calls [panelCall e.kind.tag
      [.label e.name, .number b.centerX, .number b.y, .number centredFont]]]
  | kind =>
    [.calls [panelCall kind.tag ((kind.numbers cornerRadius b).map .number ++ [.color e.paint])]]

/-- The lines of an element with the remark that names it. -/
def Element.block (symbols : AssetSymbols) (cornerRadius : Nat) (e : Element) : List Line :=
  .remark ("Element: " ++ e.name) :: e.lines symbols cornerRadius

/-- The line that fills a screen with its background colour, if it has one. -/
def Screen.fillLines (s : Screen) : List Line :=
  match reference? s.backgroundColor with
  | some color => [.calls [panelCall "fillScreen" [.color (Rgb565.ofText color)]]]
  | none => []

/-- The lines that draw the background of a screen: its image if that can be
    found, else its colour, else nothing. -/
def Screen.backgroundLines (symbols : AssetSymbols) (panel : Panel) (s : Screen) : List Line :=
  match (reference? s.backgroundAsset).bind symbols.resolve? with
  | some (asset, symbol) =>
    [.calls [imageCall asset symbol ⟨0, 0, panel.width.toNat, panel.height.toNat⟩]]
  | none => s.fillLines

theorem render_panelCall (name : String) (arguments : List Argument) :
    (Line.calls [panelCall name arguments]).render
      = "    tft." ++ name ++ "(" ++ ", ".intercalate (arguments.map Argument.render) ++ ");" := by
  have hstem : "    tft." = indent ++ "tft." := by decide
  rw [hstem, Line.render_call, panelCall]
  simp only [String.append_assoc]

theorem Element.lines_ne_nil (symbols : AssetSymbols) (cornerRadius : Nat) (e : Element) :
    e.lines symbols cornerRadius ≠ [] := by
  unfold Element.lines
  cases e.kind <;> simp

end PanelSketch
