import PanelSketch.Sketch.Basic

/-!
# Image Headers

The header that a sketch includes declares one array for every asset in program
memory, under the symbol of the asset. The arrays hold a placeholder of one
value, which is enough for the sketch to compile.

## Main definitions

* `ImageArray`, `Header`: A header in parts.
* `Header.ofProject`: The header of a project.
* `Header.render`: The text of a header.

## Theorems

* `Header.length_arrays`: There is one array for every asset in program memory.
-/

namespace PanelSketch

/-- The declaration of one image. -/
structure ImageArray where
  symbol : String
  width : UInt32
  height : UInt32
  deriving DecidableEq, Repr

/-- A header in parts. -/
structure Header where
  /-- The name that keeps the header from being included twice. -/
  guardName : String
  arrays : List ImageArray
  deriving DecidableEq, Repr

namespace Header

/-- The guard that belongs to a file name. -/
def guardOf (fileName : String) : String :=
  (Text.identifier fileName "images_h").toUpper

/-- The header of a project. -/
def ofProject (settings : Settings) (p : Project) : Header :=
  { guardName := guardOf settings.files.header
    arrays := ((AssetSymbols.ofAssets p.assets).inStorage .flash).map fun (asset, symbol) =>
      ⟨symbol, asset.width, asset.height⟩ }

/-- The declaration of an image, line by line. -/
def arrayLines (image : ImageArray) : List String :=
  ["// Image: " ++ image.symbol ++ " (" ++ image.width.toNat.repr ++ "x" ++ image.height.toNat.repr
     ++ ")",
   "const uint16_t " ++ image.symbol ++ "[] PROGMEM = \x7b",
   "    // RGB565 data placeholder",
   "    0x0000",
   "\x7d;",
   ""]

/-- The text of a header, line by line. -/
def textLines (header : Header) : List String :=
  ["#ifndef " ++ header.guardName, "#define " ++ header.guardName, "#include <pgmspace.h>", ""]
    ++ header.arrays.flatMap arrayLines ++ ["#endif"]

/-- The text of a header. -/
def render (header : Header) : String :=
  Sketch.joinLines header.textLines

theorem length_arrays (settings : Settings) (p : Project) :
    (ofProject settings p).arrays.length
      = ((AssetSymbols.ofAssets p.assets).inStorage .flash).length := by
  simp [ofProject]

end Header

end PanelSketch
