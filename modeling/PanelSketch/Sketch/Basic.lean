import PanelSketch.Sketch.Drawing

/-!
# Sketches

A sketch draws a project. It has a fixed opening, one routine for every screen
in display order, and a fixed closing that sets the panel up. Each routine is
named after its screen, by names from one pool, and holds the background
followed by the elements from back to front.

The text of a sketch depends on the project and the settings and on nothing
else.

## Main definitions

* `Routine`, `Sketch`: A sketch in parts.
* `Sketch.ofProject`: The sketch of a project.
* `Sketch.textLines`, `Sketch.render`: The text of a sketch.

## Theorems

* `Sketch.length_routines`: There is one routine for every screen.
-/

namespace PanelSketch

/-- The routine that draws a screen. -/
structure Routine where
  /-- The name of the screen in the sketch. -/
  screen : String
  lines : List Line
  deriving DecidableEq, Repr

/-- A sketch in parts. -/
structure Sketch where
  /-- The header file that declares the images. -/
  header : String
  rotation : UInt8
  routines : List Routine
  deriving DecidableEq, Repr

/-- The name of a routine. -/
def Routine.name (screen : String) : String :=
  "draw_" ++ screen

/-- The lines of a screen. -/
def Screen.lines (symbols : AssetSymbols) (panel : Panel) (s : Screen) : List Line :=
  s.backgroundLines symbols panel
    ++ s.elements.flatMap fun e => e.block symbols panel.cornerRadius.toNat

/-- The text of a routine, line by line. -/
def Routine.textLines (r : Routine) : List String :=
  ("void " ++ Routine.name r.screen ++ "() \x7b") :: r.lines.map Line.render ++ ["\x7d", ""]

namespace Sketch

/-- The names that screens go by in a sketch. -/
def screenNames (screens : List Screen) : List String :=
  (⟨"screen", []⟩ : Text.NamePool).claimAll (screens.map (·.name))

/-- The sketch of a project. -/
def ofProject (settings : Settings) (p : Project) : Sketch :=
  let symbols := AssetSymbols.ofAssets p.assets
  { header := settings.files.header
    rotation := settings.panel.rotation
    routines := List.zipWith (fun name s => ⟨name, s.lines symbols settings.panel⟩)
      (screenNames p.screens) p.screens }

/-- The lines before the first routine. -/
def openingLines (header : String) : List String :=
  ["#include <TFT_eSPI.h>",
   "#include <LittleFS.h>",
   "#include <TJpg_Decoder.h>",
   "#include \"" ++ header ++ "\"",
   "",
   "TFT_eSPI tft = TFT_eSPI();",
   "",
   "bool tft_output(int16_t x, int16_t y, uint16_t w, uint16_t h, uint16_t* bitmap) \x7b",
   "    if (y >= tft.height()) return false;",
   "    tft.pushImage(x, y, w, h, bitmap);",
   "    return true;",
   "\x7d",
   ""]

/-- The lines behind the last routine. -/
def closingLines (rotation : UInt8) : List String :=
  ["void setup() \x7b",
   "    Serial.begin(115200);",
   "    tft.init();",
   "    tft.setRotation(" ++ rotation.toNat.repr ++ ");",
   "    if(!LittleFS.begin()) \x7b Serial.println(\"LittleFS Mount Failed\"); \x7d",
   "    TJpgDec.setJpgScale(1);",
   "    TJpgDec.setCallback(tft_output);",
   "\x7d",
   "",
   "void loop() \x7b /* Logic here */ \x7d"]

/-- The text of a sketch, line by line. -/
def textLines (sketch : Sketch) : List String :=
  openingLines sketch.header ++ sketch.routines.flatMap Routine.textLines
    ++ closingLines sketch.rotation

/-- Lines as one text, each with a line feed behind it. -/
def joinLines (lines : List String) : String :=
  String.join (lines.map (· ++ "\n"))

/-- The text of a sketch. -/
def render (sketch : Sketch) : String :=
  joinLines sketch.textLines

theorem length_routines (settings : Settings) (p : Project) :
    (ofProject settings p).routines.length = p.screens.length := by
  simp [ofProject, screenNames, Text.NamePool.length_claimAll]

end Sketch

end PanelSketch
