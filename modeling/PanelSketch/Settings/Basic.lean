/-!
# Settings

What an export depends on besides the project: the panel it is drawn on and the
names of the files it is written to. Every setting has a value from the start,
so a configuration only ever has to name what it changes.

## Main definitions

* `Panel`: Size, rotation and corner radius.
* `FileNames`: The names in an export.
* `Settings`: Both together.
* `FileNames.sketchFile`: The file name of the sketch.
-/

namespace PanelSketch

/-- The panel that screens are drawn on. -/
structure Panel where
  width : UInt32 := 240
  height : UInt32 := 240
  /-- The rotation that the panel is set to. -/
  rotation : UInt8 := 0
  /-- The radius of rounded corners. -/
  cornerRadius : UInt32 := 8
  deriving DecidableEq, Repr

/-- The names of the files in an export. -/
structure FileNames where
  sketch : String := "ScreenForge_Project"
  header : String := "images.h"
  /-- The directory of the image files. -/
  dataDir : String := "data"
  deriving DecidableEq, Repr

/-- The file name of the sketch. -/
def FileNames.sketchFile (names : FileNames) : String :=
  names.sketch ++ ".ino"

/-- Everything an export depends on besides the project. -/
structure Settings where
  panel : Panel := {}
  files : FileNames := {}
  deriving DecidableEq, Repr

end PanelSketch
