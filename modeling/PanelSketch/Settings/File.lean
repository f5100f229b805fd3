import PanelSketch.Settings.Basic
import PanelSketch.Toml.Printer

/-!
# Settings as a File

Settings are written as a TOML document with a table for the panel and a table
for the names of the files. Every setting is written, so the file doubles as a
list of what can be set.

## Main definitions

* `Settings.toToml`: The document of settings.
-/

namespace PanelSketch

/-- A line that sets a key. -/
def settingLine (key value : String) : String :=
  key ++ " = " ++ value ++ "\n"

/-- The members of the table for the panel. -/
def Panel.toToml (panel : Panel) : String :=
  settingLine "width" panel.width.toNat.repr
    ++ settingLine "height" panel.height.toNat.repr
    ++ settingLine "rotation" panel.rotation.toNat.repr
    ++ settingLine "corner_radius" panel.cornerRadius.toNat.repr

/-- The members of the table for the names of the files. -/
def FileNames.toToml (names : FileNames) : String :=
  settingLine "sketch_name" (Toml.quote names.sketch)
    ++ settingLine "header_name" (Toml.quote names.header)
    ++ settingLine "data_dir" (Toml.quote names.dataDir)

/-- The document of settings. -/
def Settings.toToml (settings : Settings) : String :=
  "[display]\n" ++ settings.panel.toToml ++ "\n[export]\n" ++ settings.files.toToml

end PanelSketch
