import PanelSketch.Settings.Basic
import PanelSketch.Settings.Configuration
import PanelSketch.Settings.Fault
import PanelSketch.Text.Visible

/-!
# Settings from a Configuration

Settings are read from a configuration with goodwill. A number may be written
as a text, a switch or a fraction, and a name as a number. What has no reading
at all is refused, and so is a number too large for its setting.

The settings of the panel and the names of the files each stand in a table of
their own. A list may stand in the place of such a table and then gives the
settings in their order. Whatever is not mentioned keeps the value it has from
the start.

## Main definitions

* `Configuration.natural`, `Configuration.label`: A value as a number, or as a
  name.
* `Slot`: The place of one setting.
* `Settings.ofConfiguration`: The settings of a configuration.
-/

namespace PanelSketch

namespace Scalar

/-- A value as a complaint about a single value shows it. -/
def shown : Scalar → String
  | .text s => "string " ++ Text.visible s
  | .integer n => "64-bit integer `" ++ n.repr ++ "`"
  | .float x => "floating point `" ++ x.text ++ "`"
  | .boolean b => "boolean `" ++ (if b then "true" else "false") ++ "`"

/-- A value as a complaint about a missing table shows it. -/
def shownForTable : Scalar → String
  | .text s => "string " ++ Text.visible s
  | .integer n => "integer `" ++ n.repr ++ "`"
  | .float x => "floating point `" ++ x.render Floating.pointedLayout ++ "`"
  | .boolean b => "boolean `" ++ (if b then "true" else "false") ++ "`"

/-- The number that a text stands for: a switch that is on or off, or an
    unsigned numeral. -/
def naturalOfText? (s : String) : Option Nat :=
  match s.toLower with
  | "true" | "on" | "yes" => some 1
  | "false" | "off" | "no" => some 0
  | _ => Text.longWord? s

/-- The text of a value. -/
def label : Scalar → String
  | .text s => s
  | .integer n => n.repr
  | .float x => x.text
  | .boolean b => if b then "true" else "false"

end Scalar

namespace Configuration

/-- A value as an unsigned number of 64 bits. -/
def natural (key : String) : Configuration → Except SettingsFault Nat
  | .scalar (.integer n) source =>
    if 0 ≤ n then .ok n.toNat
    else
      .error (.wrongType (Scalar.integer n).shown "an unsigned 64 bit or less integer" key source)
  | .scalar (.boolean b) _ => .ok b.toNat
  | .scalar (.float x) _ => .ok x.word
  | .scalar (.text s) source =>
    match Scalar.naturalOfText? s with
    | some n => .ok n
    | none => .error (.wrongType (Scalar.text s).shown "an integer" key source)
  | .nothing source? => .error (.wrongType "unit value" "an integer" key source?)
  | .list _ source? => .error (.wrongType "sequence" "an integer" key source?)
  | .table _ source? => .error (.wrongType "map" "an integer" key source?)

/-- A value as a name. -/
def label (key : String) : Configuration → Except SettingsFault String
  | .scalar x _ => .ok x.label
  | .nothing source? => .error (.wrongType "unit value" "a string" key source?)
  | .list _ source? => .error (.wrongType "sequence" "a string" key source?)
  | .table _ source? => .error (.wrongType "map" "a string" key source?)

/-- A value as an unsigned number of so many bits. -/
def word (bits : Nat) (key : String) (c : Configuration) : Except SettingsFault Nat := do
  let n ← c.natural key
  if n < powerOf 2 bits then return n
  else throw (.wrongType ("64-bit unsigned integer `" ++ n.repr ++ "`")
    ("an unsigned " ++ bits.repr ++ " bit integer") key none)

end Configuration

/-- The place of one setting: its full key, and the value there. -/
structure Slot where
  key : String
  value? : Option Configuration

namespace Slot

/-- The place of a setting in the table or list with a key. -/
def inside (key : String) (c : Configuration) (name : String) (position : Nat) : Slot :=
  match c with
  | .list items _ => ⟨key ++ "[" ++ position.repr ++ "]", items[position]?⟩
  | c => ⟨key ++ "." ++ name, c.members.get? name⟩

/-- A number of 32 bits. -/
def word32 (slot : Slot) (initial : UInt32) : Except SettingsFault UInt32 :=
  match slot.value? with
  | none => .ok initial
  | some c => (c.word 32 slot.key).map UInt32.ofNat

/-- A number of 8 bits. -/
def word8 (slot : Slot) (initial : UInt8) : Except SettingsFault UInt8 :=
  match slot.value? with
  | none => .ok initial
  | some c => (c.word 8 slot.key).map UInt8.ofNat

/-- A name. -/
def label (slot : Slot) (initial : String) : Except SettingsFault String :=
  match slot.value? with
  | none => .ok initial
  | some c => c.label slot.key

end Slot

/-- Refuse a value in the place of a table. -/
def Configuration.requireTable (wanted : String) : Configuration → Except SettingsFault Unit
  | .scalar x _ => .error (.notTable x.shownForTable wanted)
  | .nothing _ => .error (.notTable "unit value" wanted)
  | _ => .ok ()

/-- The panel that a configuration describes. -/
def Panel.ofConfiguration (c : Configuration) : Except SettingsFault Panel := do
  let initial : Panel := {}
  let slot := Slot.inside "display" c
  c.requireTable "DisplayConfig"
  return { width := ← (slot "width" 0).word32 initial.width
           height := ← (slot "height" 1).word32 initial.height
           rotation := ← (slot "rotation" 2).word8 initial.rotation
           cornerRadius := ← (slot "corner_radius" 3).word32 initial.cornerRadius }

/-- The names that a configuration gives to files. -/
def FileNames.ofConfiguration (c : Configuration) : Except SettingsFault FileNames := do
  let initial : FileNames := {}
  let slot := Slot.inside "export" c
  c.requireTable "ExportConfig"
  return { sketch := ← (slot "sketch_name" 0).label initial.sketch
           header := ← (slot "header_name" 1).label initial.header
           dataDir := ← (slot "data_dir" 2).label initial.dataDir }

/-- The settings of a configuration. -/
def Settings.ofConfiguration (ms : Configuration.Members) : Except SettingsFault Settings := do
  let empty : Configuration := .table [] none
  return { panel := ← Panel.ofConfiguration ((ms.get? "display").getD empty)
           files := ← FileNames.ofConfiguration ((ms.get? "export").getD empty) }

end PanelSketch
