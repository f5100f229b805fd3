import PanelSketch.Files.Tree
import PanelSketch.Json.Reader
import PanelSketch.Settings.Reading
import PanelSketch.Toml.Document

/-!
# Loading Settings

Settings come from several files and from environment variables. The files in
the current directory come first, then the user's own file, then a file that
was asked for by name, and the variables come last; later sources go on top of
earlier ones.

A file may be named without its ending, and its ending tells in which format it
is. A file that does not exist is passed over, unless it was asked for. A file
that exists has to be a configuration.

The user's own file is in a directory that a variable names from the root, or
else in the usual one of the user's home.

A variable takes part when its name begins with the name of the program. Two
underscores separate the parts of its key, and its value is read as a switch or
a number where that is possible.

## Main definitions

* `Surroundings`: The files and variables that a program sees.
* `ConfigFormat`: The formats of configuration files.
* `Surroundings.locate`: A file with or without its ending.
* `userDirectory?`: The directory of the user's own configuration files.
* `Surroundings.variableMembers`: The configuration in the variables.
* `Settings.load`: The settings of a program.
-/

namespace PanelSketch

open PanelSketch.Configuration (Members)

/-- The files and variables that a program sees. -/
structure Surroundings where
  /-- The text of the file at a path, or why it cannot be read. -/
  read : String → Except FileFault String
  /-- The current directory: its names from the root. -/
  current : List String
  environment : List (String × String)

/-- The formats of configuration files. -/
inductive ConfigFormat where
  | toml
  | json
  deriving DecidableEq, Repr

namespace ConfigFormat

/-- All formats, in the order in which files are looked for. -/
def all : List ConfigFormat := [.toml, .json]

/-- The ending of the files in a format. -/
def ending : ConfigFormat → String
  | .toml => "toml"
  | .json => "json"

/-- The format of a file, which its ending tells. -/
def ofPath? (path : String) : Option ConfigFormat :=
  all.find? fun format => Path.ending? path == some format.ending

/-- The members of the configuration that a text is, if it is well formed. -/
def members? (format : ConfigFormat) (source text : String) : Option Members :=
  match format with
  | .toml => (Toml.readDocument text).map (Configuration.ofMembers source)
  | .json =>
    match Json.Value.read text with
    | .ok (.object members) => some (Configuration.ofJsonMembers source members)
    | _ => none

end ConfigFormat

/-- A configuration file: the path that messages show, its format and text. -/
structure ConfigFile where
  path : String
  format : ConfigFormat
  text : String

namespace Surroundings

/-- The text of a file, if it can be read. -/
def text? (s : Surroundings) (path : String) : Option String :=
  (s.read path).toOption

/-- A path as messages show it. -/
def shown (s : Surroundings) (path : String) : String :=
  (Path.ofText path).shownFrom s.current

/-- The paths at which a file may be that is named without its ending. -/
def completions (name : String) : List (ConfigFormat × String) :=
  ConfigFormat.all.filterMap fun format =>
    (Path.withEnding? name format.ending).map fun path => (format, path)

/-- The file of a name, with or without its ending. -/
def locate (s : Surroundings) (name : String) : Except SettingsFault ConfigFile :=
  match s.text? name with
  | some text =>
    match ConfigFormat.ofPath? name with
    | some format => .ok ⟨s.shown name, format, text⟩
    | none => .error (.unknownFormat name)
  | none =>
    let found? := (completions name).findSome? fun (format, path) =>
      (s.text? path).map fun text => ConfigFile.mk (s.shown path) format text
    found?.elim (.error (.missingFile name)) .ok

/-- Put the members of a file on top of what was there. -/
def layerFile (ms : Members) (file : ConfigFile) : Except SettingsFault Members :=
  match file.format.members? file.path file.text with
  | some incoming => .ok (ms.layer incoming)
  | none => .error (.malformedFile file.path)

/-- The files that are looked for in the current directory. -/
def localNames : List String :=
  ["screenforge.toml", ".screenforge.toml", "config/screenforge.toml"]

/-- The value of a variable. -/
def valueOf? (s : Surroundings) (name : String) : Option String :=
  (s.environment.find? (·.1 == name)).map (·.2)

/-- The directory of the user's own configuration files, if there is one. -/
def userDirectory? (s : Surroundings) : Option String :=
  ((s.valueOf? "XDG_CONFIG_HOME").filter fun path => path.toList.head? = some '/').or
    (((s.valueOf? "HOME").filter (· ≠ "")).map (· ++ "/.config"))

/-- The path of the user's own file. -/
def userPath? (s : Surroundings) : Option String :=
  s.userDirectory?.map (· ++ "/screenforge/screenforge.toml")

/-- Whether there is anything at a path. -/
def isThere (s : Surroundings) (path : String) : Bool :=
  match s.read path with
  | .ok _ | .error .isDirectory => true
  | .error _ => false

/-- The files that are passed over when they do not exist. -/
def optionalFiles (s : Surroundings) : List ConfigFile :=
  (localNames ++ (s.userPath?.filter s.isThere).toList).filterMap fun name =>
    (s.locate name).toOption

/-- The file that was asked for, if any. -/
def requestedFile (s : Surroundings) : Option String → Except SettingsFault (List ConfigFile)
  | none => .ok []
  | some name => (s.locate name).map ([·])

/-- What the name of a variable that takes part begins with. -/
def variableMark : List Char := "screenforge__".toList

/-- The key in the name of a variable, two underscores separating its parts. -/
def pointed : List Char → List Char
  | '_' :: '_' :: cs => '.' :: pointed cs
  | c :: cs => c :: pointed cs
  | [] => []

/-- The key of a variable that takes part. -/
def variableKey? (name : String) : Option String :=
  let cs := (Configuration.lowerKey name).toList
  if variableMark.isPrefixOf cs then
    some (String.ofList (pointed (cs.drop variableMark.length)))
  else none

/-- The value of a variable: a switch, an integer, a floating-point number or a
    text. -/
def variableValue (value : String) : Scalar :=
  match value.toLower with
  | "true" => .boolean true
  | "false" => .boolean false
  | _ =>
    match Text.long? value, Floating.ofText? value.toList with
    | some n, _ => .integer n
    | none, some x => .float x
    | none, none => .text value

/-- The configuration in the variables. -/
def variableMembers (s : Surroundings) : Members :=
  s.environment.filterMap fun (name, value) =>
    (variableKey? name).map fun key => (key, .scalar (variableValue value) "the environment")

/-- The configuration in all sources, the last one on top. -/
def configuration (s : Surroundings) (name? : Option String) : Except SettingsFault Members := do
  let ms ← s.optionalFiles.foldlM layerFile []
  let ms ← (← s.requestedFile name?).foldlM layerFile ms
  return ms.layer s.variableMembers

end Surroundings

/-- The settings of a program, with a file that was asked for by name. -/
def Settings.load (s : Surroundings) (name? : Option String) : Except SettingsFault Settings := do
  ofConfiguration (← s.configuration name?)

end PanelSketch
