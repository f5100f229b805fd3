/-!
# Invocations

What is asked for on a command line. The arguments that are no options name a
command and the files it works on. Options may stand anywhere among them; the
one for a configuration file belongs to every command.

An option is written with its long name or, if it has one, its letter. A value
follows as the next argument, behind a sign of equality, or directly behind the
letter. Behind a pair of dashes there are no more options.

## Main definitions

* `Command`, `Invocation`: What can be asked for.
* `Setting`: The options that exist.
* `Word`: What a single argument is.
* `Arguments`: The arguments of a command line, sorted.
* `Invocation.ofArguments?`: The invocation that arguments spell.
-/

namespace PanelSketch

/-- What can be asked of the program. -/
inductive Command where
  /-- Write a new project, its first screen perhaps seeded from a template. -/
  | create (output : String) (template? : Option String)
  /-- Generate the sketch. -/
  | generate (project : String) (output? : Option String)
  /-- Generate the header. -/
  | header (project : String) (output? : Option String)
  /-- Write the archive. -/
  | package (project output : String)
  /-- Compare a sketch on disk with a generated one. -/
  | check (project sketch : String) (showsDiff : Bool)
  /-- Show the settings in use. -/
  | showSettings (asToml : Bool)
  /-- Write a configuration file. -/
  | initSettings (output : String)
  deriving DecidableEq, Repr

/-- A command and the configuration file that was asked for with it. -/
structure Invocation where
  config? : Option String
  command : Command
  deriving DecidableEq, Repr

/-- The options that exist. -/
inductive Setting where
  | config
  | template
  | output
  | sketch
  | diff
  | toml
  deriving DecidableEq, Repr

namespace Setting

/-- All options. -/
def all : List Setting :=
  [config, template, output, sketch, diff, toml]

/-- The long name of an option. -/
def long : Setting → String
  | config => "config"
  | template => "template"
  | output => "output"
  | sketch => "sketch"
  | diff => "diff"
  | toml => "toml"

/-- The letter of an option. -/
def letter? : Setting → Option Char
  | config => some 'c'
  | template => some 't'
  | output => some 'o'
  | sketch => some 's'
  | diff | toml => none

/-- Whether an option has a value. -/
def takesValue (s : Setting) : Bool :=
  s.letter?.isSome

end Setting

/-- What a single argument is. -/
inductive Word where
  | name (s : String)
  /-- An option, with its value if the same argument holds it. -/
  | option (s : Setting) (value? : Option String)
  /-- The end of the options. -/
  | dashes
  | unknown

namespace Word

/-- The value behind the letter of an option. -/
def attached : List Char → Option String
  | [] => none
  | '=' :: cs => some (String.ofList cs)
  | cs => some (String.ofList cs)

/-- The value behind a sign of equality. -/
def behindSign : List Char → Option String
  | [] => none
  | _ :: cs => some (String.ofList cs)

/-- What an argument is. -/
def ofArgument (argument : String) : Word :=
  match argument.toList with
  | ['-', '-'] => .dashes
  | '-' :: '-' :: cs =>
    let long := String.ofList (cs.takeWhile (· != '='))
    match Setting.all.find? (·.long == long) with
    | some s => .option s (behindSign (cs.dropWhile (· != '=')))
    | none => .unknown
  | '-' :: c :: cs =>
    match Setting.all.find? (·.letter? == some c) with
    | some s => .option s (attached cs)
    | none => .unknown
  | _ => .name argument

end Word

/-- The arguments of a command line, sorted into names and options. -/
structure Arguments where
  names : List String
  options : List (Setting × String)

namespace Arguments

/-- Sort arguments. An option without a value is kept with an empty one. -/
def sort : List String → Option Arguments
  | [] => some ⟨[], []⟩
  | argument :: rest =>
    match Word.ofArgument argument with
    | .unknown => none
    | .dashes => some ⟨rest, []⟩
    | .name s => (sort rest).map fun a => { a with names := s :: a.names }
    | .option s (some value) =>
      if s.takesValue then (sort rest).map fun a => { a with options := (s, value) :: a.options }
      else none
    | .option s none =>
      if s.takesValue then
        match rest with
        | [] => none
        | value :: rest => (sort rest).map fun a => { a with options := (s, value) :: a.options }
      else (sort rest).map fun a => { a with options := (s, "") :: a.options }

/-- The value of an option; the last one counts. -/
def value? (a : Arguments) (s : Setting) : Option String :=
  (a.options.reverse.find? (·.1 == s)).map (·.2)

/-- Whether an option is there. -/
def has (a : Arguments) (s : Setting) : Bool :=
  (a.value? s).isSome

/-- Whether there are no options but these and the one that belongs to every
    command. -/
def hasOnly (a : Arguments) (settings : List Setting) : Bool :=
  a.options.all fun (s, _) => (Setting.config :: settings).contains s

/-- The command that arguments spell. -/
def command? (a : Arguments) : Option Command :=
  let command (settings : List Setting) (c : Command) : Option Command :=
    if a.hasOnly settings then some c else none
  match a.names with
  | ["new"] => command [.template] (.create "project.json" (a.value? .template))
  | ["new", output] => command [.template] (.create output (a.value? .template))
  | ["generate", project] => command [.output] (.generate project (a.value? .output))
  | ["header", project] => command [.output] (.header project (a.value? .output))
  | ["package", project] =>
    command [.output] (.package project ((a.value? .output).getD "export.zip"))
  | ["check", project] =>
    (a.value? .sketch).bind fun sketch =>
      command [.sketch, .diff] (.check project sketch (a.has .diff))
  | ["config", "show"] => command [.toml] (.showSettings (a.has .toml))
  | ["config", "init"] =>
    command [.output] (.initSettings ((a.value? .output).getD "screenforge.toml"))
  | _ => none

end Arguments

/-- The invocation that arguments spell. -/
def Invocation.ofArguments? (arguments : List String) : Option Invocation := do
  let a ← Arguments.sort arguments
  return ⟨a.value? .config, ← a.command?⟩

end PanelSketch
