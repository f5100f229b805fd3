import PanelSketch.Archive.Zip
import PanelSketch.CommandLine.Invocation
import PanelSketch.Diff.Drift
import PanelSketch.Editor.Basic
import PanelSketch.Files.Tree
import PanelSketch.Project.File
import PanelSketch.Settings.File
import PanelSketch.Settings.Load

/-!
# Plans

What an invocation comes to. A plan says which file is to be written, if any,
and what is reported afterwards, in case the file could be written and in case
it could not. Reading is over when a plan is made, writing has not begun, so a
plan is a value like any other, and what comes of it can be told for a tree of
files without touching a disk.

A command fails when the settings cannot be loaded, when a file cannot be read
or is no project, or when its own file cannot be written. The report then is
one line with all causes, from the outermost to the innermost.

## Main definitions

* `Report`: What is printed, and the code of the exit.
* `Content`, `Plan`: What is written, and what is reported then.
* `Surroundings.openProject`: An editor of a project file.
* `Command.plan`: The plan of a command.
* `Invocation.plan`: The plan of an invocation.
* `Plan.carryOut`: What comes of a plan in a tree of files.
-/

namespace PanelSketch

/-- What is printed, and the code of the exit. -/
structure Report where
  code : UInt8
  output : String
  errors : String
  deriving DecidableEq, Repr

namespace Report

/-- The report on success. -/
def done (output errors : String) : Report :=
  ⟨0, output, errors⟩

/-- The report on a failure with its causes, behind what was reported before. -/
def failed (causes : List String) (before : String) : Report :=
  ⟨1, "", before ++ "Error: " ++ ": ".intercalate causes ++ "\n"⟩

end Report

/-- What is written to a file. -/
inductive Content where
  | text (s : String)
  | archive (bundle : Bundle)

/-- The bytes of a file. -/
def Content.bytes : Content → List UInt8
  | text s => s.toUTF8.toList
  | archive bundle => bundle.toZip

/-- A file to write. -/
structure Output where
  path : String
  content : Content

/-- What an invocation comes to. -/
structure Plan where
  output? : Option Output
  /-- The report when there is nothing to write or the file has been written. -/
  report : Report
  /-- The report when the file cannot be written for a reason. -/
  refusal : String → Report

namespace Plan

/-- Write nothing. -/
def say (report : Report) : Plan :=
  ⟨none, report, fun _ => report⟩

/-- Fail without writing. -/
def fail (causes : List String) : Plan :=
  say (.failed causes "")

/-- Write a text; nothing is reported before. -/
def writeText (path text : String) (report : Report) : Plan :=
  ⟨some ⟨path, .text text⟩, report, fun reason => .failed ["writing " ++ path, reason] ""⟩

/-- Print a text, or write it if a file is named. -/
def emit (text : String) (output? : Option String) (remark : String) : Plan :=
  match output? with
  | none => say (.done text remark)
  | some path => writeText path text (.done "" remark)

/-- Go on with a result, or fail with its causes. -/
def after {α : Type} (result : Except (List String) α) (next : α → Plan) : Plan :=
  match result with
  | .ok a => next a
  | .error causes => fail causes

end Plan

/-- Causes in which the innermost appears twice, once inside the cause around
    it. -/
def wrapped (outer inner : String) : List String :=
  [outer ++ ": " ++ inner, inner]

/-- The text of a file, or why it cannot be read. -/
def Surroundings.readFile (s : Surroundings) (path : String) : Except (List String) String :=
  (s.read path).mapError fun fault => ["reading " ++ path, fault.message]

/-- An editor of the project in a file. -/
def Surroundings.openProject (s : Surroundings) (settings : Settings) (path : String) :
    Except (List String) Editor := do
  let text ← s.readFile path
  let project ← (Project.read text).mapError fun fault =>
    ("parsing " ++ path) :: wrapped "JSON error" fault.message
  return Editor.ofProject settings project

/-- The line about a generated text. -/
def generatedLine (count : Nat) (counted code : String) : String :=
  count.repr ++ " " ++ counted ++ ", checksum " ++ (Digest.ofText code).short ++ "\n"

/-- The plan for a new project. -/
def planCreate (settings : Settings) (output : String) (template? : Option String) : Plan :=
  let editor := Editor.ofProject settings {}
  -- The project is created all the same when no template has the name.
  let (remark, editor) := match template? with
    | none => ("", editor)
    | some template =>
      match editor.handle (.applyTemplate editor.workspace.active template) with
      | (.done true, editor) => ("", editor)
      | (_, editor) => ("Unknown template '" ++ template ++ "', project left empty\n", editor)
  { output? := some ⟨output, .text editor.project.write⟩
    report := .done ("Created project: " ++ output ++ "\n") remark
    refusal := fun reason => .failed ["writing " ++ output, reason] remark }

/-- The plan for a sketch. -/
def planSketch (editor : Editor) (output? : Option String) : Plan :=
  let code := editor.sketch.render
  Plan.emit code output? (generatedLine editor.sketch.routines.length "screens" code)

/-- The plan for a header. -/
def planHeader (editor : Editor) (output? : Option String) : Plan :=
  let code := editor.header.render
  Plan.emit code output? (generatedLine editor.header.arrays.length "flash assets" code)

/-- What is printed about an archive. -/
def packageText (output : String) (bundle : Bundle) : String :=
  "Packaged " ++ output ++ "\n"
    ++ String.join (bundle.entries.map fun entry => "  " ++ entry.name ++ "\n")
    ++ String.join (bundle.skipped.map fun name =>
      "  skipped asset '" ++ name ++ "' (empty or invalid payload)\n")
    ++ "Checksum: " ++ (Digest.ofBytes bundle.toZip).hex ++ "\n"

/-- The plan for an archive. -/
def planPackage (editor : Editor) (output : String) : Plan :=
  match editor.bundle with
  | .error name => Plan.fail (wrapped "Archive error" (Bundle.clashCause name))
  | .ok bundle =>
    { output? := some ⟨output, .archive bundle⟩
      report := .done (packageText output bundle) ""
      refusal := fun reason => .failed (wrapped "IO error" reason) "" }

/-- The report on a comparison. -/
def driftReport (d : Drift) (showsDiff : Bool) : Report :=
  if d.isClean then .done ("No drift (" ++ d.expected.short ++ ")\n") ""
  else
    { code := 2
      output :=
        "Drift detected: +" ++ d.added.repr ++ " -" ++ d.removed.repr ++ " lines (on disk "
          ++ d.actual.short ++ ", generated " ++ d.expected.short ++ ")\n"
          ++ (if showsDiff then d.diff else "")
      errors := "" }

/-- The settings as they are shown. -/
def settingsText (settings : Settings) : String :=
  let panel := settings.panel
  "Display:\n  Size: " ++ panel.width.toNat.repr ++ "x" ++ panel.height.toNat.repr
    ++ "\n  Rotation: " ++ panel.rotation.toNat.repr
    ++ "\n  Corner radius: " ++ panel.cornerRadius.toNat.repr
    ++ "\n\nExport:\n  Sketch: " ++ settings.files.sketchFile
    ++ "\n  Header: " ++ settings.files.header
    ++ "\n  Data dir: " ++ settings.files.dataDir ++ "\n"

/-- The plan of a command. -/
def Command.plan (s : Surroundings) (settings : Settings) : Command → Plan
  | .create output template? => planCreate settings output template?
  | .generate project output? =>
    Plan.after (s.openProject settings project) (planSketch · output?)
  | .header project output? =>
    Plan.after (s.openProject settings project) (planHeader · output?)
  | .package project output =>
    Plan.after (s.openProject settings project) (planPackage · output)
  | .check project sketch showsDiff =>
    Plan.after (s.openProject settings project) fun editor =>
      Plan.after (s.readFile sketch) fun existing =>
        .say (driftReport (Drift.ofTexts existing editor.sketch.render sketch) showsDiff)
  | .showSettings asToml =>
    .say (.done (if asToml then settings.toToml ++ "\n" else settingsText settings) "")
  | .initSettings output =>
    { output? := some ⟨output, .text ({} : Settings).toToml⟩
      report := .done ("Created config file: " ++ output ++ "\n") ""
      refusal := fun reason => .failed [reason] "" }

/-- The plan of an invocation. -/
def Invocation.plan (s : Surroundings) (i : Invocation) : Plan :=
  match Settings.load s i.config? with
  | .ok settings => i.command.plan s settings
  | .error fault => .fail ["loading configuration", fault.message]

/-- The program's surroundings in a tree of files, in which archives are no
    texts. -/
def Surroundings.ofTree (t : FileTree Content) (environment : List (String × String)) :
    Surroundings where
  read path :=
    match t.read path with
    | .ok (.text s) => .ok s
    | .ok (.archive _) => .error (.other "stream did not contain valid UTF-8")
    | .error fault => .error fault
  current := t.current.reverse
  environment := environment

/-- What is reported when a plan is carried out in a tree of files, and the tree
    afterwards. -/
def Plan.carryOut (t : FileTree Content) (plan : Plan) : Report × FileTree Content :=
  match plan.output? with
  | none => (plan.report, t)
  | some output =>
    match t.write output.path output.content with
    | .ok t => (plan.report, t)
    | .error fault => (plan.refusal fault.message, t)

end PanelSketch
