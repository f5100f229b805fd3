import PanelSketch.CommandLine.Plan

/-!
# The Program

The outermost layer: it gathers the surroundings of an invocation, has a plan
made, and carries the plan out. Everything that is decided is decided by the
plan; here files are read and written and texts are printed.

## Main definitions

* `faultOf`: The cause of a failure to read or write.
* `gather`: The surroundings of an invocation.
* `writeOut`: A plan carried out.
* `main`: The program.
-/

namespace PanelSketch

/-- The cause of a failure to read or write. -/
def faultOf : IO.Error → FileFault
  | .noFileOrDirectory .. => .missing
  | .inappropriateType _ 20 _ => .notDirectory
  | .inappropriateType .. => .isDirectory
  | .invalidArgument _ 36 _ => .nameTooLong
  | .permissionDenied .. => .other "Permission denied (os error 13)"
  | error => .other error.toString

/-- The paths that an invocation may read. -/
def wantedPaths (userPath? : Option String) (i : Invocation) : List String :=
  let configs := Surroundings.localNames ++ i.config?.toList ++ userPath?.toList
  let own := match i.command with
    | .generate project _ | .header project _ | .package project _ => [project]
    | .check project sketch _ => [project, sketch]
    | _ => []
  configs ++ configs.flatMap (fun name => (Surroundings.completions name).map (·.2)) ++ own

/-- The text of a file, or why it cannot be read. -/
def readText (path : String) : IO (Except FileFault String) := do
  try
    let bytes ← IO.FS.readBinFile path
    match String.fromUTF8? bytes with
    | some text => return .ok text
    | none => return .error (.other "stream did not contain valid UTF-8")
  catch e => return .error (faultOf e)

/-- The environment variables. -/
def readVariables : IO (List (String × String)) := do
  match ← readText "/proc/self/environ" with
  | .error _ => return []
  | .ok text =>
    return (text.splitOn "\x00").filterMap fun line =>
      match line.splitOn "=" with
      | name :: value :: more => some (name, "=".intercalate (value :: more))
      | _ => none

/-- The surroundings of an invocation. -/
def gather (i : Invocation) : IO Surroundings := do
  let directory := (← IO.currentDir).toString
  let empty : Surroundings :=
    { read := fun _ => .error .missing
      current := (Path.ofText directory).names
      environment := ← readVariables }
  let files ← (wantedPaths empty.userPath? i).mapM fun path => do return (path, ← readText path)
  return { empty with
           read := fun path =>
             ((files.find? (·.1 == path)).map (·.2)).getD (.error .missing) }

/-- Carry a plan out and return the report that is due. -/
def writeOut (plan : Plan) : IO Report := do
  match plan.output? with
  | none => return plan.report
  | some output =>
    try
      IO.FS.writeBinFile output.path ⟨output.content.bytes.toArray⟩
      return plan.report
    catch e => return plan.refusal (faultOf e).message

/-- Run the program and return the code of the exit. -/
def runArguments (arguments : List String) : IO UInt32 := do
  match Invocation.ofArguments? arguments with
  | none =>
    IO.eprintln "error: unrecognized command line"
    return 2
  | some invocation =>
    let plan := invocation.plan (← gather invocation)
    let report ← writeOut plan
    IO.print report.output
    IO.eprint report.errors
    return report.code.toUInt32

end PanelSketch

/-- The program. -/
def main (arguments : List String) : IO UInt32 :=
  PanelSketch.runArguments arguments
