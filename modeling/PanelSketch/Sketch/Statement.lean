import PanelSketch.Color
import PanelSketch.Text.Quoted

/-!
# Statements of a Sketch

A routine of a sketch is a list of lines, and a line is either a remark or some
calls. The arguments of a call are kept as what they are, numbers and colours
and symbols, so that what a call draws can be reasoned about without reading
its text.

Rendering is the only place where a line becomes text. A label goes between
quotes and is escaped there; a remark is written as it stands.

## Main definitions

* `Argument`, `Call`, `Line`: The parts of a routine.
* `Argument.render`, `Call.render`, `Line.render`: Their text.

## Theorems

* `Line.render_remark`: A remark is written as it stands.
* `Line.render_call`: A call on a line of its own.
-/

namespace PanelSketch

/-- An argument of a call. -/
inductive Argument where
  | number (n : Int)
  | color (c : Rgb565)
  | symbol (name : String)
  /-- A text that is shown. -/
  | label (text : String)
  /-- The file that holds the image of a symbol. -/
  | imageFile (symbol : String)
  deriving DecidableEq, Repr

/-- A call of a function with arguments. -/
structure Call where
  callee : String
  arguments : List Argument
  deriving DecidableEq, Repr

/-- A line of a routine. -/
inductive Line where
  | remark (text : String)
  | calls (calls : List Call)
  deriving DecidableEq, Repr

/-- The file ending of every image file. -/
def imageEnding : String := ".jpg"

/-- The text of an argument. -/
def Argument.render : Argument → String
  | .number n => n.repr
  | .color c => c.code
  | .symbol name => name
  | .label text => "\"" ++ Text.escape text ++ "\""
  | .imageFile name => "\"/" ++ name ++ imageEnding ++ "\""

/-- The text of a call. -/
def Call.render (call : Call) : String :=
  call.callee ++ "(" ++ ", ".intercalate (call.arguments.map Argument.render) ++ ");"

/-- The indent of every line of a routine. -/
def indent : String := "    "

/-- The text of a line. -/
def Line.render : Line → String
  | .remark text => indent ++ "// " ++ text
  | .calls cs => indent ++ " ".intercalate (cs.map Call.render)

theorem Line.render_remark (text : String) : (remark text).render = indent ++ "// " ++ text := rfl

theorem Line.render_call (c : Call) : (calls [c]).render
    = indent ++ c.callee ++ "(" ++ ", ".intercalate (c.arguments.map Argument.render) ++ ");" := by
  rw [render, List.map_singleton, String.intercalate_singleton, Call.render]
  simp only [String.append_assoc]

end PanelSketch
