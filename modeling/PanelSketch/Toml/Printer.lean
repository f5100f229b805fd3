import PanelSketch.Text.Hexadecimal

/-!
# Writing TOML

How texts are written in a TOML document. A text is written in double quotes as
long as nothing in it would look strange there; one with quotes or backslashes
is written in single quotes if that spares the escapes. Failing both, the text
is put into three quotes, and only where every form needs escapes are escapes
written.

## Main definitions

* `longestRun`: The longest run of a character in a text.
* `Form`, `formOf`: The four forms, and the one that a text is written in.
* `quote`: A text in quotes.
-/

namespace PanelSketch.Toml

/-- The longest run of a character, counting the run that ends just before. -/
def longestRunFrom (c : Char) : Nat → List Char → Nat
  | run, [] => run
  | run, d :: cs =>
    if d = c then longestRunFrom c (run + 1) cs else max run (longestRunFrom c 0 cs)

/-- The longest run of a character. -/
def longestRun (c : Char) (cs : List Char) : Nat :=
  longestRunFrom c 0 cs

/-- A control that cannot be written without an escape. -/
def isControl (c : Char) : Bool :=
  (c.toNat < 0x20 && c != '\t' && c != '\n') || c.toNat == 0x7F

/-- The forms of a quoted text. -/
inductive Form where
  | basic
  | literal
  | longBasic
  | longLiteral
  deriving DecidableEq, Repr

/-- The form that a text is written in. -/
def formOf (cs : List Char) : Form :=
  let isOneLine := !cs.contains '\n'
  let isClean := !cs.any isControl
  let isPlain := isClean && !cs.contains '\\'
  if isPlain && isOneLine && !cs.contains '"' then .basic
  else if isClean && isOneLine && !cs.contains '\'' then .literal
  else if isPlain && longestRun '"' cs ≤ 2 then .longBasic
  else if isClean && longestRun '\'' cs ≤ 2 then .longLiteral
  else if isOneLine then .basic
  else .longBasic

/-- The hexadecimal digits of a control, in capitals. -/
def controlCode (c : Char) : List Char :=
  (Text.hexWord 4 c.toNat).map Char.toUpper

/-- A character in a form with escapes; a quote or an end of a line is left to
    the form. -/
def escapeChar : Char → List Char
  | '\x08' => ['\\', 'b']
  | '\t' => ['\\', 't']
  | '\x0c' => ['\\', 'f']
  | '\r' => ['\\', 'r']
  | '\\' => ['\\', '\\']
  | c => if isControl c then '\\' :: 'u' :: controlCode c else [c]

/-- A text with escapes for one line. -/
def escapeLine : List Char → List Char
  | [] => []
  | '"' :: cs => '\\' :: '"' :: escapeLine cs
  | '\n' :: cs => '\\' :: 'n' :: escapeLine cs
  | c :: cs => escapeChar c ++ escapeLine cs

/-- A text with escapes for several lines: of three quotes in a row the third is
    escaped. The number counts the quotes just before. -/
def escapeLines : Nat → List Char → List Char
  | _, [] => []
  | run, '"' :: cs =>
    if run < 2 then '"' :: escapeLines (run + 1) cs else '\\' :: '"' :: escapeLines 0 cs
  | _, '\n' :: cs => '\n' :: escapeLines 0 cs
  | _, c :: cs => escapeChar c ++ escapeLines 0 cs

/-- What follows the opening quotes of a long text: an end of a line, if the text
    has one itself. -/
def firstEnd (cs : List Char) : List Char :=
  if cs.contains '\n' then ['\n'] else []

/-- A text in a form. -/
def write : Form → List Char → List Char
  | .basic, cs => '"' :: escapeLine cs ++ ['"']
  | .literal, cs => '\'' :: cs ++ ['\'']
  | .longBasic, cs => ['"', '"', '"'] ++ firstEnd cs ++ escapeLines 0 cs ++ ['"', '"', '"']
  | .longLiteral, cs => ['\'', '\'', '\''] ++ firstEnd cs ++ cs ++ ['\'', '\'', '\'']

/-- A text in quotes. -/
def quote (s : String) : String :=
  String.ofList (write (formOf s.toList) s.toList)

end PanelSketch.Toml
