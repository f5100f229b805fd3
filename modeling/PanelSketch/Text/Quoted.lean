/-!
# Quoted C Text

A text element puts its label between the quotes of a C string literal. Five
characters are written as escapes there, and everything else as itself.

Escaping looks at one character at a time, so the danger is in what two
neighbours form together: a backslash before a quote, a run of backslashes at
the end. `readQuoted` is the reader that settles it. It takes what stands after
an opening quote, stops at the first quote that is not escaped, and returns the
text together with whatever follows the closing quote.

## Main definitions

* `escapeChar`, `escapeChars`, `escape`: The written form of a text.
* `readQuoted`: The text up to the closing quote, and the rest.

## Theorems

* `escapeChars_append`: Texts are written piece by piece.
-/

namespace PanelSketch.Text

/-- One character as it is written between quotes. -/
def escapeChar (c : Char) : List Char :=
  match c with
  | '"' => ['\\', '"']
  | '\\' => ['\\', '\\']
  | '\n' => ['\\', 'n']
  | '\r' => ['\\', 'r']
  | '\t' => ['\\', 't']
  | c => [c]

/-- A text as it is written between quotes. -/
def escapeChars (cs : List Char) : List Char :=
  cs.flatMap escapeChar

/-- A text as it is written between quotes. -/
def escape (s : String) : String :=
  String.ofList (escapeChars s.toList)

/-- The character that an escape letter stands for. -/
def unescapeChar? : Char → Option Char
  | '"' => some '"'
  | '\\' => some '\\'
  | 'n' => some '\n'
  | 'r' => some '\r'
  | 't' => some '\t'
  | _ => none

/-- Read up to the first quote that is not escaped; `none` when there is no such
    quote or an escape is not one of the five. -/
def readQuoted : List Char → Option (List Char × List Char)
  | [] => none
  | '"' :: rest => some ([], rest)
  | '\\' :: e :: rest => do
    let c ← unescapeChar? e
    let (text, rest) ← readQuoted rest
    return (c :: text, rest)
  | c :: rest => do
    let (text, rest) ← readQuoted rest
    return (c :: text, rest)

theorem escapeChars_append (s t : List Char) :
    escapeChars (s ++ t) = escapeChars s ++ escapeChars t :=
  List.flatMap_append

end PanelSketch.Text
