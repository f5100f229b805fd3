import PanelSketch.Json.Value
import PanelSketch.Text.Hexadecimal

/-!
# Printing JSON

A document is printed in one of two layouts. The wide one puts every item and
member on a line of its own, two spaces further in than its parent, and writes
empty lists and objects as bare brackets. The compact one has no space at all.

In a quoted text only the quote, the backslash and the controls are escaped;
every other character stands for itself.

## Main definitions

* `quote`: A text in quotes.
* `Value.pretty`: The wide layout.
* `Value.compact`: The layout without spaces.

## Theorems

* `quoteChars_append`: Texts are quoted piece by piece.
-/

namespace PanelSketch.Json

open Text (hexWord)

/-- A character inside quotes. -/
def quoteChar (c : Char) : List Char :=
  match c with
  | '"' => ['\\', '"']
  | '\\' => ['\\', '\\']
  | '\x08' => ['\\', 'b']
  | '\x0c' => ['\\', 'f']
  | '\n' => ['\\', 'n']
  | '\r' => ['\\', 'r']
  | '\t' => ['\\', 't']
  | c => if c.toNat < 0x20 then '\\' :: 'u' :: hexWord 4 c.toNat else [c]

/-- Characters inside quotes. -/
def quoteChars (cs : List Char) : List Char :=
  cs.flatMap quoteChar

/-- A text in quotes. -/
def quote (s : String) : List Char :=
  '"' :: quoteChars s.toList ++ ['"']

/-- A new line with an indent of so many levels. -/
def newLine (depth : Nat) : List Char :=
  '\n' :: List.replicate (2 * depth) ' '

/-- Brackets around parts, each on a line of its own. -/
def bracketed (opening closing : Char) (depth : Nat) (parts : List (List Char)) : List Char :=
  if parts.isEmpty then [opening, closing]
  else
    let lines := parts.map (newLine (depth + 1) ++ ·)
    opening :: (List.intersperse [','] lines).flatten ++ newLine depth ++ [closing]

mutual

/-- A value in the wide layout, its first line being already indented. -/
def Value.prettyAt (depth : Nat) : Value → List Char
  | .null => ['n', 'u', 'l', 'l']
  | .boolean true => ['t', 'r', 'u', 'e']
  | .boolean false => ['f', 'a', 'l', 's', 'e']
  | .number n => n.text.toList
  | .text s => quote s
  | .list items => bracketed '[' ']' depth (prettyItems (depth + 1) items)
  | .object members => bracketed '\x7b' '\x7d' depth (prettyMembers (depth + 1) members)

/-- The items of a list in the wide layout. -/
def prettyItems (depth : Nat) : List Value → List (List Char)
  | [] => []
  | v :: vs => v.prettyAt depth :: prettyItems depth vs

/-- The members of an object in the wide layout. -/
def prettyMembers (depth : Nat) : List (String × Value) → List (List Char)
  | [] => []
  | (key, v) :: rest => (quote key ++ [':', ' '] ++ v.prettyAt depth) :: prettyMembers depth rest

end

/-- A value in the wide layout. -/
def Value.pretty (v : Value) : String :=
  String.ofList (v.prettyAt 0)

mutual

/-- A value without spaces. -/
def Value.compactChars : Value → List Char
  | .null => ['n', 'u', 'l', 'l']
  | .boolean true => ['t', 'r', 'u', 'e']
  | .boolean false => ['f', 'a', 'l', 's', 'e']
  | .number n => n.text.toList
  | .text s => quote s
  | .list items => '[' :: (List.intersperse [','] (compactItems items)).flatten ++ [']']
  | .object members =>
    '\x7b' :: (List.intersperse [','] (compactMembers members)).flatten ++ ['\x7d']

/-- The items of a list without spaces. -/
def compactItems : List Value → List (List Char)
  | [] => []
  | v :: vs => v.compactChars :: compactItems vs

/-- The members of an object without spaces. -/
def compactMembers : List (String × Value) → List (List Char)
  | [] => []
  | (key, v) :: rest => (quote key ++ ':' :: v.compactChars) :: compactMembers rest

end

/-- A value without spaces. -/
def Value.compact (v : Value) : String :=
  String.ofList v.compactChars

theorem quoteChars_append (s t : List Char) : quoteChars (s ++ t) = quoteChars s ++ quoteChars t :=
  List.flatMap_append

end PanelSketch.Json
