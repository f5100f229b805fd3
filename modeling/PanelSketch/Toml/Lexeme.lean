import PanelSketch.Text.Hexadecimal
import PanelSketch.Toml.Moment
import PanelSketch.Toml.Value

/-!
# TOML Lexemes

The smallest pieces of a TOML document: space, ends of lines, comments, quoted
texts, keys and literals. Each piece is read by a function of its own that
takes the text from where the piece starts and returns what it means together
with the rest. A document is right or wrong as a whole, so a piece that cannot
be read gives no cause.

Quoted texts come in four forms. A basic text stands in double quotes and knows
escapes, a literal text stands in single quotes and knows none, and either may
be long, in three quotes at both ends, and then run over lines.

All other values are written without a quote or bracket. A literal is the
longest run of characters that could belong to one, and has to make sense as a
whole.

## Main definitions

* `Reader`: A reader of part of a text.
* `skipSpace`, `skipLines`, `endLine`: What stands between pieces.
* `quoted`: A quoted text of any form.
* `key`: A dotted key.
* `integer?`, `float?`, `literal?`: Literals.
-/

namespace PanelSketch.Toml

/-- A reader of part of a text: it fails, or it returns a value and leaves the
    rest. -/
abbrev Reader := StateT (List Char) Option

/-- The next character. -/
def peek? : Reader (Option Char) := do
  return (← get).head?

/-- Drop one character. -/
def advance : Reader Unit :=
  modify List.tail

/-- Drop one character, which has to be the given one. -/
def expect (c : Char) : Reader Unit := do
  if (← peek?) = some c then advance else failure

/-! ### Space, lines and comments -/

/-- The space within a line. -/
def isSpace (c : Char) : Bool :=
  c == ' ' || c == '\t'

/-- A character that stands for itself: a tab, or whatever is no control. -/
def isPlain (c : Char) : Bool :=
  c == '\t' || (0x20 ≤ c.toNat && c.toNat != 0x7F)

/-- Drop space within a line. -/
def skipSpace : Reader Unit :=
  modify fun cs => cs.dropWhile isSpace

/-- Drop space, ends of lines and comments, starting inside a comment or not. -/
def dropLines : Bool → List Char → Option (List Char)
  | _, [] => some []
  | _, '\n' :: rest => dropLines false rest
  | _, '\r' :: '\n' :: rest => dropLines false rest
  | true, c :: rest => if isPlain c then dropLines true rest else none
  | false, '#' :: rest => dropLines true rest
  | false, c :: rest => if isSpace c then dropLines false rest else some (c :: rest)

/-- Drop space, ends of lines and comments. -/
def skipLines : Reader Unit :=
  fun cs => (dropLines false cs).map fun rest => ((), rest)

/-- Drop an end of a line, which the end of the text also is. -/
def dropEnd : List Char → Option (List Char)
  | [] => some []
  | '\n' :: rest => some rest
  | '\r' :: '\n' :: rest => some rest
  | _ => none

/-- Drop the end of a line with the space and comment before it. -/
def endLine : Reader Unit := do
  skipSpace
  -- A comment ends where the line has to end; what is not plain fails there.
  if (← peek?) = some '#' then modify fun cs => cs.dropWhile isPlain
  fun cs => (dropEnd cs).map fun rest => ((), rest)

/-! ### Quoted texts -/

/-- The character that a one-letter escape stands for. -/
def shortEscape? : Char → Option Char
  | 'b' => some '\x08'
  | 't' => some '\t'
  | 'n' => some '\n'
  | 'f' => some '\x0c'
  | 'r' => some '\r'
  | '"' => some '"'
  | '\\' => some '\\'
  | _ => none

/-- The character with a code point in hexadecimal digits. -/
def codeEscape? (digits : List Char) : Option Char := do
  let n ← Text.hexNumber? digits
  if n.isValidChar then some (Char.ofNat n) else none

/-- Put a character in front of a text that has been read. -/
def consChar (c : Char) (read : Option (List Char × List Char)) :
    Option (List Char × List Char) :=
  read.map fun (text, rest) => (c :: text, rest)

/-- Read a basic text behind its opening quote. -/
def basicChars : List Char → Option (List Char × List Char)
  | [] => none
  | '"' :: rest => some ([], rest)
  | '\\' :: 'u' :: a :: b :: c :: d :: rest =>
    (codeEscape? [a, b, c, d]).bind fun x => consChar x (basicChars rest)
  | '\\' :: 'U' :: a :: b :: c :: d :: e :: f :: g :: h :: rest =>
    (codeEscape? [a, b, c, d, e, f, g, h]).bind fun x => consChar x (basicChars rest)
  | '\\' :: e :: rest => (shortEscape? e).bind fun x => consChar x (basicChars rest)
  | c :: rest => if isPlain c then consChar c (basicChars rest) else none

/-- Read a literal text behind its opening quote. -/
def literalChars : List Char → Option (List Char × List Char)
  | [] => none
  | '\'' :: rest => some ([], rest)
  | c :: rest => if isPlain c then consChar c (literalChars rest) else none

/-- The end of a long text behind its three closing quotes: up to two more
    quotes still belong to the text, in front of the closing ones. -/
def endLong (quote : Char) : List Char → List Char × List Char
  | a :: b :: rest =>
    if a = quote ∧ b = quote then ([quote, quote], rest)
    else if a = quote then ([quote], b :: rest)
    else ([], a :: b :: rest)
  | [a] => if a = quote then ([quote], []) else ([], [a])
  | [] => ([], [])

/-- Whether nothing but space is left of the line. -/
def restIsBlank (cs : List Char) : Bool :=
  match cs.dropWhile isSpace with
  | '\n' :: _ => true
  | '\r' :: '\n' :: _ => true
  | _ => false

/-- Read a long basic text behind its opening quotes. A backslash at the end of
    a line joins it with the next character that is neither space nor an end of
    a line; the flag says whether that character is being looked for. -/
def longBasicChars : Bool → List Char → Option (List Char × List Char)
  | _, [] => none
  | _, '"' :: '"' :: '"' :: rest => some (endLong '"' rest)
  | joining, '\n' :: rest =>
    if joining then longBasicChars true rest else consChar '\n' (longBasicChars false rest)
  | joining, '\r' :: '\n' :: rest =>
    if joining then longBasicChars true rest else consChar '\n' (longBasicChars false rest)
  | _, '\\' :: 'u' :: a :: b :: c :: d :: rest =>
    (codeEscape? [a, b, c, d]).bind fun x => consChar x (longBasicChars false rest)
  | _, '\\' :: 'U' :: a :: b :: c :: d :: e :: f :: g :: h :: rest =>
    (codeEscape? [a, b, c, d, e, f, g, h]).bind fun x => consChar x (longBasicChars false rest)
  | _, '\\' :: e :: rest =>
    -- The backslash ends the line, so the lines are joined.
    if restIsBlank (e :: rest) then longBasicChars true (e :: rest)
    else (shortEscape? e).bind fun x => consChar x (longBasicChars false rest)
  | joining, c :: rest =>
    if joining && isSpace c then longBasicChars true rest
    else if isPlain c then consChar c (longBasicChars false rest)
    else none

/-- Read a long literal text behind its opening quotes. -/
def longLiteralChars : List Char → Option (List Char × List Char)
  | [] => none
  | '\'' :: '\'' :: '\'' :: rest => some (endLong '\'' rest)
  | '\n' :: rest => consChar '\n' (longLiteralChars rest)
  | '\r' :: '\n' :: rest => consChar '\n' (longLiteralChars rest)
  | c :: rest => if isPlain c then consChar c (longLiteralChars rest) else none

/-- Drop the end of a line that directly follows the opening quotes of a long
    text. -/
def dropFirstEnd : List Char → List Char
  | '\n' :: rest => rest
  | '\r' :: '\n' :: rest => rest
  | cs => cs

/-- Read a quoted text that stays within its line. -/
def shortQuoted : Reader String := fun cs =>
  let read := match cs with
    | '"' :: rest => basicChars rest
    | '\'' :: rest => literalChars rest
    | _ => none
  read.map fun (text, rest) => (String.ofList text, rest)

/-- Read a quoted text of any form. -/
def quoted : Reader String := fun cs =>
  match cs with
  | '"' :: '"' :: '"' :: rest =>
    (longBasicChars false (dropFirstEnd rest)).map fun (text, rest) => (String.ofList text, rest)
  | '\'' :: '\'' :: '\'' :: rest =>
    (longLiteralChars (dropFirstEnd rest)).map fun (text, rest) => (String.ofList text, rest)
  | cs => shortQuoted cs

/-! ### Keys -/

/-- How deep tables and lists may be nested, and how many parts a dotted key may
    have. -/
def nestingLimit : Nat := 79

/-- A character of a key that is written without quotes. -/
def isKeyChar (c : Char) : Bool :=
  c.isAlphanum || c == '_' || c == '-'

/-- Read one part of a key. -/
def simpleKey : Reader String := do
  match ← peek? with
  | some '"' | some '\'' => shortQuoted
  | _ =>
    let name := (← get).takeWhile isKeyChar
    if name = [] then failure
    modify fun cs => cs.dropWhile isKeyChar
    return String.ofList name

/-- Read the parts of a dotted key, of which there may be `count` at the most,
    with the space around each. -/
def keyParts : Nat → Reader (List String)
  | 0 => failure
  | count + 1 => do
    skipSpace
    let part ← simpleKey
    skipSpace
    if (← peek?) = some '.' then
      advance
      return part :: (← keyParts count)
    else return [part]

/-- Read a dotted key: the parts before the last, and the last. -/
def key : Reader (List String × String) := do
  let parts ← keyParts nestingLimit
  return (parts.dropLast, parts.getLast?.getD "")

/-! ### Literals -/

/-- The digits of a number without the underscores, each of which stands between
    two digits. -/
def joinDigits (isDigit : Char → Bool) : List Char → Option (List Char)
  | [] => none
  | [c] => if isDigit c then some [c] else none
  | c :: '_' :: cs => if isDigit c then (joinDigits isDigit cs).map (c :: ·) else none
  | c :: cs => if isDigit c then (joinDigits isDigit cs).map (c :: ·) else none

/-- The digits of a whole number, which has no zero in front. -/
def wholeDigits : List Char → Option (List Char)
  | '0' :: _ :: _ => none
  | cs => joinDigits Char.isDigit cs

/-- Whether a minus stands before a number, and the number behind its sign. -/
def splitSign : List Char → Bool × List Char
  | '-' :: cs => (true, cs)
  | '+' :: cs => (false, cs)
  | cs => (false, cs)

/-- The value of digits in a base. -/
def inBase (base : Nat) (digits : List Char) : Option Int :=
  let isDigit (c : Char) : Bool := ((Text.hexValue? c).map fun d => decide (d < base)).getD false
  (joinDigits isDigit digits).map fun digits =>
    digits.foldl (fun (n : Int) c => n * base + (Text.hexValue? c).getD 0) 0

/-- An integer of 64 bits, in base ten or with the mark of another base. -/
def integer? (cs : List Char) : Option Int :=
  let value := match cs with
    | '0' :: 'x' :: cs => inBase 16 cs
    | '0' :: 'o' :: cs => inBase 8 cs
    | '0' :: 'b' :: cs => inBase 2 cs
    | cs =>
      let (negative, cs) := splitSign cs
      (wholeDigits cs).map fun digits =>
        let n : Int := Nat.ofDigitChars 10 digits 0
        if negative then -n else n
  value.filter Text.isLong

/-- The exponent of a number behind its letter. -/
def exponent? (cs : List Char) : Option Int :=
  let (negative, cs) := splitSign cs
  (joinDigits Char.isDigit cs).map fun digits =>
    let n : Int := Nat.ofDigitChars 10 digits 0
    if negative then -n else n

/-- The mark of an exponent. -/
def isExponentMark (c : Char) : Bool :=
  c == 'e' || c == 'E'

/-- The places behind the point, and the exponent, of a number with at least one
    of them. -/
def tail? : List Char → Option (List Char × Int)
  | '.' :: cs => do
    let places ← joinDigits Char.isDigit (cs.takeWhile fun c => !isExponentMark c)
    match cs.dropWhile fun c => !isExponentMark c with
    | [] => some (places, 0)
    | _ :: cs => (exponent? cs).map fun exponent => (places, exponent)
  | c :: cs => if isExponentMark c then (exponent? cs).map fun exponent => ([], exponent) else none
  | [] => none

/-- The number of a numeral with a point or an exponent. Numbers above all
    finite ones are refused. -/
def pointed? (negative : Bool) (cs : List Char) : Option Floating := do
  let isWhole (c : Char) : Bool := c != '.' && !isExponentMark c
  let whole ← wholeDigits (cs.takeWhile isWhole)
  let (places, exponent) ← tail? (cs.dropWhile isWhole)
  let x := Floating.ofDecimal negative (Nat.ofDigitChars 10 (whole ++ places) 0)
    (exponent - places.length)
  if x = .infinite false then none else some x

/-- A floating-point number. -/
def float? (cs : List Char) : Option Floating :=
  let (negative, cs) := splitSign cs
  match String.ofList cs with
  | "inf" => some (.infinite negative)
  | "nan" => some .notANumber
  | _ => pointed? negative cs

/-- The value of a literal. -/
def literal? (cs : List Char) : Option Value :=
  match String.ofList cs with
  | "true" => some (.boolean true)
  | "false" => some (.boolean false)
  | _ =>
    ((Moment.ofText? .strict cs).map Value.moment).or
      (((float? cs).map Value.float).or ((integer? cs).map Value.integer))

/-- A character that may belong to a literal. -/
def isLiteralChar (c : Char) : Bool :=
  c.isAlphanum || c == '+' || c == '-' || c == '_' || c == '.' || c == ':'

/-- Whether a text goes on with a space and the hours of a time of day. -/
def goesOnWithTime : List Char → Bool
  | ' ' :: a :: b :: ':' :: _ => a.isDigit && b.isDigit
  | _ => false

/-- Read a literal. A time of day that follows a date behind one space belongs
    to it. -/
def literal : Reader Value := do
  let token := (← get).takeWhile isLiteralChar
  let rest := (← get).dropWhile isLiteralChar
  let (token, rest) :=
    -- Only a date that is complete can go on behind a space.
    if (Moment.date? token).any (·.2 == []) && goesOnWithTime rest then
      (token ++ ' ' :: rest.tail.takeWhile isLiteralChar, rest.tail.dropWhile isLiteralChar)
    else (token, rest)
  set rest
  (literal? token).elim failure pure

end PanelSketch.Toml
