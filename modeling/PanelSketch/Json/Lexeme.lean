import PanelSketch.Json.Fault
import PanelSketch.Text.Hexadecimal
import PanelSketch.Text.Numeral

/-!
# JSON Lexemes

The smallest pieces of a document: blanks, words, numbers and quoted texts.
Each piece is read by a function of its own that takes the text from where the
piece starts and returns what it means together with the rest.

Numbers and quoted texts can also be passed over. Passing over checks that the
piece is well formed and forgets what it means, so it neither pairs surrogates
nor minds how large a number is.

A number is read digit by digit into a 64-bit word. Digits that no longer fit
are dropped, which moves the decimal exponent but not the significand, and the
result is scaled by a rounded power of ten.

## Main definitions

* `Reader`: A reader of part of a text.
* `skipBlanks`, `next?`: The next character that is no blank.
* `word`: A fixed word.
* `readNumber`, `passNumber`: A number, read or passed over.
* `readText`, `passText`: A quoted text behind its opening quote, read or
  passed over.
-/

namespace PanelSketch.Json

open Text (hexNumber? spanDigits)

/-- A reader of part of a text: it fails, or it returns a value and leaves the
    rest. -/
abbrev Reader := StateT (List Char) (Except Fault)

/-- Fail with a cause. -/
def fail {α : Type} (fault : Fault) : Reader α :=
  fun _ => .error fault

/-- The blanks that may stand between lexemes. -/
def isBlank (c : Char) : Bool :=
  c == ' ' || c == '\t' || c == '\n' || c == '\r'

/-- Drop blanks. -/
def skipBlanks : Reader Unit :=
  modify fun cs => cs.dropWhile isBlank

/-- Drop blanks and look at the next character. -/
def next? : Reader (Option Char) := do
  skipBlanks
  return (← get).head?

/-- Drop one character. -/
def advance : Reader Unit :=
  modify List.tail

/-- Read the characters of a fixed word. -/
def word : List Char → Reader Unit
  | [] => return
  | c :: cs => do
    match ← get with
    | [] => fail .endInValue
    | d :: _ =>
      if d = c then
        advance
        word cs
      else fail .expectedWord

/-! ### Numbers -/

/-- The greatest significand. -/
def significandLimit : Nat := UInt64.size - 1

/-- The greatest significand of a negative integer. -/
def negativeLimit : Nat := UInt64.size / 2

/-- The greatest decimal exponent that is read as it is written. -/
def exponentLimit : Int := 2147483647

/-- Append digits to a significand while the result fits 64 bits, and count the
    digits that no longer do. -/
def appendDigits (significand : Nat) : List Char → Nat × Nat
  | [] => (significand, 0)
  | c :: cs =>
    let longer := significand * 10 + (c.toNat - '0'.toNat)
    if longer ≤ significandLimit then appendDigits longer cs else (significand, (c :: cs).length)

/-- The floating-point number of a significand and a decimal exponent. -/
def floatNumber (negative : Bool) (significand : Nat) (exponent : Int) : Except Fault Number :=
  match (Binary64.ofNat? significand).bind (·.scaleDecimal? exponent) with
  | some magnitude => .ok (.float negative magnitude)
  | none => .error .numberTooLarge

/-- The number of a literal without fraction and exponent whose digits fit. -/
def integerNumber (negative : Bool) (significand : Nat) : Except Fault Number :=
  if negative then
    -- No integer is a negative zero or below the least word.
    if significand = 0 ∨ negativeLimit < significand then floatNumber true significand 0
    else .ok (.integer (-(significand : Int)))
  else .ok (.integer significand)

/-- Read the exponent behind its letter and finish the number. -/
def readExponent (negative : Bool) (significand : Nat) (exponent : Int) (cs : List Char) :
    Except Fault (Number × List Char) :=
  let (shrinks, cs) := match cs with
    | '+' :: cs => (false, cs)
    | '-' :: cs => (true, cs)
    | cs => (false, cs)
  match spanDigits cs with
  | ([], []) => .error .endInValue
  | ([], _ :: _) => .error .badNumber
  | (digits, rest) =>
    let power : Int := Nat.ofDigitChars 10 digits 0
    if exponentLimit < power then
      -- Such a power takes every number beyond all limits, up or down, but leaves zero.
      if shrinks ∨ significand = 0 then .ok (.float negative .zero, rest)
      else .error .numberTooLarge
    else do
      let scale := if shrinks then exponent - power else exponent + power
      let x ← floatNumber negative significand scale
      return (x, rest)

/-- Read what may follow the fraction. -/
def readAfterFraction (negative : Bool) (significand : Nat) (exponent : Int) (cs : List Char) :
    Except Fault (Number × List Char) :=
  match cs with
  | 'e' :: cs | 'E' :: cs => readExponent negative significand exponent cs
  | cs => do return (← floatNumber negative significand exponent, cs)

/-- Read the fraction behind its point and finish the number. -/
def readFraction (negative : Bool) (significand : Nat) (exponent : Int) (cs : List Char) :
    Except Fault (Number × List Char) :=
  match spanDigits cs with
  | ([], []) => .error .endInValue
  | ([], _ :: _) => .error .badNumber
  | (digits, rest) =>
    let (longer, dropped) := appendDigits significand digits
    -- Only the digits that were appended move the point.
    readAfterFraction negative longer (exponent - (digits.length - dropped : Nat)) rest

/-- Read a number behind its sign. -/
def readMagnitude (negative : Bool) (cs : List Char) : Except Fault (Number × List Char) :=
  match spanDigits cs with
  | ([], []) => .error .endInValue
  | ([], _ :: _) => .error .badNumber
  | ('0' :: _ :: _, _) => .error .badNumber
  | (digits, rest) =>
    let (significand, dropped) := appendDigits 0 digits
    match rest with
    | '.' :: rest => readFraction negative significand dropped rest
    | 'e' :: rest | 'E' :: rest => readExponent negative significand dropped rest
    | rest =>
      if dropped = 0 then do return (← integerNumber negative significand, rest)
      else do return (← floatNumber negative significand dropped, rest)

/-- Read a number from its first character on. -/
def readNumber : Reader Number := fun cs =>
  match cs with
  | '-' :: cs => readMagnitude true cs
  | cs => readMagnitude false cs

/-- Pass over an exponent behind its letter. -/
def passExponent (cs : List Char) : Except Fault (List Char) :=
  let cs := match cs with
    | '+' :: cs | '-' :: cs => cs
    | cs => cs
  match spanDigits cs with
  | ([], _) => .error .badNumber
  | (_, rest) => .ok rest

/-- Pass over what may follow the digits of a number. -/
def passFraction (cs : List Char) : Except Fault (List Char) :=
  match cs with
  | '.' :: cs =>
    match spanDigits cs with
    | ([], _) => .error .badNumber
    | (_, 'e' :: rest) | (_, 'E' :: rest) => passExponent rest
    | (_, rest) => .ok rest
  | 'e' :: cs | 'E' :: cs => passExponent cs
  | cs => .ok cs

/-- Pass over a number from its first character on. -/
def passNumber : Reader Unit := fun cs => do
  let cs := match cs with
    | '-' :: cs => cs
    | cs => cs
  match spanDigits cs with
  | ([], _) => .error .badNumber
  | ('0' :: _ :: _, _) => .error .badNumber
  | (_, rest) => return ((), ← passFraction rest)

/-! ### Quoted texts -/

/-- The character that a one-letter escape stands for. -/
def shortEscape? : Char → Option Char
  | '"' => some '"'
  | '\\' => some '\\'
  | '/' => some '/'
  | 'b' => some '\x08'
  | 'f' => some '\x0c'
  | 'n' => some '\n'
  | 'r' => some '\r'
  | 't' => some '\t'
  | _ => none

/-- Why four digits could not be read: fewer than four bytes are left, or one of
    them is no digit. -/
def digitFault (cs : List Char) : Fault :=
  if (String.ofList (cs.take 4)).utf8ByteSize < 4 then .endInText else .badEscape

/-- The first half of a pair of escapes for one character. -/
def isHighSurrogate (n : Nat) : Bool := 0xD800 ≤ n && n ≤ 0xDBFF

/-- The second half of a pair of escapes for one character. -/
def isLowSurrogate (n : Nat) : Bool := 0xDC00 ≤ n && n ≤ 0xDFFF

/-- The character of a pair of escapes. -/
def pairChar (high low : Nat) : Char :=
  Char.ofNat (0x10000 + (high - 0xD800) * 0x400 + (low - 0xDC00))

/-- Put a character in front of a text that has been read. -/
def consChar (c : Char) (read : Except Fault (List Char × List Char)) :
    Except Fault (List Char × List Char) :=
  read.map fun (text, rest) => (c :: text, rest)

/-- Read the characters of a text up to its closing quote. -/
def readTextChars : List Char → Except Fault (List Char × List Char)
  | [] => .error .endInText
  | '"' :: rest => .ok ([], rest)
  | ['\\'] => .error .endInText
  | '\\' :: 'u' :: a :: b :: c :: d :: rest =>
    match hexNumber? [a, b, c, d] with
    | none => .error .badEscape
    | some n =>
      if isLowSurrogate n then .error .loneSurrogate
      else if isHighSurrogate n then
        match rest with
        | [] => .error .endInText
        | ['\\'] => .error .endInText
        | '\\' :: 'u' :: e :: f :: g :: h :: rest =>
          match hexNumber? [e, f, g, h] with
          | none => .error .badEscape
          | some m =>
            if isLowSurrogate m then consChar (pairChar n m) (readTextChars rest)
            else .error .loneSurrogate
        | '\\' :: 'u' :: rest => .error (digitFault rest)
        | _ => .error .unpairedSurrogate
      else consChar (Char.ofNat n) (readTextChars rest)
  | '\\' :: 'u' :: rest => .error (digitFault rest)
  | '\\' :: e :: rest =>
    match shortEscape? e with
    | some c => consChar c (readTextChars rest)
    | none => .error .badEscape
  | c :: rest =>
    if c.toNat < 0x20 then .error .controlCharacter else consChar c (readTextChars rest)

/-- Read a text behind its opening quote. -/
def readText : Reader String := fun cs =>
  (readTextChars cs).map fun (text, rest) => (String.ofList text, rest)

/-- Pass over the characters of a text up to its closing quote. -/
def passTextChars : List Char → Except Fault (List Char)
  | [] => .error .endInText
  | '"' :: rest => .ok rest
  | ['\\'] => .error .endInText
  | '\\' :: 'u' :: a :: b :: c :: d :: rest =>
    if (hexNumber? [a, b, c, d]).isSome then passTextChars rest else .error .badEscape
  | '\\' :: 'u' :: rest => .error (digitFault rest)
  | '\\' :: e :: rest => if (shortEscape? e).isSome then passTextChars rest else .error .badEscape
  | c :: rest => if c.toNat < 0x20 then .error .controlCharacter else passTextChars rest

/-- Pass over a text behind its opening quote. -/
def passText : Reader Unit := fun cs =>
  (passTextChars cs).map fun rest => ((), rest)

end PanelSketch.Json
