import PanelSketch.Number.Shortest
import PanelSketch.Text.Numeral

/-!
# Floating-Point Numbers

A floating-point number of 64 bits with everything it can be: a finite
magnitude with a sign, an infinity with a sign, or no number at all. Numbers in
configuration files and variables are of this sort, because nothing there rules
out the infinities.

As text such a number is a run of digits with at most one point, a sign before
it and a decimal exponent behind it, or one of three words in any case. A
numeral too large for a finite number stands for the infinity of its sign.

## Main definitions

* `Floating`: A floating-point number.
* `Floating.ofText?`: The number of a numeral or word.
* `Floating.text`: The number written out in full.
* `Floating.word`: The nearest unsigned 64-bit word.

## Theorems

* `Floating.word_lt`: The nearest word fits 64 bits.
-/

namespace PanelSketch

/-- A floating-point number of 64 bits. -/
inductive Floating where
  | finite (negative : Bool) (magnitude : Binary64)
  | infinite (negative : Bool)
  | notANumber
  deriving DecidableEq, Repr

namespace Floating

/-- The number nearest to `digits * 10 ^ exponent`; the infinity when it is too
    large. -/
def ofDecimal (negative : Bool) (digits : Nat) (exponent : Int) : Floating :=
  match Binary64.ofDecimal? digits exponent with
  | some x => .finite negative x
  | none => .infinite negative

/-- The exponent that makes up the whole of a text, zero when the text is
    empty. -/
def exponent? : List Char → Option Int
  | [] => some 0
  | c :: cs => if c = 'e' ∨ c = 'E' then Text.integer? cs else none

/-- The number of a numeral behind its sign. At least one digit stands before
    the exponent, on either side of the point. -/
def ofNumeral? (negative : Bool) (cs : List Char) : Option Floating :=
  let (whole, rest) := Text.spanDigits cs
  let (places, rest) := match rest with
    | '.' :: rest => Text.spanDigits rest
    | rest => ([], rest)
  if whole ++ places = [] then none
  else (exponent? rest).map fun exponent =>
    ofDecimal negative (Nat.ofDigitChars 10 (whole ++ places) 0) (exponent - places.length)

/-- The number of a word or numeral behind its sign. -/
def ofUnsigned? (negative : Bool) (cs : List Char) : Option Floating :=
  match String.ofList (cs.map Char.toLower) with
  | "inf" | "infinity" => some (.infinite negative)
  | "nan" => some .notANumber
  | _ => ofNumeral? negative cs

/-- The number that a text stands for. -/
def ofText? : List Char → Option Floating
  | '-' :: cs => ofUnsigned? true cs
  | '+' :: cs => ofUnsigned? false cs
  | cs => ofUnsigned? false cs

/-- Numbers are written out in full, a whole number without a point, and a tie
    goes away from zero. -/
def fullLayout : Layout := ⟨none, none, false, .away⟩

/-- Numbers are written out in full, a whole number with a point, and a tie goes
    away from zero. -/
def pointedLayout : Layout := ⟨none, none, true, .away⟩

/-- A number as text, its finite magnitudes in a layout. -/
def render (layout : Layout) : Floating → String
  | .finite negative magnitude => layout.render negative magnitude
  | .infinite negative => if negative then "-inf" else "inf"
  | .notANumber => "NaN"

/-- A number written out in full. -/
def text (x : Floating) : String :=
  x.render fullLayout

/-- The greatest unsigned 64-bit word. -/
def greatestWord : Nat := UInt64.size - 1

/-- The unsigned 64-bit word nearest to a number, a tie going away from zero.
    What is below every word becomes the least one, what is above becomes the
    greatest one, and what is no number becomes zero. -/
def word : Floating → Nat
  | .finite false magnitude =>
    let (num, den) := magnitude.ratio
    min ((2 * num + den) / (2 * den)) greatestWord
  | .infinite false => greatestWord
  | _ => 0

theorem word_lt (x : Floating) : x.word < UInt64.size := by
  have h : greatestWord < UInt64.size := by decide
  unfold word
  split
  · exact Nat.lt_of_le_of_lt (Nat.min_le_right _ _) h
  · exact h
  · decide

end Floating

end PanelSketch
