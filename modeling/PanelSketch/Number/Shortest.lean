import PanelSketch.Number.Binary64

/-!
# Shortest Decimals

A floating-point number is written with the fewest decimal digits that read
back as the same number, and of those with the digits nearest to it. Two
decimals can be equally near; which of them is taken is up to the format.

The reals that round to a magnitude form an interval around it, whose ends
belong to it exactly when the mantissa is even. For one digit, two digits and
so on, the two neighbours of the magnitude on that decimal grid are tried; the
first grid with a neighbour inside the interval wins. Seventeen digits always
suffice.

How the digits are laid out is a matter of the format that prints them. A
`Layout` says from which to which power of ten a number is written out, whether
a whole number keeps a point, and which of two equally near decimals is taken.

## Main definitions

* `Decimal`: Digits and the power of ten they are scaled by.
* `Tie`: Which of two equally near decimals is taken.
* `Binary64.shortest`: The shortest decimal of a magnitude.
* `Layout`: How a format writes a decimal.
* `Layout.render`: A finite number in a given layout.
-/

namespace PanelSketch

/-- The number `digits * 10 ^ exponent`. -/
structure Decimal where
  digits : Nat
  exponent : Int
  deriving DecidableEq, Repr

/-- Which of two equally near decimals is taken. -/
inductive Tie where
  /-- The one with an even last digit. -/
  | toEven
  /-- The one farther from zero. -/
  | away
  deriving DecidableEq, Repr

/-- Whether the upper of two equally near decimals is taken, of which the lower
    has these digits. -/
def Tie.takesUpper : Tie → Nat → Bool
  | .toEven, lower => lower % 2 == 1
  | .away, _ => true

namespace Binary64

/-- A power of ten on the side of a quotient where it keeps both numbers whole:
    the quotient is divided by `10 ^ exponent`. -/
def shiftDecimal (num den : Nat) (exponent : Int) : Nat × Nat :=
  if 0 ≤ exponent then (num, den * powerOf 10 exponent.toNat)
  else (num * powerOf 10 (-exponent).toNat, den)

/-- The exponent of the leading decimal digit of a positive quotient. -/
def leadingExponent (num den : Nat) : Int :=
  let guess : Int := (Nat.toDigits 10 num).length - (Nat.toDigits 10 den).length
  -- The guess is one too great when the shifted numerator is the lesser number.
  let (n, d) := shiftDecimal num den guess
  if n < d then guess - 1 else guess

/-- The ends of the interval of reals that round to a magnitude, as numerators
    over four times the denominator of its ratio. The gap below a power of two
    is half as wide as the one above. -/
def ends (x : Binary64) : Nat × Nat :=
  let (num, _) := x.ratio
  let unit := num / x.mantissa
  let below :=
    if x.mantissa = powerOf 2 52 ∧ leastExponent < x.exponent then unit else 2 * unit
  (4 * num - below, 4 * num + 2 * unit)

/-- Whether `digits * 10 ^ exponent` rounds to the magnitude. -/
def readsBack (x : Binary64) (digits : Nat) (exponent : Int) : Bool :=
  let (low, high) := x.ends
  let (_, den) := x.ratio
  let (power, divisor) :=
    if 0 ≤ exponent then (powerOf 10 exponent.toNat, 1) else (1, powerOf 10 (-exponent).toNat)
  let value := 4 * den * digits * power
  -- The ends of the interval round to the even mantissa.
  if x.mantissa % 2 = 0 then low * divisor ≤ value && value ≤ high * divisor
  else low * divisor < value && value < high * divisor

/-- The neighbour of a magnitude on the grid of multiples of `10 ^ exponent`
    that reads back and is nearer. -/
def nearest? (tie : Tie) (x : Binary64) (exponent : Int) : Option Decimal :=
  let (num, den) := x.ratio
  let (n, d) := shiftDecimal num den exponent
  let lower := n / d
  let r := n % d
  let upperNearer := d < 2 * r || (d == 2 * r && tie.takesUpper lower)
  match x.readsBack lower exponent, x.readsBack (lower + 1) exponent with
  | true, true => some ⟨if upperNearer then lower + 1 else lower, exponent⟩
  | true, false => some ⟨lower, exponent⟩
  | false, true => some ⟨lower + 1, exponent⟩
  | false, false => none

/-- The shortest decimal that reads back as the magnitude. -/
def shortest (tie : Tie) (x : Binary64) : Decimal :=
  if x.isZero then ⟨0, 0⟩
  else
    let (num, den) := x.ratio
    let lead := leadingExponent num den
    ((List.range 17).findSome? fun more : Nat => x.nearest? tie (lead - more)).getD ⟨0, 0⟩

end Binary64

/-- How a format writes a decimal number. -/
structure Layout where
  /-- The least power of ten of a leading digit that is written out; every one
      when absent. -/
  least? : Option Int
  /-- The greatest power of ten of a leading digit that is written out; every
      one when absent. -/
  greatest? : Option Int
  /-- Whether a whole number is written with a point and a zero. -/
  keepsPoint : Bool
  /-- Which of two equally near decimals is taken. -/
  tie : Tie
  deriving DecidableEq, Repr

namespace Layout

/-- Digits without the zeros at their end, and how many those were. -/
def trimZeros (ds : List Char) : List Char × Nat :=
  let kept := (ds.reverse.dropWhile (· == '0')).reverse
  (kept, ds.length - kept.length)

/-- A decimal written out. -/
def positional (keepsPoint : Bool) (ds : List Char) (exponent : Int) : List Char :=
  if 0 ≤ exponent then
    ds ++ List.replicate exponent.toNat '0' ++ (if keepsPoint then ['.', '0'] else [])
  else
    let places := (-exponent).toNat
    if places < ds.length then
      ds.take (ds.length - places) ++ '.' :: ds.drop (ds.length - places)
    else '0' :: '.' :: List.replicate (places - ds.length) '0' ++ ds

/-- A decimal with its leading digit before the point and a signed exponent. -/
def scientific (ds : List Char) (lead : Int) : List Char :=
  let sign := if 0 ≤ lead then '+' else '-'
  let tail := 'e' :: sign :: Nat.toDigits 10 lead.natAbs
  match ds with
  | [] => tail
  | [d] => d :: tail
  | d :: ds => d :: '.' :: ds ++ tail

/-- A decimal in a layout. -/
def decimal (layout : Layout) (x : Decimal) : String :=
  if x.digits = 0 then if layout.keepsPoint then "0.0" else "0"
  else
    let (ds, dropped) := trimZeros (Nat.toDigits 10 x.digits)
    let exponent := x.exponent + dropped
    let lead := exponent + ds.length - 1
    let writtenOut :=
      layout.least?.all (· ≤ lead) && layout.greatest?.all (lead ≤ ·)
    String.ofList
      (if writtenOut then positional layout.keepsPoint ds exponent else scientific ds lead)

/-- A finite number in a layout: the shortest decimal of its magnitude. -/
def render (layout : Layout) (negative : Bool) (x : Binary64) : String :=
  (if negative then "-" else "") ++ layout.decimal (x.shortest layout.tie)

end Layout

end PanelSketch
