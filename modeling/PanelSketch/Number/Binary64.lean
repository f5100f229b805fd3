/-!
# Binary64 Magnitudes

A finite floating-point number of 64 bits is a whole number below 2^53 times a
power of two. This module keeps the magnitude of such a number as exactly that
pair and rounds every result to the nearest one, a tie going to the even
neighbour. All arithmetic is on natural numbers, so nothing is lost before the
one rounding that the result asks for.

The sign is not part of a magnitude: it never takes part in rounding, and zero
has to keep it.

## Main definitions

* `Binary64`: A finite magnitude.
* `Binary64.ofRatio?`: The magnitude nearest to a quotient, unless it is too
  large.
* `Binary64.ofDecimal?`: The magnitude nearest to a whole number times a power
  of ten.
* `Binary64.scaleDecimal?`: A magnitude times a power of ten, one rounded
  multiplication or division at a time.

## Theorems

* `roundHalfEven_exact`: A quotient without remainder is kept.
-/

namespace PanelSketch

/-- A power of a natural number. -/
def powerOf (base n : Nat) : Nat :=
  Nat.pow base n

/-- The magnitude `mantissa * 2 ^ exponent` of a finite number of 64 bits. -/
structure Binary64 where
  mantissa : Nat
  exponent : Int
  deriving DecidableEq, Repr

/-- The whole number nearest to a quotient, a tie going to the even one. -/
def roundHalfEven (num den : Nat) : Nat :=
  let q := num / den
  let r := num % den
  if 2 * r < den then q else if den < 2 * r then q + 1 else q + q % 2

theorem roundHalfEven_exact {den : Nat} (h : 0 < den) (q : Nat) :
    roundHalfEven (q * den) den = q := by
  simp [roundHalfEven, Nat.mul_div_cancel _ h, h]

namespace Binary64

/-- The magnitude zero. -/
def zero : Binary64 := ⟨0, 0⟩

/-- Whether a magnitude is zero. -/
def isZero (x : Binary64) : Bool := x.mantissa == 0

/-- The power of two below which no mantissa bit can stand. -/
def leastExponent : Int := -1074

/-- The greatest power of two that a mantissa can be scaled by. -/
def greatestExponent : Int := 971

/-- A quotient with its numerator or denominator scaled so that it is divided by
    a power of two. -/
def shiftRatio (num den : Nat) (exponent : Int) : Nat × Nat :=
  if 0 ≤ exponent then (num, den * powerOf 2 exponent.toNat)
  else (num * powerOf 2 (-exponent).toNat, den)

/-- The exponent at which a positive quotient has 53 bits, if there is one that is
    not below the least. -/
def fittingExponent (num den : Nat) : Int :=
  let guess : Int := (Nat.log2 num : Int) - Nat.log2 den - 52
  -- The quotient has 52 or 53 bits at the guess, and 53 are wanted.
  let (n, d) := shiftRatio num den guess
  max (if n / d < powerOf 2 52 then guess - 1 else guess) leastExponent

/-- The magnitude of a rounded mantissa, or `none` when it is too large. -/
def pack (mantissa : Nat) (exponent : Int) : Option Binary64 :=
  -- Rounding up may need one bit more.
  let (mantissa, exponent) :=
    if mantissa = powerOf 2 53 then (powerOf 2 52, exponent + 1) else (mantissa, exponent)
  if mantissa = 0 then some zero
  else if greatestExponent < exponent then none
  else some ⟨mantissa, exponent⟩

/-- The magnitude nearest to `num / den`, or `none` when it is too large. -/
def ofRatio? (num den : Nat) : Option Binary64 :=
  if num = 0 then some zero
  else
    let exponent := fittingExponent num den
    let (n, d) := shiftRatio num den exponent
    pack (roundHalfEven n d) exponent

/-- The magnitude nearest to a natural number. -/
def ofNat? (n : Nat) : Option Binary64 :=
  ofRatio? n 1

/-- A magnitude as a quotient of natural numbers. -/
def ratio (x : Binary64) : Nat × Nat :=
  if 0 ≤ x.exponent then (x.mantissa * powerOf 2 x.exponent.toNat, 1)
  else (x.mantissa, powerOf 2 (-x.exponent).toNat)

/-- The rounded product of two magnitudes. -/
def mul? (x y : Binary64) : Option Binary64 :=
  let (xn, xd) := x.ratio
  let (yn, yd) := y.ratio
  ofRatio? (xn * yn) (xd * yd)

/-- The rounded quotient of two magnitudes. -/
def div? (x y : Binary64) : Option Binary64 :=
  let (xn, xd) := x.ratio
  let (yn, yd) := y.ratio
  ofRatio? (xn * yd) (xd * yn)

/-- The magnitude nearest to `digits * 10 ^ exponent`, or `none` when it is too
    large. Exponents far outside the range are answered without building the
    power. -/
def ofDecimal? (digits : Nat) (exponent : Int) : Option Binary64 :=
  let size := (Nat.toDigits 10 digits).length
  if digits = 0 then some zero
  else if 310 < exponent + size then none
  else if exponent + size < -330 then some zero
  else if 0 ≤ exponent then ofRatio? (digits * powerOf 10 exponent.toNat) 1
  else ofRatio? digits (powerOf 10 (-exponent).toNat)

/-- The magnitude nearest to a power of ten, for exponents up to 308. -/
def powerOfTen (k : Nat) : Binary64 :=
  (ofRatio? (powerOf 10 k) 1).getD zero

/-- A magnitude times `10 ^ exponent`, computed with one rounded operation for
    every 308 powers of ten; `none` when the result is too large. -/
def scaleDecimal? (x : Binary64) (exponent : Int) : Option Binary64 :=
  if x.isZero then some x
  else if 308 < exponent then none
  else if 0 ≤ exponent then x.mul? (powerOfTen exponent.toNat)
  else if -308 ≤ exponent then x.div? (powerOfTen (-exponent).toNat)
  else (x.div? (powerOfTen 308)).bind fun y => scaleDecimal? y (exponent + 308)
termination_by exponent.natAbs
decreasing_by omega

end Binary64

end PanelSketch
