/-!
# Decimal Numerals

Numbers are read from text in three places: the running number inside an id,
the coordinates of a patch, and the values of a configuration variable. All
three use one grammar, a run of ASCII digits with at most one sign before it,
and differ only in which signs and which range they admit.

Reading is exact in `Nat` first and narrowed to a word afterwards, so no
intermediate value can wrap around.

## Main definitions

* `spanDigits`: The digits in front of a text, and the rest.
* `natural?`: A non-empty run of digits and its value.
* `integer?`: The same with at most one sign.
* `unsigned?`: The same with at most a plus sign.
* `word?`: A numeral that fits an unsigned 32-bit word.
* `longWord?`, `long?`: A numeral that fits 64 bits, unsigned or signed.
* `pixelsOfInt?`, `pixels?`: An integer, or a numeral, that fits a signed 32-bit
  word.
* `clampPixels`: The signed 32-bit word nearest to an integer.

## Theorems

* `natural?_repr`: A printed number reads back.
* `toInt_of_pixelsOfInt?`: Narrowing keeps the value.
* `toInt_clampPixels`: Clamping keeps every integer in range.
-/

namespace PanelSketch.Text

/-- Split off the digits in front. -/
def spanDigits (cs : List Char) : List Char × List Char :=
  (cs.takeWhile Char.isDigit, cs.dropWhile Char.isDigit)

/-- The value of a non-empty run of ASCII digits. -/
def natural? (cs : List Char) : Option Nat :=
  if cs ≠ [] ∧ cs.all Char.isDigit then some (Nat.ofDigitChars 10 cs 0) else none

/-- The value of a run of digits with at most one sign before it. -/
def integer? : List Char → Option Int
  | '-' :: cs => (natural? cs).map fun n => -(n : Int)
  | '+' :: cs => (natural? cs).map Int.ofNat
  | cs => (natural? cs).map Int.ofNat

/-- A run of digits with at most a plus sign before it. -/
def unsigned? : List Char → Option Nat
  | '+' :: cs => natural? cs
  | cs => natural? cs

/-- An unsigned 32-bit word, which takes a plus sign but no minus sign. -/
def word? (s : String) : Option UInt32 :=
  (unsigned? s.toList).bind fun n => if n < UInt32.size then some (UInt32.ofNat n) else none

/-- An unsigned integer of 64 bits. -/
def longWord? (s : String) : Option Nat :=
  (unsigned? s.toList).filter (· < UInt64.size)

/-- Whether an integer fits a signed word of 64 bits. -/
def isLong (n : Int) : Bool :=
  decide (-9223372036854775808 ≤ n) && decide (n ≤ 9223372036854775807)

/-- A signed integer of 64 bits. -/
def long? (s : String) : Option Int :=
  (integer? s.toList).filter isLong

/-- The least signed 32-bit word. -/
def leastPixels : Int := -2147483648

/-- The greatest signed 32-bit word. -/
def greatestPixels : Int := 2147483647

/-- The signed 32-bit word of an integer in range. -/
def pixelsOfInt? (n : Int) : Option Int32 :=
  if leastPixels ≤ n ∧ n ≤ greatestPixels then some (Int32.ofInt n) else none

/-- A signed 32-bit word. -/
def pixels? (s : String) : Option Int32 :=
  (integer? s.toList).bind pixelsOfInt?

/-- The signed 32-bit word nearest to an integer. -/
def clampPixels (n : Int) : Int32 :=
  Int32.ofInt (max leastPixels (min n greatestPixels))

theorem natural?_repr (n : Nat) : natural? n.repr.toList = some n := by
  have hd : ∀ c ∈ Nat.toDigits 10 n, c.isDigit = true := fun c hc =>
    Nat.isDigit_of_mem_toDigits (by decide) (by decide) hc
  have hr : n.repr.toList = Nat.toDigits 10 n := by simp [Nat.repr]
  rw [hr, natural?, if_pos ⟨Nat.toDigits_ne_nil, List.all_eq_true.2 hd⟩,
    Nat.ofDigitChars_ten_toDigits]

theorem toInt_of_pixelsOfInt? {n : Int} {x : Int32} (h : pixelsOfInt? n = some x) :
    x.toInt = n := by
  unfold pixelsOfInt? leastPixels greatestPixels at h
  split at h
  · rename_i hn
    obtain rfl := Option.some.inj h
    exact Int32.toInt_ofInt_of_le (by omega) (by omega)
  · simp at h

theorem toInt_clampPixels {n : Int} (h : leastPixels ≤ n ∧ n ≤ greatestPixels) :
    (clampPixels n).toInt = n := by
  unfold leastPixels greatestPixels at h
  rw [clampPixels, leastPixels, greatestPixels, Int32.toInt_ofInt_of_le (by omega) (by omega)]
  omega

end PanelSketch.Text
