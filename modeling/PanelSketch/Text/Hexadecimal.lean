/-!
# Hexadecimal Digits

Colours, digests and escapes are written in base sixteen. Reading takes ASCII
digits of either case; writing chooses the case and pads with zeros to a fixed
width, because every number written here is a word of known size.

## Main definitions

* `hexValue?`: The value of one digit.
* `hexNumber?`: The value of a run of digits.
* `hexDigit`: The digit of a value, in small letters.
* `hexWord`: A number in a fixed count of small digits.
* `hexBytes`: Bytes, two small digits each.

## Theorems

* `length_hexWord`: The width is as asked.
-/

namespace PanelSketch.Text

/-- The value of an ASCII hexadecimal digit of either case. -/
def hexValue? (c : Char) : Option Nat :=
  if '0' ≤ c ∧ c ≤ '9' then some (c.toNat - '0'.toNat)
  else if 'a' ≤ c ∧ c ≤ 'f' then some (c.toNat - 'a'.toNat + 10)
  else if 'A' ≤ c ∧ c ≤ 'F' then some (c.toNat - 'A'.toNat + 10)
  else none

/-- The value of a run of hexadecimal digits, with the digits read before it. -/
def hexNumberFrom? (value : Nat) : List Char → Option Nat
  | [] => some value
  | c :: cs => (hexValue? c).bind fun d => hexNumberFrom? (value * 16 + d) cs

/-- The value of a run of hexadecimal digits. -/
def hexNumber? (cs : List Char) : Option Nat :=
  hexNumberFrom? 0 cs

/-- The small digit of a value below sixteen. -/
def hexDigit (n : Nat) : Char :=
  if n < 10 then Char.ofNat (n + '0'.toNat) else Char.ofNat (n - 10 + 'a'.toNat)

/-- The last `width` small digits of a number. -/
def hexWord : Nat → Nat → List Char
  | 0, _ => []
  | width + 1, n => hexWord width (n / 16) ++ [hexDigit (n % 16)]

/-- Bytes in small digits, two for each. -/
def hexBytes (bytes : List UInt8) : String :=
  String.ofList (bytes.flatMap fun b => hexWord 2 b.toNat)

theorem length_hexWord (width n : Nat) : (hexWord width n).length = width := by
  induction width generalizing n with
  | zero => rfl
  | succ width ih => simp [hexWord, ih]

end PanelSketch.Text
