import PanelSketch.Text.Hexadecimal

/-!
# Panel Colours

A panel stores a colour in sixteen bits, five for red, six for green and five
for blue, while people write colours as `#rrggbb` or `#rgb`. Each channel is
scaled by an exact integer quotient, so the extremes stay the extremes and
nothing is rounded twice.

A text that is not a colour is black. That includes signs and blanks between
the digits, and any text of the right length with a character that is no ASCII
digit.

## Main definitions

* `Rgb565`: A colour in sixteen bits.
* `Rgb565.ofChannels`: The colour nearest below three channels of eight bits.
* `Rgb565.parse?`, `Rgb565.ofText`: The colour that a text writes.
* `Rgb565.code`: The colour as a C number.

## Theorems

* `Rgb565.ofText_of_parse?_eq_none`: What is no colour is black.
-/

namespace PanelSketch

open Text (hexNumber? hexWord)

/-- A colour with five bits of red, six of green and five of blue. -/
structure Rgb565 where
  bits : UInt16
  deriving DecidableEq, Repr

namespace Rgb565

/-- No light at all. -/
def black : Rgb565 := ⟨0⟩

/-- Scale three channels of eight bits to the bits of the panel. -/
def ofChannels (r g b : Nat) : Rgb565 :=
  ⟨UInt16.ofNat ((r * 31 / 255) * 2048 + (g * 63 / 255) * 32 + b * 31 / 255)⟩

/-- The colour of six hexadecimal digits. -/
def ofDigits? : List Char → Option Rgb565
  | [r₁, r₂, g₁, g₂, b₁, b₂] => do
    return ofChannels (← hexNumber? [r₁, r₂]) (← hexNumber? [g₁, g₂]) (← hexNumber? [b₁, b₂])
  | _ => none

/-- The colour that a text writes as `#rrggbb`, or as `#rgb` with every digit
    standing for two. -/
def parse? (text : String) : Option Rgb565 :=
  match text.toList with
  | ['#', r, g, b] => ofDigits? [r, r, g, g, b, b]
  | '#' :: digits => ofDigits? digits
  | _ => none

/-- The colour that a text writes, or black. -/
def ofText (text : String) : Rgb565 :=
  (parse? text).getD black

/-- The colour as a C number of four digits. -/
def code (color : Rgb565) : String :=
  "0x" ++ (String.ofList (hexWord 4 color.bits.toNat)).toUpper

theorem ofText_of_parse?_eq_none {text : String} (h : parse? text = none) :
    ofText text = black := by
  rw [ofText, h]
  rfl

end Rgb565

end PanelSketch
