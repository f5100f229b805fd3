import PanelSketch.Number.Shortest

/-!
# JSON Values

A JSON document as data. Objects keep their members in the order in which they
were written, because the order is visible when the document is printed again.

Numbers come in two sorts that never mix. A literal without fraction and
exponent is an integer as long as it fits 64 bits, signed or unsigned; any
other literal is a floating-point number, and so is minus zero, which no
integer can carry.

## Main definitions

* `Json.Number`: An integer or a floating-point number.
* `Json.Number.text`: The number as it is printed.
* `Json.Value`: A document.

## Theorems

* `Json.Number.text_integer`: An integer is printed by its digits.
-/

namespace PanelSketch.Json

/-- A JSON number: an integer that fits 64 bits, or a floating-point number. -/
inductive Number where
  | integer (n : Int)
  | float (negative : Bool) (magnitude : Binary64)
  deriving DecidableEq, Repr

/-- Floating-point numbers are written out from one hundred-thousandth up to
    sixteen digits before the point, and always with a point or an exponent. -/
def floatLayout : Layout := ⟨some (-5), some 15, true, .toEven⟩

/-- The number as it is printed. -/
def Number.text : Number → String
  | .integer n => n.repr
  | .float negative magnitude => floatLayout.render negative magnitude

/-- A JSON document. -/
inductive Value where
  | null
  | boolean (b : Bool)
  | number (n : Number)
  | text (s : String)
  | list (items : List Value)
  | object (members : List (String × Value))
  deriving Repr

/-- The value of the last member with a key. -/
def Value.member? (value : Value) (key : String) : Option Value :=
  match value with
  | .object members => (members.reverse.find? (·.1 == key)).map (·.2)
  | _ => none

theorem Number.text_integer (n : Int) : (Number.integer n).text = n.repr := rfl

end PanelSketch.Json
