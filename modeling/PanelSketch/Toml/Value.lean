import PanelSketch.Number.Floating

/-!
# TOML Values

A TOML document as data. Dates and times are kept as the text of their one
normal form, because nothing here computes with them. They are still no texts:
a text may be written where a date is not allowed, and the other way round.

## Main definitions

* `Toml.Value`: A value, of which a document is a table.
-/

namespace PanelSketch.Toml

/-- A TOML value. -/
inductive Value where
  | text (s : String)
  | integer (n : Int)
  | float (x : Floating)
  | boolean (b : Bool)
  | moment (s : String)
  | list (items : List Value)
  | table (members : List (String × Value))
  deriving Repr

end PanelSketch.Toml
