/-!
# Blank Characters

Text that people type arrives with stray space around it: a drawing kind, a
template name, a number in a form field, an encoded image. All of them are
read after trimming, and the space that trimming removes is the one the
Unicode property `White_Space` names, which is wider than the ASCII spaces.

The property is data of a standard, so it stands here as a table of ranges and
nothing else in the library mentions a code point.

## Main definitions

* `isBlank`: Membership in `White_Space`.
* `trimChars`, `trim`: A text without the blanks at its two ends.

## Theorems

* `isBlank_of_isWhitespace`: The blanks of ASCII are blanks.
-/

namespace PanelSketch.Text

/-- Ranges of code points, both ends included, that have the property
    `White_Space`. -/
def blankRanges : List (Nat × Nat) :=
  [(0x9, 0xD), (0x20, 0x20), (0x85, 0x85), (0xA0, 0xA0), (0x1680, 0x1680), (0x2000, 0x200A),
   (0x2028, 0x2029), (0x202F, 0x202F), (0x205F, 0x205F), (0x3000, 0x3000)]

/-- Whether a character has the property `White_Space`. -/
def isBlank (c : Char) : Bool :=
  blankRanges.any fun (first, last) => first ≤ c.toNat && c.toNat ≤ last

/-- The characters left when the blanks at both ends are dropped. -/
def trimChars (cs : List Char) : List Char :=
  ((cs.dropWhile isBlank).reverse.dropWhile isBlank).reverse

/-- A text without the blanks at its two ends. -/
def trim (s : String) : String :=
  String.ofList (trimChars s.toList)

theorem isBlank_of_isWhitespace {c : Char} (h : c.isWhitespace = true) : isBlank c = true := by
  simp only [Char.isWhitespace, Bool.or_eq_true, decide_eq_true_eq] at h
  rcases h with ((h | h) | h) | h <;> subst h <;> decide

end PanelSketch.Text
