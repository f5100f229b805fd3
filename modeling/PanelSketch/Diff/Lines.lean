/-!
# Lines of a Text

A text is compared line by line. A line ends behind a line feed, behind a
carriage return, or behind the two together, and it keeps what ends it; what is
left behind the last end is a line too. So the lines of a text are the text
again when they are put together.

Two texts that are compared are kept as arrays of lines, because the comparison
jumps back and forth between them.

## Main definitions

* `splitLines`: The lines of a text.
* `Revision`: The lines of an old and a new text.
* `Revision.commonPrefix`, `Revision.commonSuffix`: How far the two agree from a
  pair of places on, forward and backward.

## Theorems

* `flatten_splitChars`: Nothing is lost.
* `commonPrefix_le`, `commonSuffix_le`: Neither runs further than allowed.
-/

namespace PanelSketch.Diff

/-- Put a character in front of the first line. -/
def consLine (c : Char) : List (List Char) → List (List Char)
  | [] => [[c]]
  | line :: lines => (c :: line) :: lines

/-- The lines of a text, as characters. -/
def splitChars : List Char → List (List Char)
  | [] => []
  | '\r' :: '\n' :: rest => ['\r', '\n'] :: splitChars rest
  | c :: rest =>
    if c = '\n' ∨ c = '\r' then [c] :: splitChars rest else consLine c (splitChars rest)

/-- The lines of a text. -/
def splitLines (text : String) : List String :=
  (splitChars text.toList).map String.ofList

theorem flatten_consLine (c : Char) (lines : List (List Char)) :
    (consLine c lines).flatten = c :: lines.flatten := by
  cases lines <;> rfl

theorem flatten_splitChars (cs : List Char) : (splitChars cs).flatten = cs := by
  fun_induction splitChars cs with
  | case1 => rfl
  | case2 rest ih => simp [ih]
  | case3 c rest _ h ih => simp [ih]
  | case4 c rest _ h ih => rw [flatten_consLine, ih]

/-- The lines of an old and a new text. -/
structure Revision where
  old : Array String
  new : Array String
  deriving DecidableEq, Repr

namespace Revision

/-- The lines of two texts. -/
def ofTexts (old new : String) : Revision :=
  ⟨(splitLines old).toArray, (splitLines new).toArray⟩

/-- Whether a line of the old text is a line of the new one. -/
def agree (r : Revision) (o n : Nat) : Bool :=
  match r.old[o]?, r.new[n]? with
  | some a, some b => a == b
  | _, _ => false

/-- How many lines agree from a pair of places on, `limit` at the most. -/
def commonPrefix (r : Revision) (o n : Nat) : Nat → Nat
  | 0 => 0
  | limit + 1 => if r.agree o n then r.commonPrefix (o + 1) (n + 1) limit + 1 else 0

/-- How many lines agree in front of a pair of places, `limit` at the most. -/
def commonSuffix (r : Revision) (o n : Nat) : Nat → Nat
  | 0 => 0
  | limit + 1 =>
    if 0 < o ∧ 0 < n ∧ r.agree (o - 1) (n - 1) then r.commonSuffix (o - 1) (n - 1) limit + 1 else 0

theorem commonPrefix_le (r : Revision) (o n limit : Nat) : r.commonPrefix o n limit ≤ limit := by
  induction limit generalizing o n with
  | zero => exact Nat.le_refl 0
  | succ limit ih =>
    unfold commonPrefix
    split
    · exact Nat.succ_le_succ (ih _ _)
    · exact Nat.zero_le _

theorem commonSuffix_le (r : Revision) (o n limit : Nat) : r.commonSuffix o n limit ≤ limit := by
  induction limit generalizing o n with
  | zero => exact Nat.le_refl 0
  | succ limit ih =>
    unfold commonSuffix
    split
    · exact Nat.succ_le_succ (ih _ _)
    · exact Nat.zero_le _

end Revision

end PanelSketch.Diff
