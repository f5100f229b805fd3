import PanelSketch.Project.Basic
import PanelSketch.Text.Identifier
import PanelSketch.Text.Numeral

/-!
# Numbering

New screens and elements are named after a running number: a stem and the next
number that has never been used. A counter stays above the number of every id
it has been shown, so an id that has been removed does not come back.

A counter is a 32-bit word that stops at its greatest value instead of starting
over. From then on the same number is issued again and again, and the ids are
kept apart by looking for a free name.

## Main definitions

* `Counter`: The next number.
* `Counter.issue`: The next id, and the counter after it.
* `Counter.observe`: The counter after an id has been seen.
* `Numbering`: The counters of screens and elements.

## Theorems

* `Counter.issue_of_not_mem`: A free number is issued bare.
-/

namespace PanelSketch

/-- The number that the next id will carry. -/
structure Counter where
  next : UInt32
  deriving DecidableEq, Repr

namespace Counter

/-- The word after a word; the greatest one stays. -/
def successor (n : UInt32) : UInt32 :=
  -- Without the test, the sum would start again from zero.
  if n.toNat + 1 < UInt32.size then n + 1 else n

/-- The greater of two words. -/
def larger (m n : UInt32) : UInt32 :=
  if m ≤ n then n else m

/-- A counter at a number, but not at zero. -/
def start (n : UInt32) : Counter :=
  ⟨larger 1 n⟩

/-- The id of a number. -/
def idOf (stem : String) (n : UInt32) : String :=
  stem ++ n.toNat.repr

/-- The next id that is not taken, and the counter after it. -/
def issue (stem : String) (taken : List String) (c : Counter) : String × Counter :=
  (Text.freshName (idOf stem c.next) taken, ⟨successor c.next⟩)

/-- The number that an id carries behind its stem. -/
def numberOf? (stem id : String) : Option UInt32 :=
  if stem.toList.isPrefixOf id.toList then
    Text.word? (String.ofList (id.toList.drop stem.length))
  else none

/-- The counter after an id has been seen. -/
def observe (stem id : String) (c : Counter) : Counter :=
  match numberOf? stem id with
  | some n => ⟨larger c.next (successor n)⟩
  | none => c

theorem issue_of_not_mem {stem : String} {taken : List String} {c : Counter}
    (h : idOf stem c.next ∉ taken) : (c.issue stem taken).1 = idOf stem c.next :=
  Text.freshName_of_not_mem h

end Counter

/-- What every screen id starts with. -/
def screenStem : String := "screen_"

/-- What every element id starts with. -/
def elementStem : String := "el_"

/-- The counters of screens and elements. -/
structure Numbering where
  elements : Counter
  screens : Counter
  deriving DecidableEq, Repr

namespace Numbering

/-- Counters that start at given numbers. -/
def start (element screen : UInt32) : Numbering :=
  ⟨Counter.start element, Counter.start screen⟩

/-- The next screen id, and the counters after it. -/
def issueScreen (taken : List ScreenId) (n : Numbering) : ScreenId × Numbering :=
  let (id, screens) := n.screens.issue screenStem taken
  (id, { n with screens })

/-- The next element id, and the counters after it. -/
def issueElement (taken : List ElementId) (n : Numbering) : ElementId × Numbering :=
  let (id, elements) := n.elements.issue elementStem taken
  (id, { n with elements })

/-- The counters after a screen id has been seen. -/
def observeScreen (id : ScreenId) (n : Numbering) : Numbering :=
  { n with screens := n.screens.observe screenStem id }

/-- The counters after an element id has been seen. -/
def observeElement (id : ElementId) (n : Numbering) : Numbering :=
  { n with elements := n.elements.observe elementStem id }

end Numbering

end PanelSketch
