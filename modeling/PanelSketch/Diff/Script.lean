import PanelSketch.Diff.Lines

/-!
# Edit Scripts

An edit script turns the old text into the new one: it keeps, deletes and
inserts runs of lines. Every edit records where it stands in both texts, also
the one it takes no lines from.

The script is found by divide and conquer. What the two texts share at their
ends is kept. Of the rest a middle point is looked for, where a search from the
front and a search from the back meet, and both halves are treated alike. The
searches go outward by the number of lines that differ; for every diagonal,
that is every difference between the two places, they remember how far they
have come.

The search always finds a middle that makes both halves smaller. The bound that
stops the recursion is the number of lines, and a range that were still left
when it runs out would be deleted and inserted as a whole.

## Main definitions

* `Edit`: A run of lines kept, deleted or inserted.
* `Range`: A part of both texts.
* `Frontier`: How far a search has come on every diagonal.
* `Range.middle?`: Where the two searches meet.
* `script`: The edit script of two texts.
-/

namespace PanelSketch.Diff

/-- A run of lines that is kept, deleted or inserted. -/
inductive Edit where
  | keep (old new length : Nat)
  | delete (old length new : Nat)
  | insert (old new length : Nat)
  deriving DecidableEq, Repr

/-- How many lines an edit is about. -/
def Edit.length : Edit → Nat
  | keep _ _ length | delete _ length _ | insert _ _ length => length

/-- A part of both texts; the ends do not belong to it. -/
structure Range where
  oldStart : Nat
  oldEnd : Nat
  newStart : Nat
  newEnd : Nat
  deriving DecidableEq, Repr

/-- How far a search has come on every diagonal. -/
structure Frontier where
  reached : Array Nat
  /-- The place of diagonal zero. -/
  origin : Nat
  deriving Repr

namespace Frontier

/-- A frontier with room for diagonals up to a distance. -/
def start (distance : Nat) : Frontier :=
  ⟨Array.replicate (2 * distance + 1) 0, distance⟩

/-- How far the search has come on a diagonal. -/
def reach (f : Frontier) (k : Int) : Nat :=
  f.reached.getD (k + f.origin).toNat 0

/-- Remember how far the search has come on a diagonal. -/
def record (f : Frontier) (k : Int) (x : Nat) : Frontier :=
  { f with reached := f.reached.setIfInBounds (k + f.origin).toNat x }

/-- Where the search enters a diagonal in round `d`: from the neighbour that has
    come further. -/
def entrance (f : Frontier) (d : Nat) (k : Int) : Nat :=
  if k = -d ∨ (k ≠ d ∧ f.reach (k - 1) < f.reach (k + 1)) then f.reach (k + 1)
  else f.reach (k - 1) + 1

end Frontier

/-- The diagonals of round `d`, from the highest down. -/
def diagonals (d : Nat) : List Int :=
  (List.range (d + 1)).map fun i : Nat => (d : Int) - 2 * i

namespace Range

/-- How many lines of the old text are in a range. -/
def oldLength (g : Range) : Nat := g.oldEnd - g.oldStart

/-- How many lines of the new text are in a range. -/
def newLength (g : Range) : Nat := g.newEnd - g.newStart

/-- The diagonal on which a range ends. -/
def delta (g : Range) : Int := (g.oldLength : Int) - g.newLength

/-- One round of the search from the front over some diagonals: the meeting
    point if it is found, and the frontier. -/
def forward (r : Revision) (g : Range) (d : Nat) (backward : Frontier) :
    Frontier → List Int → Option (Nat × Nat) × Frontier
  | f, [] => (none, f)
  | f, k :: ks =>
    let x := f.entrance d k
    let y : Int := x - k
    let run :=
      if x < g.oldLength ∧ 0 ≤ y ∧ y < g.newLength then
        r.commonPrefix (g.oldStart + x) (g.newStart + y.toNat)
          (min (g.oldLength - x) (g.newLength - y.toNat))
      else 0
    let f := f.record k (x + run)
    -- With an odd difference of lengths, the searches meet in a round from the front.
    if g.delta % 2 ≠ 0 ∧ (k - g.delta).natAbs + 1 ≤ d
        ∧ g.oldLength ≤ x + run + backward.reach (g.delta - k) then
      (some (x, y.toNat), f)
    else forward r g d backward f ks

/-- One round of the search from the back over some diagonals: the meeting point
    if it is found, and the frontier. -/
def backward (r : Revision) (g : Range) (d : Nat) (front : Frontier) :
    Frontier → List Int → Option (Nat × Nat) × Frontier
  | f, [] => (none, f)
  | f, k :: ks =>
    let x := f.entrance d k
    let y : Int := x - k
    let run :=
      if x < g.oldLength ∧ 0 ≤ y ∧ y < g.newLength then
        r.commonSuffix (g.oldEnd - x) (g.newEnd - y.toNat)
          (min (g.oldLength - x) (g.newLength - y.toNat))
      else 0
    let f := f.record k (x + run)
    -- With an even one, they meet in a round from the back.
    if g.delta % 2 = 0 ∧ (k - g.delta).natAbs ≤ d
        ∧ g.oldLength ≤ x + run + front.reach (g.delta - k) then
      (some (g.oldLength - (x + run), (g.newLength - (y + run)).toNat), f)
    else backward r g d front f ks

/-- Search from both ends, round after round. -/
def search (r : Revision) (g : Range) : Nat → Nat → Frontier → Frontier → Option (Nat × Nat)
  | 0, _, _, _ => none
  | rounds + 1, d, front, back =>
    match forward r g d back front (diagonals d) with
    | (some middle, _) => some middle
    | (none, front) =>
      match backward r g d front back (diagonals d) with
      | (some middle, _) => some middle
      | (none, back) => search r g rounds (d + 1) front back

/-- Where the two searches meet, counted from the start of the range. -/
def middle? (r : Revision) (g : Range) : Option (Nat × Nat) :=
  let rounds := (g.oldLength + g.newLength + 1) / 2 + 1
  search r g rounds 0 (.start (rounds + 1)) (.start (rounds + 1))

/-- A keeping edit, unless it would be empty. -/
def keeping (old new length : Nat) : List Edit :=
  if length = 0 then [] else [.keep old new length]

/-- The range without the lines that the two texts share at its start. -/
def dropPrefix (g : Range) (length : Nat) : Range :=
  { g with oldStart := g.oldStart + length, newStart := g.newStart + length }

/-- The range without the lines that the two texts share at its end. -/
def dropSuffix (g : Range) (length : Nat) : Range :=
  { g with oldEnd := g.oldEnd - length, newEnd := g.newEnd - length }

/-- The lines that the two texts share at the start of a range. -/
def sharedPrefix (r : Revision) (g : Range) : Nat :=
  r.commonPrefix g.oldStart g.newStart (min g.oldLength g.newLength)

/-- The lines that the two texts share at the end of a range. -/
def sharedSuffix (r : Revision) (g : Range) : Nat :=
  r.commonSuffix g.oldEnd g.newEnd (min g.oldLength g.newLength)

/-- The edit script of a range, halved `depth` times at the most. -/
def script (r : Revision) : Nat → Range → List Edit
  | depth, g =>
    let front := g.sharedPrefix r
    let inner := g.dropPrefix front
    let back := inner.sharedSuffix r
    let core := inner.dropSuffix back
    let deletion := Edit.delete core.oldStart core.oldLength core.newStart
    let insertion := Edit.insert core.oldStart core.newStart core.newLength
    let edits :=
      if core.oldLength = 0 ∧ core.newLength = 0 then []
      else if core.newLength = 0 then [deletion]
      else if core.oldLength = 0 then [insertion]
      -- Both texts have lines of their own here, so the range is halved where the searches meet.
      else match depth, middle? r core with
        | depth + 1, some (x, y) =>
          let o := core.oldStart + min x core.oldLength
          let n := core.newStart + min y core.newLength
          script r depth { core with oldEnd := o, newEnd := n }
            ++ script r depth { core with oldStart := o, newStart := n }
        | _, _ => [deletion, insertion]
    keeping g.oldStart g.newStart front ++ edits ++ keeping core.oldEnd core.newEnd back

end Range

/-- The edit script of two texts. -/
def Revision.script (r : Revision) : List Edit :=
  Range.script r (r.old.size + r.new.size + 1) ⟨0, r.old.size, 0, r.new.size⟩

end PanelSketch.Diff
