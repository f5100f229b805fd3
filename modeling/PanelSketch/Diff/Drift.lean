import PanelSketch.Diff.Unified
import PanelSketch.Digest

/-!
# Drift

A sketch on disk drifts when it is edited by hand or the project moves on. A
report compares it with a freshly generated one: by digest, which decides
whether there is drift, and line by line, which shows what it is.

## Main definitions

* `Drift`: A report.
* `Drift.ofTexts`: The report on two texts.
* `Drift.isClean`: Whether the texts have the same digest.

## Theorems

* `Drift.isClean_self`: A text does not drift from itself.
-/

namespace PanelSketch

open Diff

/-- A comparison of a text on disk with a generated one. -/
structure Drift where
  /-- The digest of the generated text. -/
  expected : Digest
  /-- The digest of the text on disk. -/
  actual : Digest
  added : Nat
  removed : Nat
  /-- The unified diff, empty when no line differs. -/
  diff : String
  deriving DecidableEq, Repr

namespace Drift

/-- How many lines edits have between them. -/
def totalLength : List Edit → Nat
  | [] => 0
  | e :: edits => e.length + totalLength edits

/-- How many lines a script inserts. -/
def countInserted (edits : List Edit) : Nat :=
  totalLength (edits.filter Edit.isInsert)

/-- How many lines a script deletes. -/
def countDeleted (edits : List Edit) : Nat :=
  totalLength (edits.filter Edit.isDelete)

/-- The compacted script of two texts. -/
def edits (r : Revision) : List Edit :=
  compact r r.script

/-- What a diff opens with. -/
def opening (label : String) : String :=
  "--- " ++ label ++ " (on disk)\n+++ " ++ label ++ " (generated)\n"

/-- The unified diff of two texts under a label. The opening stands in front of the first
    hunk, so a script without hunks has no diff. -/
def unified (r : Revision) (label : String) : String :=
  match hunks (blocks (edits r)) with
  | [] => ""
  | hunk :: hunks => opening label ++ String.join ((hunk :: hunks).map (renderHunk r))

/-- The report on a text on disk and a generated one. -/
def ofTexts (existing generated label : String) : Drift :=
  let r := Revision.ofTexts existing generated
  let added := countInserted (edits r)
  let removed := countDeleted (edits r)
  { expected := Digest.ofText generated
    actual := Digest.ofText existing
    added
    removed
    diff := if added + removed = 0 then "" else unified r label }

/-- Whether the two texts have the same digest. -/
def isClean (d : Drift) : Bool :=
  d.expected == d.actual

theorem isClean_self (text label : String) : (ofTexts text text label).isClean = true := by
  simp [isClean, ofTexts]

end Drift

end PanelSketch
