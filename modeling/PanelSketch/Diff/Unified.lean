import PanelSketch.Diff.Compaction

/-!
# Unified Diffs

A script is shown as hunks: a change with up to three kept lines on either
side, and changes that are close together in one hunk. Deletions and insertions
that stand next to each other form one block, which lists all deleted lines
before all inserted ones.

A line that has no end of its own is followed by a remark that says so.

## Main definitions

* `Block`: Lines kept, or lines replaced by other lines.
* `blocks`: A script in blocks.
* `hunks`: Blocks in hunks.
* `renderHunk`: A hunk as text.
-/

namespace PanelSketch.Diff

/-- Lines that are kept, or lines that are replaced by other lines; either side of
    a replacement may be empty. -/
inductive Block where
  | same (old new length : Nat)
  | change (old oldLength new newLength : Nat)
  deriving DecidableEq, Repr

namespace Block

/-- Where a block starts in the old text, and where it ends. -/
def oldSpan : Block → Nat × Nat
  | same old _ length => (old, old + length)
  | change old oldLength _ _ => (old, old + oldLength)

/-- Where a block starts in the new text, and where it ends. -/
def newSpan : Block → Nat × Nat
  | same _ new length => (new, new + length)
  | change _ _ new newLength => (new, new + newLength)

end Block

/-- The deletion and the insertion of a block on the way: the place in the text
    whose lines are taken, the number of lines, and the place in the other
    text. -/
structure Pending where
  deleted? : Option (Nat × Nat × Nat) := none
  inserted? : Option (Nat × Nat × Nat) := none
  deriving Repr

/-- The block of a deletion and an insertion. -/
def Pending.block : Pending → List Block
  | ⟨none, none⟩ => []
  | ⟨some (old, oldLength, new), none⟩ => [.change old oldLength new 0]
  | ⟨none, some (new, newLength, old)⟩ => [.change old 0 new newLength]
  | ⟨some (old, oldLength, _), some (new, newLength, _)⟩ => [.change old oldLength new newLength]

/-- Add a deletion to a block on the way. -/
def Pending.delete (p : Pending) (old length new : Nat) : Pending :=
  match p.deleted? with
  | none => { p with deleted? := some (old, length, new) }
  | some (o, l, n) => { p with deleted? := some (o, l + length, n) }

/-- Add an insertion to a block on the way. -/
def Pending.insert (p : Pending) (old new length : Nat) : Pending :=
  match p.inserted? with
  | none => { p with inserted? := some (new, length, old) }
  | some (n, l, o) => { p with inserted? := some (n, l + length, o) }

/-- Put kept lines in front of blocks, joined with kept lines that are already
    there. -/
def consSame (old new length : Nat) : List Block → List Block
  | .same _ _ more :: blocks => .same old new (length + more) :: blocks
  | blocks => .same old new length :: blocks

/-- A script in blocks, behind a block on the way. -/
def blocksFrom (p : Pending) : List Edit → List Block
  | [] => p.block
  | .keep old new length :: edits => p.block ++ consSame old new length (blocksFrom {} edits)
  | .delete old length new :: edits => blocksFrom (p.delete old length new) edits
  | .insert old new length :: edits => blocksFrom (p.insert old new length) edits

/-- A script in blocks. -/
def blocks (edits : List Edit) : List Block :=
  blocksFrom {} edits

/-! ### Hunks -/

/-- How many kept lines a change is shown with on either side. -/
def context : Nat := 3

/-- Only the last lines of a first block that is kept. -/
def trimFirst : List Block → List Block
  | .same old new length :: blocks =>
    .same (old + (length - context)) (new + (length - context)) (min length context) :: blocks
  | blocks => blocks

/-- Only the first lines of a last block that is kept. -/
def trimLast : List Block → List Block
  | [] => []
  | [.same old new length] => [.same old new (min length context)]
  | block :: blocks => block :: trimLast blocks

/-- Whether a hunk shows a change. -/
def showsChange : List Block → Bool
  | [] => false
  | [.same ..] => false
  | _ => true

/-- Blocks in hunks, behind a hunk on the way, nearest block first. -/
def hunksFrom (hunk : List Block) : List Block → List (List Block)
  | [] => if showsChange hunk.reverse then [hunk.reverse] else []
  | .same old new length :: blocks =>
    -- The kept lines are more than two hunks show, so the hunk ends among them.
    if 2 * context < length then
      let skipped := length - context
      (.same old new context :: hunk).reverse
        :: hunksFrom [.same (old + skipped) (new + skipped) context] blocks
    else hunksFrom (.same old new length :: hunk) blocks
  | block :: blocks => hunksFrom (block :: hunk) blocks

/-- Blocks in hunks. -/
def hunks (blocks : List Block) : List (List Block) :=
  hunksFrom [] (trimLast (trimFirst blocks))

/-! ### Text -/

/-- A line behind its mark. A line without an end is ended and remarked upon. -/
def markedLine (mark : Char) (line : String) : String :=
  let ended := match line.toList.getLast? with
    | some c => c == '\n' || c == '\r'
    | none => false
  String.singleton mark ++ line ++ (if ended then "" else "\n\\ No newline at end of file\n")

/-- Some lines behind a mark. -/
def markedLines (mark : Char) (lines : Array String) (start stop : Nat) : String :=
  String.join ((lines.extract start stop).toList.map (markedLine mark))

/-- A block as text. -/
def renderBlock (r : Revision) : Block → String
  | .same old _ length => markedLines ' ' r.old old (old + length)
  | .change old oldLength new newLength =>
    markedLines '-' r.old old (old + oldLength) ++ markedLines '+' r.new new (new + newLength)

/-- The lines of a hunk: the number of the first one and how many there are,
    which is left out when there is one. An empty part stands behind the line
    before it. -/
def renderSpan (start stop : Nat) : String :=
  match stop - start with
  | 0 => start.repr ++ ",0"
  | 1 => (start + 1).repr
  | length => (start + 1).repr ++ "," ++ length.repr

/-- The line that opens a hunk. -/
def hunkLine (hunk : List Block) : String :=
  match hunk.head?, hunk.getLast? with
  | some first, some last =>
    "@@ -" ++ renderSpan first.oldSpan.1 last.oldSpan.2 ++ " +"
      ++ renderSpan first.newSpan.1 last.newSpan.2 ++ " @@\n"
  | _, _ => ""

/-- A hunk as text. -/
def renderHunk (r : Revision) (hunk : List Block) : String :=
  hunkLine hunk ++ String.join (hunk.map (renderBlock r))

end PanelSketch.Diff
