import PanelSketch.Diff.Script

/-!
# Compaction

Several scripts turn one text into another, and some read better than others.
Compaction moves deletions and insertions up and down between the lines that
are kept, and joins those that meet.

An insertion can move up over kept lines that end like itself, and down over
kept lines that begin like itself: the lines it passes are still kept, on its
other side. Two changes next to each other swap places or become one. Each
change goes up as far as it can and then down as far as it can, first every
deletion and then every insertion.

The script is walked with a cursor, so a step only looks at the edits next to
it. Going up makes what stands above the cursor shorter, and going down what
stands below it.

## Main definitions

* `Cursor`: An edit with the edits above and below it.
* `raise`, `lower`: An edit moved up, or down, as far as it can go.
* `compact`: A script with all changes moved.
-/

namespace PanelSketch.Diff

/-- An edit of a script, with the edits above it, nearest first, and those below
    it. -/
structure Cursor where
  above : List Edit
  here : Edit
  below : List Edit
  deriving Repr

/-- A measure of a list of edits: its lines, and one for every edit. -/
def weight : List Edit → Nat
  | [] => 0
  | e :: edits => e.length + 1 + weight edits

/-- Let kept lines start earlier, or put kept lines in front. -/
def keepAbove (s old new : Nat) : List Edit → List Edit
  | .keep o n length :: edits => .keep (o - s) (n - s) (length + s) :: edits
  | edits => .keep old new s :: edits

/-- Let kept lines end later, or put kept lines in front; the list has the
    nearest edit first. -/
def keepBelow (s old new : Nat) : List Edit → List Edit
  | .keep o n length :: edits => .keep o n (length + s) :: edits
  | edits => .keep old new s :: edits

/-- How many kept lines end like an insertion. -/
def liftOver (r : Revision) (keptOldEnd keptLength newEnd newLength : Nat) : Nat :=
  min keptLength (r.commonSuffix keptOldEnd newEnd (min keptLength newLength))

/-- How many kept lines begin like an insertion. -/
def dropOver (r : Revision) (keptOld keptLength new newLength : Nat) : Nat :=
  min keptLength (r.commonPrefix keptOld new (min keptLength newLength))

/-- Move a change up as far as it can go. -/
def raise (r : Revision) (above : List Edit) (here : Edit) (below : List Edit) : Cursor :=
  match above, here with
  | .keep po pn plen :: above, .insert o n len =>
    let s := liftOver r (po + plen) plen (n + len) len
    if 0 < s then
      -- The kept lines that end like the insertion change places with it.
      let below := keepAbove s (po + plen - s) (n + len - s) below
      if s < plen then raise r (.keep po pn (plen - s) :: above) (.insert (o - s) (n - s) len) below
      else raise r above (.insert (o - s) (n - s) len) below
    else if plen = 0 then raise r above here below
    else ⟨.keep po pn plen :: above, here, below⟩
  | .keep po pn plen :: above, .delete .. =>
    if plen = 0 then raise r above here below else ⟨.keep po pn plen :: above, here, below⟩
  | .delete po plen pn :: above, .insert .. => raise r above here (.delete po plen pn :: below)
  | .insert po pn plen :: above, .delete .. => raise r above here (.insert po pn plen :: below)
  | .insert po pn plen :: above, .insert _ _ len => raise r above (.insert po pn (plen + len)) below
  | .delete po plen pn :: above, .delete _ len _ => raise r above (.delete po (plen + len) pn) below
  | above, here => ⟨above, here, below⟩
termination_by weight above
decreasing_by
  all_goals simp only [weight, Edit.length]; omega

/-- Move a change down as far as it can go. -/
def lower (r : Revision) (above : List Edit) (here : Edit) (below : List Edit) : Cursor :=
  match below, here with
  | .keep no nn nlen :: below, .insert o n len =>
    let s := dropOver r no nlen n len
    if 0 < s then
      -- The kept lines that begin like the insertion change places with it.
      let above := keepBelow s no n above
      if s < nlen then
        lower r above (.insert (o + s) (n + s) len) (.keep (no + s) (nn + s) (nlen - s) :: below)
      else lower r above (.insert (o + s) (n + s) len) below
    else if nlen = 0 then lower r above here below
    else ⟨above, here, .keep no nn nlen :: below⟩
  | .keep no nn nlen :: below, .delete .. =>
    if nlen = 0 then lower r above here below else ⟨above, here, .keep no nn nlen :: below⟩
  | .delete no nlen nn :: below, .insert .. => lower r (.delete no nlen nn :: above) here below
  | .insert no nn nlen :: below, .delete .. => lower r (.insert no nn nlen :: above) here below
  | .insert _ _ nlen :: below, .insert o n len => lower r above (.insert o n (len + nlen)) below
  | .delete _ nlen _ :: below, .delete o len n => lower r above (.delete o (len + nlen) n) below
  | below, here => ⟨above, here, below⟩
termination_by weight below
decreasing_by
  all_goals simp only [weight, Edit.length]; omega

/-- Whether an edit is a deletion. -/
def Edit.isDelete : Edit → Bool
  | delete .. => true
  | _ => false

/-- Whether an edit is an insertion. -/
def Edit.isInsert : Edit → Bool
  | insert .. => true
  | _ => false

/-- Walk a script from top to bottom, `turns` edits at the most, and move every
    edit of one sort; the edits already passed have the nearest first. -/
def settle (r : Revision) (sort : Edit → Bool) : Nat → List Edit → List Edit → List Edit
  | _, passed, [] => passed.reverse
  | 0, passed, edits => passed.reverse ++ edits
  | turns + 1, passed, e :: edits =>
    if sort e then
      let raised := raise r passed e edits
      let c := lower r raised.above raised.here raised.below
      settle r sort turns (c.here :: c.above) c.below
    else settle r sort turns (e :: passed) edits

/-- Move every edit of one sort. Each turn passes an edit, and the edits in front
    can be split no further than into their lines. -/
def settleAll (r : Revision) (sort : Edit → Bool) (edits : List Edit) : List Edit :=
  settle r sort (2 * weight edits) [] edits

/-- A script with all changes moved up and down, deletions first. -/
def compact (r : Revision) (edits : List Edit) : List Edit :=
  settleAll r Edit.isInsert (settleAll r Edit.isDelete edits)

end PanelSketch.Diff
