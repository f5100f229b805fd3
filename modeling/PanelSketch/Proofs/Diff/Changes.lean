import PanelSketch.Diff.Drift
import PanelSketch.Proofs.Diff.Compaction

/-!
# Changes

What a diff shows is a list of lines, each marked as kept, deleted or inserted. The list
comes from the blocks of a script: a block that is kept shows the lines of the old text,
and any other block shows its deleted lines before its inserted ones.

Making blocks of a script moves a deletion over an insertion and joins what stands
together, so the lines are not those of the script one edit after the other. They still
cover both texts: a block on the way is a stretch of either text that ends where the walk
has come to.

## Main definitions

* `Mark`, `Change`: A line and what becomes of it.
* `changes`: The lines that the diff of two texts shows.
* `oldLines`, `newLines`: What changes leave of either text.
* `countMarked`: How many lines have a mark.
* `Covers`: Blocks lead from one pair of places to another.

## Theorems

* `covers_blocksFrom`: A walk in blocks.
* `oldLines_of_covers`, `newLines_of_covers`: Blocks spell both texts.
* `linesOf_blocksFrom`: Blocks have as many lines of every mark as the script.
* `oldLines_changes`, `newLines_changes`, `countMarked_changes`: The same for a diff.
-/

namespace PanelSketch.Diff

/-! ### Marked lines -/

/-- What becomes of a line. -/
inductive Mark where
  | kept
  | deleted
  | inserted
  deriving DecidableEq, Repr

/-- A line and what becomes of it. -/
structure Change where
  mark : Mark
  line : String
  deriving DecidableEq, Repr

/-- Lines that all have the same mark. -/
def markAll (m : Mark) (lines : List String) : List Change :=
  lines.map fun line => ⟨m, line⟩

/-- The lines that do not have a mark, in order. -/
def linesExcept (m : Mark) (changes : List Change) : List String :=
  (changes.filter fun c => c.mark ≠ m).map Change.line

/-- The kept and deleted lines, in order. -/
def oldLines (changes : List Change) : List String :=
  linesExcept .inserted changes

/-- The kept and inserted lines, in order. -/
def newLines (changes : List Change) : List String :=
  linesExcept .deleted changes

/-- How many lines have a mark. -/
def countMarked (m : Mark) (changes : List Change) : Nat :=
  changes.countP fun c => c.mark = m

theorem linesExcept_append (m : Mark) (changes changes' : List Change) :
    linesExcept m (changes ++ changes') = linesExcept m changes ++ linesExcept m changes' := by
  rw [linesExcept, List.filter_append, List.map_append, linesExcept, linesExcept]

theorem linesExcept_markAll (m m' : Mark) (lines : List String) :
    linesExcept m (markAll m' lines) = if m' = m then [] else lines := by
  rw [linesExcept, markAll, List.filter_map, List.map_map]
  split
  · rename_i hmark
    rw [List.filter_eq_nil_iff.mpr fun _ _ => by simpa using hmark, List.map_nil]
  · rename_i hmark
    rw [List.filter_eq_self.mpr fun _ _ => by simpa using hmark]
    exact List.map_id _

theorem countMarked_append (m : Mark) (changes changes' : List Change) :
    countMarked m (changes ++ changes') = countMarked m changes + countMarked m changes' :=
  List.countP_append

theorem countMarked_markAll (m m' : Mark) (lines : List String) :
    countMarked m (markAll m' lines) = if m' = m then lines.length else 0 := by
  rw [countMarked, markAll, List.countP_map]
  split
  · rename_i hmark
    exact List.countP_eq_length.mpr fun _ _ => decide_eq_true hmark
  · rename_i hmark
    exact List.countP_eq_zero.mpr fun _ _ => by simpa using hmark

/-- Every line has the mark or does not. -/
theorem length_linesExcept (m : Mark) (changes : List Change) :
    (linesExcept m changes).length + countMarked m changes = changes.length := by
  rw [linesExcept, List.length_map, ← List.countP_eq_length_filter, countMarked, Nat.add_comm,
    List.length_eq_countP_add_countP fun c : Change => decide (c.mark = m)]
  simp only [ne_eq, decide_eq_true_eq]

theorem linesExcept_of_countMarked {m : Mark} {changes : List Change}
    (h : countMarked m changes = 0) : linesExcept m changes = changes.map Change.line := by
  rw [countMarked, List.countP_eq_zero] at h
  rw [linesExcept, List.filter_eq_self.mpr fun change hchange => by simpa using h change hchange]

/-! ### Lines between two places -/

/-- The lines of a text between two places. -/
def linesBetween (text : Array String) (start stop : Nat) : List String :=
  (text.extract start stop).toList

theorem linesBetween_self (text : Array String) (start : Nat) :
    linesBetween text start start = [] := by
  simp [linesBetween]

theorem linesBetween_append (text : Array String) {a b c : Nat} (hab : a ≤ b) (hbc : b ≤ c) :
    linesBetween text a b ++ linesBetween text b c = linesBetween text a c := by
  rw [linesBetween, linesBetween, ← Array.toList_append, Array.extract_append_extract,
    Nat.min_eq_left hab, Nat.max_eq_right hbc, linesBetween]

theorem linesBetween_size (text : Array String) : linesBetween text 0 text.size = text.toList := by
  simp [linesBetween]

theorem length_linesBetween {text : Array String} {a b : Nat} (hb : b ≤ text.size) :
    (linesBetween text a b).length = b - a := by
  rw [linesBetween, Array.length_toList, Array.size_extract, Nat.min_eq_left hb]

theorem getElem?_linesBetween (text : Array String) (start length k : Nat) :
    (linesBetween text start (start + length))[k]?
      = if k < length then text[start + k]? else none := by
  rw [linesBetween, Array.getElem?_toList, Array.getElem?_extract]
  by_cases hk : start + k < text.size
  · have hmin : k < min (start + length) text.size - start ↔ k < length := by omega
    simp only [hmin]
  · -- Behind the end of the text there is nothing on either side.
    rw [Array.getElem?_eq_none (Nat.le_of_not_lt hk), ite_self, ite_self]

theorem getElem?_of_agree {r : Revision} {o n : Nat} (h : r.agree o n = true) :
    r.old[o]? = r.new[n]? := by
  unfold Revision.agree at h
  split at h
  · rename_i a b hold hnew
    rw [hold, hnew, eq_of_beq h]
  · exact absurd h Bool.false_ne_true

/-- Lines that agree may be read in either text. -/
theorem linesBetween_eq {r : Revision} {o n length : Nat} (h : r.AgreeFrom o n length) :
    linesBetween r.old o (o + length) = linesBetween r.new n (n + length) := by
  refine List.ext_getElem? fun k => ?_
  rw [getElem?_linesBetween, getElem?_linesBetween]
  split
  · rename_i hk
    exact getElem?_of_agree (h k hk)
  · rfl

/-! ### Blocks cover both texts -/

/-- The lines that a block shows. -/
def Block.changes (r : Revision) : Block → List Change
  | same old _ length => markAll .kept (linesBetween r.old old (old + length))
  | change old oldLength new newLength =>
    markAll .deleted (linesBetween r.old old (old + oldLength))
      ++ markAll .inserted (linesBetween r.new new (new + newLength))

/-- The lines that the diff of two texts shows. -/
def changes (r : Revision) : List Change :=
  (blocks (Drift.edits r)).flatMap (Block.changes r)

/-- Blocks that start at the first pair of places take every line from where they stand
    and stop at the second pair. A block that takes no lines of a text stands anywhere in
    it. -/
def Covers (r : Revision) : Nat → Nat → List Block → Nat → Nat → Prop
  | o, n, [], o', n' => o = o' ∧ n = n'
  | o, n, .same old new length :: blocks, o', n' =>
    old = o ∧ new = n ∧ r.AgreeFrom o n length ∧ Covers r (o + length) (n + length) blocks o' n'
  | o, n, .change old oldLength new newLength :: blocks, o', n' =>
    (0 < oldLength → old = o) ∧ (0 < newLength → new = n)
      ∧ Covers r (o + oldLength) (n + newLength) blocks o' n'

/-- A block on the way begins at the first place of either text and has come to the
    second one. -/
structure Pending.Spans (p : Pending) (a o b n : Nat) : Prop where
  old : match p.deleted? with
    | none => a = o
    | some (start, length, _) => start = a ∧ a + length = o
  new : match p.inserted? with
    | none => b = n
    | some (start, length, _) => start = b ∧ b + length = n

variable {r : Revision} {a b o n o' n' : Nat}

theorem Pending.spans_nothing (o n : Nat) : ({} : Pending).Spans o o n n :=
  ⟨rfl, rfl⟩

theorem Pending.Spans.delete {p : Pending} (h : p.Spans a o b n) (length new : Nat) :
    (p.delete o length new).Spans a (o + length) b n := by
  rcases p with ⟨_ | ⟨start, taken, at'⟩, inserted?⟩
  · exact ⟨⟨h.old.symm, by rw [h.old]⟩, h.new⟩
  · rcases h.old with ⟨hstart, hend⟩
    exact ⟨⟨hstart, by rw [← hend, Nat.add_assoc]⟩, h.new⟩

theorem Pending.Spans.insert {p : Pending} (h : p.Spans a o b n) (length old : Nat) :
    (p.insert old n length).Spans a o b (n + length) := by
  rcases p with ⟨deleted?, _ | ⟨start, taken, at'⟩⟩
  · exact ⟨h.old, ⟨h.new.symm, by rw [h.new]⟩⟩
  · rcases h.new with ⟨hstart, hend⟩
    exact ⟨h.old, ⟨hstart, by rw [← hend, Nat.add_assoc]⟩⟩

/-- A block on the way is finished where it has come to. -/
theorem covers_block {p : Pending} {blocks : List Block} (hp : p.Spans a o b n)
    (h : Covers r o n blocks o' n') : Covers r a b (p.block ++ blocks) o' n' := by
  rcases p with ⟨_ | ⟨start, length, at'⟩, _ | ⟨start', length', at''⟩⟩
  · -- Nothing is on the way.
    have hold : a = o := hp.old
    have hnew : b = n := hp.new
    rwa [hold, hnew]
  · -- Only an insertion is, so the block may stand anywhere in the old text.
    have hold : a = o := hp.old
    rcases hp.new with ⟨rfl, rfl⟩
    exact ⟨fun hpos => absurd hpos (Nat.lt_irrefl 0), fun _ => rfl, hold ▸ h⟩
  · rcases hp.old with ⟨rfl, rfl⟩
    have hnew : b = n := hp.new
    exact ⟨fun _ => rfl, fun hpos => absurd hpos (Nat.lt_irrefl 0), hnew ▸ h⟩
  · rcases hp.old with ⟨rfl, rfl⟩
    rcases hp.new with ⟨rfl, rfl⟩
    exact ⟨fun _ => rfl, fun _ => rfl, h⟩

theorem covers_consSame {length : Nat} {blocks : List Block} (hagree : r.AgreeFrom o n length)
    (h : Covers r (o + length) (n + length) blocks o' n') :
    Covers r o n (consSame o n length blocks) o' n' := by
  unfold consSame
  split
  · rcases h with ⟨rfl, rfl, hmore, hrest⟩
    refine ⟨rfl, rfl, hagree.append hmore, ?_⟩
    rwa [← Nat.add_assoc, ← Nat.add_assoc]
  · exact ⟨rfl, rfl, hagree, h⟩

/-- A walk in blocks leads from where the block on the way began. -/
theorem covers_blocksFrom {p : Pending} {edits : List Edit} (hp : p.Spans a o b n)
    (h : Walks r o n edits o' n') : Covers r a b (blocksFrom p edits) o' n' := by
  induction edits generalizing p a b o n with
  | nil =>
      rw [blocksFrom, ← List.append_nil p.block]
      exact covers_block hp h
  | cons edit edits ih =>
      cases edit with
      | keep old new length =>
          rcases h with ⟨rfl, rfl, hagree, hrest⟩
          exact covers_block hp (covers_consSame hagree (ih (Pending.spans_nothing _ _) hrest))
      | delete old length new =>
          rcases h with ⟨rfl, hrest⟩
          exact ih (hp.delete length new) hrest
      | insert old new length =>
          rcases h with ⟨rfl, hrest⟩
          exact ih (hp.insert length old) hrest

theorem Covers.le {blocks : List Block} (h : Covers r o n blocks o' n') : o ≤ o' ∧ n ≤ n' := by
  induction blocks generalizing o n with
  | nil => exact ⟨Nat.le_of_eq h.1, Nat.le_of_eq h.2⟩
  | cons block blocks ih =>
      cases block with
      | same old new length =>
          have hrest := ih h.2.2.2
          omega
      | change old oldLength new newLength =>
          have hrest := ih h.2.2
          omega

/-- A block takes its lines of a text from where it stands, also when it takes none. -/
theorem linesBetween_of_pos {text : Array String} {start place length : Nat}
    (h : 0 < length → start = place) :
    linesBetween text start (start + length) = linesBetween text place (place + length) := by
  rcases Nat.eq_zero_or_pos length with rfl | hpos
  · rw [Nat.add_zero, Nat.add_zero, linesBetween_self, linesBetween_self]
  · rw [h hpos]

/-- The kept and deleted lines of blocks are the lines of the old text that they cover. -/
theorem oldLines_of_covers {blocks : List Block} (h : Covers r o n blocks o' n') :
    oldLines (blocks.flatMap (Block.changes r)) = linesBetween r.old o o' := by
  unfold oldLines
  induction blocks generalizing o n with
  | nil =>
      rw [h.1, linesBetween_self]
      rfl
  | cons block blocks ih =>
      cases block with
      | same old new length =>
          rcases h with ⟨rfl, rfl, -, hrest⟩
          rw [List.flatMap_cons, linesExcept_append, ih hrest, Block.changes, linesExcept_markAll,
            if_neg (by decide), linesBetween_append r.old (Nat.le_add_right _ _) hrest.le.1]
      | change old oldLength new newLength =>
          rcases h with ⟨hold, -, hrest⟩
          rw [List.flatMap_cons, linesExcept_append, ih hrest, Block.changes, linesExcept_append,
            linesExcept_markAll, linesExcept_markAll, if_neg (by decide), if_pos rfl,
            List.append_nil,
            linesBetween_of_pos hold,
            linesBetween_append r.old (Nat.le_add_right _ _) hrest.le.1]

/-- The kept and inserted lines are those of the new text, since kept lines agree. -/
theorem newLines_of_covers {blocks : List Block} (h : Covers r o n blocks o' n') :
    newLines (blocks.flatMap (Block.changes r)) = linesBetween r.new n n' := by
  unfold newLines
  induction blocks generalizing o n with
  | nil =>
      rw [h.2, linesBetween_self]
      rfl
  | cons block blocks ih =>
      cases block with
      | same old new length =>
          rcases h with ⟨rfl, rfl, hagree, hrest⟩
          rw [List.flatMap_cons, linesExcept_append, ih hrest, Block.changes, linesExcept_markAll,
            if_neg (by decide), linesBetween_eq hagree,
            linesBetween_append r.new (Nat.le_add_right _ _) hrest.le.2]
      | change old oldLength new newLength =>
          rcases h with ⟨-, hnew, hrest⟩
          rw [List.flatMap_cons, linesExcept_append, ih hrest, Block.changes, linesExcept_append,
            linesExcept_markAll, linesExcept_markAll, if_pos rfl, if_neg (by decide),
            List.nil_append,
            linesBetween_of_pos hnew,
            linesBetween_append r.new (Nat.le_add_right _ _) hrest.le.2]

/-! ### Counting -/

/-- What becomes of the lines of an edit. -/
def Edit.mark : Edit → Mark
  | keep .. => .kept
  | delete .. => .deleted
  | insert .. => .inserted

/-- How many lines of a mark an edit stands for. -/
def Edit.linesOf (m : Mark) (edit : Edit) : Nat :=
  if edit.mark = m then edit.length else 0

/-- How many lines of a mark a block shows. -/
def Block.linesOf : Mark → Block → Nat
  | .kept, .same _ _ length => length
  | .deleted, .change _ oldLength _ _ => oldLength
  | .inserted, .change _ _ _ newLength => newLength
  | _, _ => 0

/-- How many lines of a mark a script has. -/
def scriptLines (m : Mark) (edits : List Edit) : Nat :=
  Drift.totalLength (edits.filter fun edit => edit.mark = m)

/-- How many lines of a mark blocks show. -/
def linesOf (m : Mark) : List Block → Nat
  | [] => 0
  | block :: blocks => block.linesOf m + linesOf m blocks

theorem scriptLines_cons (m : Mark) (edit : Edit) (edits : List Edit) :
    scriptLines m (edit :: edits) = edit.linesOf m + scriptLines m edits := by
  rw [scriptLines, List.filter_cons, Edit.linesOf, scriptLines]
  by_cases hmark : edit.mark = m
  · rw [if_pos (decide_eq_true hmark), if_pos hmark]
    rfl
  · rw [if_neg (by simpa using hmark), if_neg hmark, Nat.zero_add]

theorem linesOf_append (m : Mark) (blocks blocks' : List Block) :
    linesOf m (blocks ++ blocks') = linesOf m blocks + linesOf m blocks' := by
  induction blocks with
  | nil => exact (Nat.zero_add _).symm
  | cons block blocks ih => rw [List.cons_append, linesOf, linesOf, ih, Nat.add_assoc]

theorem linesOf_delete (m : Mark) (p : Pending) (old length new : Nat) :
    linesOf m (p.delete old length new).block
      = linesOf m p.block + Edit.linesOf m (.delete old length new) := by
  rcases p with ⟨_ | ⟨start, taken, at'⟩, _ | ⟨start', taken', at''⟩⟩ <;> cases m <;>
    simp [linesOf, Pending.delete, Pending.block, Block.linesOf, Edit.linesOf, Edit.mark,
      Edit.length]

theorem linesOf_insert (m : Mark) (p : Pending) (old new length : Nat) :
    linesOf m (p.insert old new length).block
      = linesOf m p.block + Edit.linesOf m (.insert old new length) := by
  rcases p with ⟨_ | ⟨start, taken, at'⟩, _ | ⟨start', taken', at''⟩⟩ <;> cases m <;>
    simp [linesOf, Pending.insert, Pending.block, Block.linesOf, Edit.linesOf, Edit.mark,
      Edit.length]

theorem linesOf_consSame (m : Mark) (old new length : Nat) (blocks : List Block) :
    linesOf m (consSame old new length blocks)
      = Edit.linesOf m (.keep old new length) + linesOf m blocks := by
  unfold consSame
  split <;> cases m <;>
    simp [linesOf, Block.linesOf, Edit.linesOf, Edit.mark, Edit.length, Nat.add_assoc]

/-- Blocks show as many lines of a mark as the script has. -/
theorem linesOf_blocksFrom (m : Mark) (p : Pending) (edits : List Edit) :
    linesOf m (blocksFrom p edits) = linesOf m p.block + scriptLines m edits := by
  induction edits generalizing p with
  | nil => rfl
  | cons edit edits ih =>
      rw [scriptLines_cons, ← Nat.add_assoc]
      cases edit with
      | keep old new length =>
          -- The block on the way is finished, and the next one starts with nothing.
          have hrest : linesOf m (blocksFrom {} edits) = scriptLines m edits :=
            (ih {}).trans (Nat.zero_add _)
          rw [blocksFrom, linesOf_append, linesOf_consSame, hrest, Nat.add_assoc]
      | delete old length new => rw [blocksFrom, ih, linesOf_delete]
      | insert old new length => rw [blocksFrom, ih, linesOf_insert]

/-- Blocks that stay within both texts show as many lines of a mark as they say. -/
theorem countMarked_of_covers (m : Mark) {blocks : List Block} (h : Covers r o n blocks o' n')
    (hold : o' ≤ r.old.size) (hnew : n' ≤ r.new.size) :
    countMarked m (blocks.flatMap (Block.changes r)) = linesOf m blocks := by
  induction blocks generalizing o n with
  | nil => rfl
  | cons block blocks ih =>
      rw [List.flatMap_cons, countMarked_append]
      cases block with
      | same old new length =>
          rcases h with ⟨rfl, rfl, -, hrest⟩
          have hlength : (linesBetween r.old old (old + length)).length = length := by
            rw [length_linesBetween (Nat.le_trans hrest.le.1 hold), Nat.add_sub_cancel_left]
          rw [ih hrest, Block.changes, countMarked_markAll, hlength]
          cases m <;> rfl
      | change old oldLength new newLength =>
          rcases h with ⟨hstart, hstart', hrest⟩
          have hdeleted : (linesBetween r.old old (old + oldLength)).length = oldLength := by
            rw [linesBetween_of_pos hstart, length_linesBetween (Nat.le_trans hrest.le.1 hold),
              Nat.add_sub_cancel_left]
          have hinserted : (linesBetween r.new new (new + newLength)).length = newLength := by
            rw [linesBetween_of_pos hstart', length_linesBetween (Nat.le_trans hrest.le.2 hnew),
              Nat.add_sub_cancel_left]
          rw [ih hrest, Block.changes, countMarked_append, countMarked_markAll,
            countMarked_markAll, hdeleted, hinserted]
          cases m <;> simp [linesOf, Block.linesOf]

/-! ### The diff of two texts -/

theorem covers_blocks (r : Revision) :
    Covers r 0 0 (blocks (Drift.edits r)) r.old.size r.new.size :=
  covers_blocksFrom (Pending.spans_nothing 0 0) (walks_compact r.walks_script)

/-- The kept and deleted lines of a diff spell the old text. -/
theorem oldLines_changes (r : Revision) : oldLines (changes r) = r.old.toList := by
  rw [changes, oldLines_of_covers (covers_blocks r), linesBetween_size]

/-- The kept and inserted lines of a diff spell the new text. -/
theorem newLines_changes (r : Revision) : newLines (changes r) = r.new.toList := by
  rw [changes, newLines_of_covers (covers_blocks r), linesBetween_size]

theorem countMarked_changes (m : Mark) (r : Revision) :
    countMarked m (changes r) = scriptLines m (Drift.edits r) := by
  rw [changes, countMarked_of_covers m (covers_blocks r) (Nat.le_refl _) (Nat.le_refl _), blocks,
    linesOf_blocksFrom]
  exact Nat.zero_add _

/-- A report counts the lines that the diff shows as inserted. -/
theorem countMarked_inserted (r : Revision) :
    countMarked .inserted (changes r) = Drift.countInserted (Drift.edits r) := by
  have hmark (edit : Edit) : decide (edit.mark = .inserted) = edit.isInsert := by
    cases edit <;> rfl
  rw [countMarked_changes, scriptLines, funext hmark, Drift.countInserted]

theorem countMarked_deleted (r : Revision) :
    countMarked .deleted (changes r) = Drift.countDeleted (Drift.edits r) := by
  have hmark (edit : Edit) : decide (edit.mark = .deleted) = edit.isDelete := by
    cases edit <;> rfl
  rw [countMarked_changes, scriptLines, funext hmark, Drift.countDeleted]

end PanelSketch.Diff
