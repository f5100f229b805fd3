import PanelSketch.Proofs.Diff.Changes

/-!
# Hunks

Kept lines far from any change are not shown, and the rest of a script falls into hunks. A
hunk that has only kept lines would be dropped. None of this touches a change: the hunks
one after the other hold the blocks that are not kept, all of them and in order.

So a diff is empty for one reason only. What it opens with stands in front of its first
hunk, and there is a hunk as soon as a line is deleted or inserted.

## Main definitions

* `Block.isChange`: Whether a block is a change.

## Theorems

* `filter_hunksFrom`, `filter_hunks`: Hunks hold all changes, in order.
* `hunks_ne_nil`: A script with a change has a hunk.
* `Drift.unified_ne_empty`: A script with a change has a diff.
-/

namespace PanelSketch

namespace Diff

/-- Whether a block is a change, and not lines that are kept. -/
def Block.isChange : Block → Bool
  | same .. => false
  | change .. => true

/-- Cutting kept lines at the start leaves the changes alone. -/
theorem filter_trimFirst (blocks : List Block) :
    (trimFirst blocks).filter Block.isChange = blocks.filter Block.isChange := by
  unfold trimFirst
  split
  · rfl
  · rfl

/-- So does cutting them at the end. -/
theorem filter_trimLast (blocks : List Block) :
    (trimLast blocks).filter Block.isChange = blocks.filter Block.isChange := by
  fun_induction trimLast blocks with
  | case1 => rfl
  | case2 => rfl
  | case3 block blocks _ ih => rw [List.filter_cons, List.filter_cons, ih]

/-- A hunk that is dropped has no change. -/
theorem filter_eq_nil_of_showsChange {hunk : List Block} (h : showsChange hunk = false) :
    hunk.filter Block.isChange = [] := by
  unfold showsChange at h
  split at h
  · rfl
  · rfl
  · exact absurd h.symm Bool.false_ne_true

/-- The hunks hold the changes of the hunk on the way and those of the blocks behind it. -/
theorem filter_hunksFrom (hunk blocks : List Block) :
    (hunksFrom hunk blocks).flatten.filter Block.isChange
      = hunk.reverse.filter Block.isChange ++ blocks.filter Block.isChange := by
  fun_induction hunksFrom hunk blocks with
  | case1 hunk hshows => rw [List.flatten_singleton, List.filter_nil, List.append_nil]
  | case2 hunk hshows =>
      rw [Bool.not_eq_true] at hshows
      rw [filter_eq_nil_of_showsChange hshows]
      rfl
  | case3 hunk old new length blocks hlong skipped ih =>
      -- The kept lines that end this hunk and begin the next are no changes.
      rw [List.flatten_cons, List.filter_append, ih, List.reverse_cons, List.filter_append]
      simp only [List.reverse_singleton, List.filter_cons, List.filter_nil, Block.isChange,
        Bool.false_eq_true, if_false, List.append_nil, List.nil_append]
  | case4 hunk old new length blocks hshort ih =>
      rw [ih, List.reverse_cons, List.filter_append]
      simp only [List.filter_cons, List.filter_nil, Block.isChange, Bool.false_eq_true, if_false,
        List.append_nil]
  | case5 hunk block blocks hkept ih =>
      rw [ih, List.reverse_cons, List.filter_append, List.append_assoc, ← List.filter_append,
        List.singleton_append]

/-- The hunks of blocks hold their changes, all of them and in order. -/
theorem filter_hunks (blocks : List Block) :
    (hunks blocks).flatten.filter Block.isChange = blocks.filter Block.isChange := by
  rw [hunks, filter_hunksFrom, List.reverse_nil, List.filter_nil, List.nil_append, filter_trimLast,
    filter_trimFirst]

/-- A line that is not kept is shown by a change. -/
theorem Block.isChange_of_mem {r : Revision} {block : Block} {c : Change}
    (hmem : c ∈ block.changes r) (hmark : c.mark ≠ .kept) : block.isChange = true := by
  cases block with
  | same old new length =>
      rcases List.mem_map.mp hmem with ⟨line, _, rfl⟩
      exact absurd rfl hmark
  | change => rfl

/-- A script with a line that is not kept has a hunk. -/
theorem hunks_ne_nil {r : Revision} {m : Mark} (hm : m ≠ .kept)
    (h : countMarked m (changes r) ≠ 0) : hunks (blocks (Drift.edits r)) ≠ [] := by
  rcases List.countP_pos_iff.mp (Nat.pos_of_ne_zero h) with ⟨c, hc, hmark⟩
  rcases List.mem_flatMap.mp hc with ⟨block, hblock, hline⟩
  have hchange : block.isChange = true :=
    Block.isChange_of_mem hline (of_decide_eq_true hmark ▸ hm)
  have hshown : block ∈ (blocks (Drift.edits r)).filter Block.isChange :=
    List.mem_filter.mpr ⟨hblock, hchange⟩
  intro hnone
  rw [← filter_hunks, hnone] at hshown
  exact absurd hshown List.not_mem_nil

end Diff

open Diff

/-- A script that deletes or inserts a line has a diff, which opens with the two names. -/
theorem Drift.unified_ne_empty {r : Revision}
    (h : countInserted (edits r) + countDeleted (edits r) ≠ 0) (label : String) :
    unified r label ≠ "" := by
  have hhunks : hunks (blocks (edits r)) ≠ [] := by
    rw [← countMarked_inserted, ← countMarked_deleted] at h
    by_cases hinserted : countMarked .inserted (changes r) = 0
    · exact hunks_ne_nil (m := .deleted) (by decide) (by omega)
    · exact hunks_ne_nil (by decide) hinserted
  intro hempty
  unfold unified at hempty
  split at hempty
  · exact absurd (by assumption) hhunks
  · have hchars := congrArg String.toList hempty
    simp only [opening, String.toList_append, List.append_assoc] at hchars
    exact absurd hchars (List.cons_ne_nil _ _)

end PanelSketch
