import PanelSketch.Proofs.Diff.Cutting
import PanelSketch.Proofs.Diff.Hunks
import PanelSketch.Proofs.Text.ByteOrder

/-!
# What a Drift Report Says

A report has a verdict from two digests, two counts and a diff from an edit script. The
two sides are computed apart from each other, and they have to say the same.

The script always spells both texts, so counts of zero leave no room for a difference. The
other direction needs more than a script that is right: a script could delete a line and
insert it again. For equal texts it does not, because what the texts share at their
start is everything, and it is kept before anything is searched. The diff follows the
counts, since a script with a change has a hunk to show.

The digest says less than the counts. That texts with the same digest are equal holds as
long as the two are not a collision.

## Main definitions

* `Digest.Collide`: Two messages with one digest.
* `Drift.Consistent`: What a report says about two texts.

## Theorems

* `edits_of_equal`: Equal texts have nothing deleted or inserted.
* `Drift.consistent_ofTexts`: The report on two texts is consistent.
-/

namespace PanelSketch

namespace Diff

/-! ### Equal texts -/

namespace Revision

theorem agree_self (text : Array String) {k : Nat} (hk : k < text.size) :
    (⟨text, text⟩ : Revision).agree k k = true := by
  simp only [agree, Array.getElem?_eq_getElem hk, beq_self_eq_true]

theorem commonPrefix_self (text : Array String) {k limit : Nat} (h : k + limit ≤ text.size) :
    (⟨text, text⟩ : Revision).commonPrefix k k limit = limit := by
  induction limit generalizing k with
  | zero => rfl
  | succ limit ih => rw [commonPrefix, if_pos (agree_self text (by omega)), ih (by omega)]

end Revision

/-- Equal texts share everything at their start, so nothing is left to be searched. -/
theorem script_self (text : Array String) :
    (⟨text, text⟩ : Revision).script = Range.keeping 0 0 text.size := by
  have hfront : Range.sharedPrefix ⟨text, text⟩ ⟨0, text.size, 0, text.size⟩ = text.size := by
    simp only [Range.sharedPrefix, Range.oldLength, Range.newLength, Nat.sub_zero, Nat.min_self]
    exact Revision.commonPrefix_self text (by omega)
  rw [Revision.script]
  unfold Range.script
  rw [hfront]
  simp [Range.keeping, Range.dropPrefix, Range.dropSuffix, Range.sharedSuffix, Range.oldLength,
    Range.newLength, Revision.commonSuffix]

/-- Nothing is deleted from a text and nothing inserted to make it itself. -/
theorem edits_self (text : Array String) :
    Drift.edits ⟨text, text⟩ = Range.keeping 0 0 text.size := by
  rw [Drift.edits, script_self]
  refine compact_eq_self fun edit hedit => ?_
  unfold Range.keeping at hedit
  split at hedit
  · exact absurd hedit List.not_mem_nil
  · rw [List.mem_singleton.mp hedit]
    exact ⟨rfl, rfl⟩

theorem counts_self (text : Array String) :
    Drift.countInserted (Drift.edits ⟨text, text⟩) = 0
      ∧ Drift.countDeleted (Drift.edits ⟨text, text⟩) = 0 := by
  rw [edits_self]
  unfold Range.keeping
  split <;> exact ⟨rfl, rfl⟩

/-- Without a line that is deleted or inserted, two texts are equal. -/
theorem eq_of_counts {existing generated : String}
    (hinserted : Drift.countInserted (Drift.edits (.ofTexts existing generated)) = 0)
    (hdeleted : Drift.countDeleted (Drift.edits (.ofTexts existing generated)) = 0) :
    existing = generated := by
  let r := Revision.ofTexts existing generated
  have hold := linesExcept_of_countMarked ((countMarked_inserted r).trans hinserted)
  have hnew := linesExcept_of_countMarked ((countMarked_deleted r).trans hdeleted)
  have hsides : oldLines (changes r) = newLines (changes r) := hold.trans hnew.symm
  have hlines : splitLines existing = splitLines generated := by
    rwa [oldLines_changes, newLines_changes] at hsides
  rw [← join_splitLines existing, hlines, join_splitLines]

end Diff

/-! ### The verdict -/

/-- Two messages that differ and have the same digest. -/
def Digest.Collide (message message' : List UInt8) : Prop :=
  message ≠ message' ∧ Digest.ofBytes message = Digest.ofBytes message'

/-- A text is told from any other by its bytes. -/
theorem eq_of_utf8 {text text' : String} (h : text.toUTF8.toList = text'.toUTF8.toList) :
    text = text' := by
  rw [ByteArray.toList, ByteArray.toList, Text.toList_loop_eq, Text.toList_loop_eq] at h
  exact String.toByteArray_inj.mp (ByteArray.ext (Array.toList_inj.mp h))

namespace Drift

open Diff

/-- A report on two texts agrees with them and with itself. -/
structure Consistent (report : Drift) (existing generated : String) (changes : List Change) :
    Prop where
  /-- Both texts are cut into lines that keep what ends them. -/
  cut : Cut ((splitLines existing).map String.toList)
    ∧ Cut ((splitLines generated).map String.toList)
  /-- The kept and deleted lines spell the text on disk. -/
  old : oldLines changes = splitLines existing ∧ String.join (oldLines changes) = existing
  /-- The kept and inserted lines spell the generated text. -/
  new : newLines changes = splitLines generated ∧ String.join (newLines changes) = generated
  counts : report.added = countMarked .inserted changes
    ∧ report.removed = countMarked .deleted changes
  difference : (report.added : Int) - report.removed
    = (splitLines generated).length - (splitLines existing).length
  unchanged : report.added = 0 ∧ report.removed = 0 ↔ existing = generated
  diff : report.diff = "" ↔ existing = generated
  clean : existing = generated → report.isClean = true
  verdict : ¬ Digest.Collide existing.toUTF8.toList generated.toUTF8.toList →
    report.isClean = true → existing = generated

theorem counts_ofTexts_eq_zero (existing generated label : String) :
    (ofTexts existing generated label).added = 0 ∧ (ofTexts existing generated label).removed = 0
      ↔ existing = generated := by
  constructor
  · rintro ⟨hadded, hremoved⟩
    exact eq_of_counts hadded hremoved
  · rintro rfl
    exact counts_self _

theorem diff_ofTexts_eq_empty (existing generated label : String) :
    (ofTexts existing generated label).diff = "" ↔ existing = generated := by
  rw [← counts_ofTexts_eq_zero existing generated label, ← Nat.add_eq_zero_iff]
  constructor
  · intro hempty
    refine Decidable.byContradiction fun hcounts => ?_
    exact unified_ne_empty hcounts label ((if_neg hcounts).symm.trans hempty)
  · intro hcounts
    exact if_pos hcounts

/-- The report on two texts agrees with them and with itself. -/
theorem consistent_ofTexts (existing generated label : String) :
    Consistent (ofTexts existing generated label) existing generated
      (changes (.ofTexts existing generated)) := by
  let r := Revision.ofTexts existing generated
  have hold : oldLines (changes r) = splitLines existing := oldLines_changes r
  have hnew : newLines (changes r) = splitLines generated := newLines_changes r
  have hadded : (ofTexts existing generated label).added = countMarked .inserted (changes r) :=
    (countMarked_inserted r).symm
  have hremoved : (ofTexts existing generated label).removed = countMarked .deleted (changes r) :=
    (countMarked_deleted r).symm
  refine
    { cut := ⟨cut_splitLines existing, cut_splitLines generated⟩
      old := ⟨hold, by rw [hold, join_splitLines]⟩
      new := ⟨hnew, by rw [hnew, join_splitLines]⟩
      counts := ⟨hadded, hremoved⟩
      difference := ?difference
      unchanged := counts_ofTexts_eq_zero existing generated label
      diff := diff_ofTexts_eq_empty existing generated label
      clean := ?clean
      verdict := ?verdict }
  case difference =>
    -- Together with what was inserted, the old lines are all lines; so are the new ones.
    have holdCount := length_linesExcept .inserted (changes r)
    have hnewCount := length_linesExcept .deleted (changes r)
    rw [show linesExcept .inserted (changes r) = splitLines existing from hold] at holdCount
    rw [show linesExcept .deleted (changes r) = splitLines generated from hnew] at hnewCount
    omega
  case clean =>
    rintro rfl
    exact isClean_self existing label
  case verdict =>
    intro hcollide hclean
    have hdigest : Digest.ofText generated = Digest.ofText existing := eq_of_beq hclean
    refine Decidable.byContradiction fun hne => ?_
    exact hcollide ⟨fun hbytes => hne (eq_of_utf8 hbytes), hdigest.symm⟩

/-- Texts that differ in what ends their last line. -/
theorem consistent_final_newline :
    let existing := "void loop() \x7b\x7d\r\n// end"
    let generated := "void loop() \x7b\x7d\r\n// end\n"
    let report := ofTexts existing generated "demo.ino"
    Consistent report existing generated (changes (.ofTexts existing generated))
      ∧ report.added = 1 ∧ report.removed = 1
      ∧ report.diff = String.join ["--- demo.ino (on disk)\n", "+++ demo.ino (generated)\n",
        "@@ -1,2 +1,2 @@\n", " void loop() \x7b\x7d\r\n", "-// end\n",
        "\\ No newline at end of file\n", "+// end\n"] := by
  intro existing generated report
  exact ⟨consistent_ofTexts existing generated "demo.ino", by decide +kernel, by decide +kernel,
    by decide +kernel⟩

end Drift

end PanelSketch
