import PanelSketch.Diff.Script

/-!
# Scripts as Walks

An edit script is a walk through two texts at once. Kept lines lead forward in both,
deleted lines in the old text and inserted lines in the new one. A script is right when
each edit takes its lines from where the walk stands, and when kept lines agree.

An edit also records a place in the text from which it takes no lines. Nothing is asked
of that place, and this is what lets edits change places later on without a correction.

That a script arrives where it should does not depend on how good it is. The search for
a middle may answer anything: both halves are walks between the same corners, and a
range that is not searched at all is deleted and inserted as a whole.

## Main definitions

* `Revision.AgreeFrom`: Lines that agree from a pair of places on.
* `Walks`: A script leads from one pair of places to another.

## Theorems

* `Revision.agreeFrom_commonPrefix`, `Revision.agreeFrom_commonSuffix`: What the texts
  are found to share agrees.
* `walks_append`: A walk may be broken off and taken up again.
* `Range.walks_script`: The script of a range leads from one corner to the other.
* `Revision.walks_script`: The script of two texts leads through both.
-/

namespace PanelSketch.Diff

/-- Lines of the two texts agree, one by one, from a pair of places on. -/
def Revision.AgreeFrom (r : Revision) (o n length : Nat) : Prop :=
  ∀ k < length, r.agree (o + k) (n + k) = true

/-- A script that starts at the first pair of places takes every line from where it
    stands and stops at the second pair. -/
def Walks (r : Revision) : Nat → Nat → List Edit → Nat → Nat → Prop
  | o, n, [], o', n' => o = o' ∧ n = n'
  | o, n, .keep old new length :: edits, o', n' =>
    old = o ∧ new = n ∧ r.AgreeFrom o n length ∧ Walks r (o + length) (n + length) edits o' n'
  | o, n, .delete old length _ :: edits, o', n' => old = o ∧ Walks r (o + length) n edits o' n'
  | o, n, .insert _ new length :: edits, o', n' => new = n ∧ Walks r o (n + length) edits o' n'

variable {r : Revision} {o n o' n' : Nat}

namespace Revision

theorem agreeFrom_zero (r : Revision) (o n : Nat) : r.AgreeFrom o n 0 :=
  fun _ hk => absurd hk (Nat.not_lt_zero _)

theorem AgreeFrom.append {length more : Nat} (h : r.AgreeFrom o n length)
    (h' : r.AgreeFrom (o + length) (n + length) more) : r.AgreeFrom o n (length + more) := by
  intro k hk
  by_cases hlt : k < length
  · exact h k hlt
  · have hbehind := h' (k - length) (by omega)
    rwa [show o + length + (k - length) = o + k by omega,
      show n + length + (k - length) = n + k by omega] at hbehind

/-- Agreement does not end further in front, and it goes on further behind. -/
theorem AgreeFrom.take {length front : Nat} (h : r.AgreeFrom o n length) (hle : front ≤ length) :
    r.AgreeFrom o n front :=
  fun k hk => h k (by omega)

theorem AgreeFrom.drop {length front : Nat} (h : r.AgreeFrom o n length) :
    r.AgreeFrom (o + front) (n + front) (length - front) := by
  intro k hk
  rw [Nat.add_assoc, Nat.add_assoc]
  exact h (front + k) (by omega)

theorem agreeFrom_commonPrefix (r : Revision) (o n limit : Nat) :
    r.AgreeFrom o n (r.commonPrefix o n limit) := by
  induction limit generalizing o n with
  | zero => exact r.agreeFrom_zero o n
  | succ limit ih =>
      rw [commonPrefix]
      split
      · rename_i hagree
        rw [Nat.add_comm]
        refine AgreeFrom.append (fun k hk => ?_) (ih (o + 1) (n + 1))
        rwa [Nat.lt_one_iff.mp hk]
      · exact r.agreeFrom_zero o n

/-- What the texts share in front of a pair of places begins somewhere in both. -/
theorem agreeFrom_commonSuffix (r : Revision) (o n limit : Nat) :
    r.commonSuffix o n limit ≤ o ∧ r.commonSuffix o n limit ≤ n
      ∧ r.AgreeFrom (o - r.commonSuffix o n limit) (n - r.commonSuffix o n limit)
        (r.commonSuffix o n limit) := by
  induction limit generalizing o n with
  | zero => exact ⟨Nat.zero_le o, Nat.zero_le n, r.agreeFrom_zero _ _⟩
  | succ limit ih =>
      rw [commonSuffix]
      split
      · rename_i hagree
        rcases hagree with ⟨ho, hn, hagree⟩
        rcases ih (o - 1) (n - 1) with ⟨hle, hle', hrest⟩
        refine ⟨by omega, by omega, ?_⟩
        rw [show o - (r.commonSuffix (o - 1) (n - 1) limit + 1)
            = o - 1 - r.commonSuffix (o - 1) (n - 1) limit by omega,
          show n - (r.commonSuffix (o - 1) (n - 1) limit + 1)
            = n - 1 - r.commonSuffix (o - 1) (n - 1) limit by omega]
        -- The line just in front of the places comes last.
        refine hrest.append fun k hk => ?_
        rw [Nat.lt_one_iff.mp hk, Nat.add_zero, Nat.add_zero, Nat.sub_add_cancel hle,
          Nat.sub_add_cancel hle']
        exact hagree
      · exact ⟨Nat.zero_le o, Nat.zero_le n, r.agreeFrom_zero _ _⟩

end Revision

theorem walks_append {edits edits' : List Edit} :
    Walks r o n (edits ++ edits') o' n'
      ↔ ∃ a b, Walks r o n edits a b ∧ Walks r a b edits' o' n' := by
  induction edits generalizing o n with
  | nil =>
      constructor
      · intro h
        exact ⟨o, n, ⟨rfl, rfl⟩, h⟩
      · rintro ⟨a, b, ⟨rfl, rfl⟩, h⟩
        exact h
  | cons edit edits ih =>
      cases edit with
      | keep old new length =>
          simp only [List.cons_append, Walks, ih]
          exact ⟨fun ⟨hold, hnew, hagree, a, b, h, h'⟩ => ⟨a, b, ⟨hold, hnew, hagree, h⟩, h'⟩,
            fun ⟨a, b, ⟨hold, hnew, hagree, h⟩, h'⟩ => ⟨hold, hnew, hagree, a, b, h, h'⟩⟩
      | delete old length new =>
          simp only [List.cons_append, Walks, ih]
          exact ⟨fun ⟨hold, a, b, h, h'⟩ => ⟨a, b, ⟨hold, h⟩, h'⟩,
            fun ⟨a, b, ⟨hold, h⟩, h'⟩ => ⟨hold, a, b, h, h'⟩⟩
      | insert old new length =>
          simp only [List.cons_append, Walks, ih]
          exact ⟨fun ⟨hnew, a, b, h, h'⟩ => ⟨a, b, ⟨hnew, h⟩, h'⟩,
            fun ⟨a, b, ⟨hnew, h⟩, h'⟩ => ⟨hnew, a, b, h, h'⟩⟩

/-- One walk goes on where another one stops. -/
theorem Walks.append {edits edits' : List Edit} {a b : Nat} (h : Walks r o n edits a b)
    (h' : Walks r a b edits' o' n') : Walks r o n (edits ++ edits') o' n' :=
  walks_append.mpr ⟨a, b, h, h'⟩

/-- A walk never goes back. -/
theorem Walks.le {edits : List Edit} (h : Walks r o n edits o' n') : o ≤ o' ∧ n ≤ n' := by
  induction edits generalizing o n with
  | nil => exact ⟨Nat.le_of_eq h.1, Nat.le_of_eq h.2⟩
  | cons edit edits ih =>
      cases edit with
      | keep old new length =>
          have hrest := ih h.2.2.2
          omega
      | delete old length new =>
          have hrest := ih h.2
          omega
      | insert old new length =>
          have hrest := ih h.2
          omega

namespace Range

/-- The corners of a range are in order. -/
structure Ordered (g : Range) : Prop where
  old : g.oldStart ≤ g.oldEnd
  new : g.newStart ≤ g.newEnd

theorem walks_keeping {length : Nat} (h : r.AgreeFrom o n length) :
    Walks r o n (keeping o n length) (o + length) (n + length) := by
  unfold keeping
  split
  · rename_i hzero
    rw [hzero]
    exact ⟨rfl, rfl⟩
  · exact ⟨rfl, rfl, h, rfl, rfl⟩

/-- What is left of a range without the lines that the texts share at its ends. -/
def core (r : Revision) (g : Range) : Range :=
  let inner := g.dropPrefix (g.sharedPrefix r)
  inner.dropSuffix (inner.sharedSuffix r)

theorem sharedPrefix_le (r : Revision) (g : Range) :
    g.sharedPrefix r ≤ g.oldLength ∧ g.sharedPrefix r ≤ g.newLength :=
  Nat.le_min.mp (r.commonPrefix_le _ _ _)

theorem sharedSuffix_le (r : Revision) (g : Range) :
    g.sharedSuffix r ≤ g.oldLength ∧ g.sharedSuffix r ≤ g.newLength :=
  Nat.le_min.mp (r.commonSuffix_le _ _ _)

theorem Ordered.dropPrefix {g : Range} (hg : g.Ordered) (r : Revision) :
    (g.dropPrefix (g.sharedPrefix r)).Ordered := by
  rcases sharedPrefix_le r g with ⟨hold, hnew⟩
  rcases hg with ⟨ho, hn⟩
  simp only [oldLength, newLength] at hold hnew
  exact ⟨by simp only [Range.dropPrefix]; omega, by simp only [Range.dropPrefix]; omega⟩

theorem Ordered.dropSuffix {g : Range} (hg : g.Ordered) (r : Revision) :
    (g.dropSuffix (g.sharedSuffix r)).Ordered := by
  rcases sharedSuffix_le r g with ⟨hold, hnew⟩
  rcases hg with ⟨ho, hn⟩
  simp only [oldLength, newLength] at hold hnew
  exact ⟨by simp only [Range.dropSuffix]; omega, by simp only [Range.dropSuffix]; omega⟩

theorem Ordered.core {g : Range} (hg : g.Ordered) (r : Revision) : (g.core r).Ordered :=
  (hg.dropPrefix r).dropSuffix r

/-- A walk through the core becomes one through the range when the shared lines are kept
    around it. -/
theorem walks_around {g : Range} {edits : List Edit}
    (h : Walks r (g.core r).oldStart (g.core r).newStart edits (g.core r).oldEnd
      (g.core r).newEnd) :
    Walks r g.oldStart g.newStart
      (keeping g.oldStart g.newStart (g.sharedPrefix r) ++ edits
        ++ keeping (g.core r).oldEnd (g.core r).newEnd
          ((g.dropPrefix (g.sharedPrefix r)).sharedSuffix r)) g.oldEnd g.newEnd := by
  let inner := g.dropPrefix (g.sharedPrefix r)
  have hfront : Walks r g.oldStart g.newStart (keeping g.oldStart g.newStart (g.sharedPrefix r))
      (g.core r).oldStart (g.core r).newStart :=
    walks_keeping (r.agreeFrom_commonPrefix _ _ _)
  rcases r.agreeFrom_commonSuffix inner.oldEnd inner.newEnd (min inner.oldLength inner.newLength)
    with ⟨hle, hle', hagree⟩
  have hback : Walks r (g.core r).oldEnd (g.core r).newEnd
      (keeping (g.core r).oldEnd (g.core r).newEnd (inner.sharedSuffix r))
      ((g.core r).oldEnd + inner.sharedSuffix r) ((g.core r).newEnd + inner.sharedSuffix r) :=
    walks_keeping hagree
  have hend : (g.core r).oldEnd + inner.sharedSuffix r = g.oldEnd := Nat.sub_add_cancel hle
  have hend' : (g.core r).newEnd + inner.sharedSuffix r = g.newEnd := Nat.sub_add_cancel hle'
  rw [hend, hend'] at hback
  exact (hfront.append h).append hback

theorem walks_nothing {g : Range} (hg : g.Ordered) (hold : g.oldLength = 0)
    (hnew : g.newLength = 0) : Walks r g.oldStart g.newStart [] g.oldEnd g.newEnd := by
  rcases hg with ⟨ho, hn⟩
  simp only [oldLength, newLength] at hold hnew
  exact ⟨by omega, by omega⟩

theorem walks_deletion {g : Range} (hg : g.Ordered) (hnew : g.newLength = 0) :
    Walks r g.oldStart g.newStart [.delete g.oldStart g.oldLength g.newStart] g.oldEnd
      g.newEnd := by
  rcases hg with ⟨ho, hn⟩
  simp only [newLength] at hnew
  exact ⟨rfl, by simp only [oldLength]; omega, by omega⟩

theorem walks_insertion {g : Range} (hg : g.Ordered) (hold : g.oldLength = 0) :
    Walks r g.oldStart g.newStart [.insert g.oldStart g.newStart g.newLength] g.oldEnd
      g.newEnd := by
  rcases hg with ⟨ho, hn⟩
  simp only [oldLength] at hold
  exact ⟨rfl, by omega, by simp only [newLength]; omega⟩

theorem walks_replacement {g : Range} (hg : g.Ordered) :
    Walks r g.oldStart g.newStart [.delete g.oldStart g.oldLength g.newStart,
      .insert g.oldStart g.newStart g.newLength] g.oldEnd g.newEnd := by
  rcases hg with ⟨ho, hn⟩
  exact ⟨rfl, rfl, by simp only [oldLength]; omega, by simp only [newLength]; omega⟩

/-- Walks through two halves of a range make a walk through the range, wherever the
    halves meet. -/
theorem walks_halves {g : Range} (hg : g.Ordered) {scriptOf : Range → List Edit}
    (h : ∀ half : Range, half.Ordered →
      Walks r half.oldStart half.newStart (scriptOf half) half.oldEnd half.newEnd) (x y : Nat) :
    let o := g.oldStart + min x g.oldLength
    let n := g.newStart + min y g.newLength
    Walks r g.oldStart g.newStart (scriptOf { g with oldEnd := o, newEnd := n }
      ++ scriptOf { g with oldStart := o, newStart := n }) g.oldEnd g.newEnd := by
  intro o n
  rcases hg with ⟨ho, hn⟩
  have hold : g.oldStart ≤ o ∧ o ≤ g.oldEnd := by
    simp only [o, oldLength]
    omega
  have hnew : g.newStart ≤ n ∧ n ≤ g.newEnd := by
    simp only [n, newLength]
    omega
  exact (h { g with oldEnd := o, newEnd := n } ⟨hold.1, hnew.1⟩).append
    (h { g with oldStart := o, newStart := n } ⟨hold.2, hnew.2⟩)

/-- The script of a range leads from one corner to the other. -/
theorem walks_script (r : Revision) (depth : Nat) {g : Range} (hg : g.Ordered) :
    Walks r g.oldStart g.newStart (script r depth g) g.oldEnd g.newEnd := by
  induction depth using Nat.strongRecOn generalizing g with
  | ind depth ih =>
      have hcore := hg.core r
      unfold script
      refine walks_around ?_
      split
      · rename_i hempty
        exact walks_nothing hcore hempty.1 hempty.2
      · split
        · rename_i hnew
          exact walks_deletion hcore hnew
        · split
          · rename_i hold
            exact walks_insertion hcore hold
          · split
            · rename_i depth x y _
              exact walks_halves hcore (fun half hhalf => ih depth (Nat.lt_succ_self _) hhalf) x y
            · exact walks_replacement hcore

end Range

/-- The script of two texts leads through both. -/
theorem Revision.walks_script (r : Revision) : Walks r 0 0 r.script r.old.size r.new.size :=
  Range.walks_script r _ (g := ⟨0, r.old.size, 0, r.new.size⟩) ⟨Nat.zero_le _, Nat.zero_le _⟩

end PanelSketch.Diff
