import PanelSketch.Proofs.Workspace.Numbering

/-!
# Registers of Ids

Loading goes through the ids of one sort in reading order and enters each under
its own name or under a new one. What it has to remember is a register: the ids
entered so far and the counter that names the next one. An id is renamed when it
is empty or has been entered before, and the new name is kept clear of every id of
the file, also of those still to come.

This says what happens to ids alone, for screens and elements alike. Where the
ids stand in the project plays no part in it.

## Main definitions

* `Register`: The ids entered so far, and the counter.
* `Register.enter`, `Register.enterAll`: One more id, and a list of them.
* `Register.Sound`: A register that can go on from there.

## Theorems

* `Register.enterAll_append`: Ids may be entered piece by piece.
* `Register.seen_enterAll`: The ids entered are those returned.
* `Register.Sound.enterAll`: Entering ids of the file keeps a register sound.
* `Register.enterAll_eq_self`: Ids that are not empty and do not repeat keep their
  names, and the counter stays.
-/

namespace PanelSketch

/-- The ids of one sort that have been entered, in order, and their counter. -/
structure Register where
  seen : List String
  counter : Counter

namespace Register

/-- Enter one more id; also returns the name that it goes by. -/
def enter (stem : String) (known : List String) (reg : Register) (id : String) :
    String × Register :=
  let (id, counter) :=
    if id.isEmpty ∨ id ∈ reg.seen then reg.counter.issue stem (known ++ reg.seen)
    else (id, reg.counter)
  (id, ⟨reg.seen ++ [id], counter⟩)

/-- Enter ids in order; also returns the names that they go by. -/
def enterAll (stem : String) (known : List String) (reg : Register) :
    List String → List String × Register
  | [] => ([], reg)
  | id :: ids =>
    let (id, reg) := reg.enter stem known id
    let (ids, reg) := reg.enterAll stem known ids
    (id :: ids, reg)

variable {stem : String} {known : List String} {reg : Register}

theorem enter_renamed {id : String} (h : id.isEmpty ∨ id ∈ reg.seen) :
    reg.enter stem known id
      = ((reg.counter.issue stem (known ++ reg.seen)).1,
        ⟨reg.seen ++ [(reg.counter.issue stem (known ++ reg.seen)).1],
          (reg.counter.issue stem (known ++ reg.seen)).2⟩) := by
  rw [enter, if_pos h]

theorem enter_kept {id : String} (h : ¬(id.isEmpty ∨ id ∈ reg.seen)) :
    reg.enter stem known id = (id, ⟨reg.seen ++ [id], reg.counter⟩) := by
  rw [enter, if_neg h]

theorem seen_of_enter {reg' : Register} {id id' : String}
    (h : reg.enter stem known id = (id', reg')) : reg'.seen = reg.seen ++ [id'] := by
  rw [enter, Prod.mk.injEq] at h
  rw [← h.1, ← h.2]

theorem length_enterAll (ids : List String) :
    (reg.enterAll stem known ids).1.length = ids.length := by
  induction ids generalizing reg with
  | nil => rfl
  | cons id ids ih => simp only [enterAll, List.length_cons, ih]

theorem enterAll_append (ids ids' : List String) :
    reg.enterAll stem known (ids ++ ids')
      = ((reg.enterAll stem known ids).1
          ++ ((reg.enterAll stem known ids).2.enterAll stem known ids').1,
        ((reg.enterAll stem known ids).2.enterAll stem known ids').2) := by
  induction ids generalizing reg with
  | nil => rfl
  | cons id ids ih => simp only [List.cons_append, enterAll, ih]

theorem seen_enterAll (ids : List String) :
    (reg.enterAll stem known ids).2.seen = reg.seen ++ (reg.enterAll stem known ids).1 := by
  induction ids generalizing reg with
  | nil => rw [enterAll, List.append_nil]
  | cons id ids ih => simp only [enterAll, ih, enter, List.append_assoc, List.singleton_append]

theorem seen_of_enterAll {reg' : Register} {ids ids' : List String}
    (h : reg.enterAll stem known ids = (ids', reg')) : reg'.seen = reg.seen ++ ids' := by
  have hseen : (reg.enterAll stem known ids).2.seen = _ := seen_enterAll ids
  rwa [h] at hseen

theorem length_of_enterAll {reg' : Register} {ids ids' : List String}
    (h : reg.enterAll stem known ids = (ids', reg')) : ids'.length = ids.length := by
  have hlength : (reg.enterAll stem known ids).1.length = ids.length := length_enterAll ids
  rwa [h] at hlength

/-- The ids entered so far are governed, and the counter is ahead of every id of
    the file. -/
structure Sound (stem : String) (known : List String) (reg : Register) : Prop where
  governs : reg.counter.Governs stem reg.seen
  ahead : ∀ id ∈ known, reg.counter.Ahead stem id

/-- An empty register whose counter has seen the ids of the file. -/
theorem sound_observeAll (stem : String) (known : List String) (n : UInt32) :
    (mk [] ((Counter.start n).observeAll stem known)).Sound stem known where
  governs :=
    { nodup := List.nodup_nil
      empty_not_mem := List.not_mem_nil
      pos := UInt32.le_trans (Counter.one_le_start n) (Counter.le_next_observeAll stem known _)
      ahead := fun _ hid => absurd hid List.not_mem_nil }
  ahead _ hid := Counter.ahead_observeAll stem _ hid

theorem Sound.enter (h : reg.Sound stem known) {id : String} (hid : id ∈ known) :
    (reg.enter stem known id).2.Sound stem known := by
  by_cases hnew : id.isEmpty ∨ id ∈ reg.seen
  · rw [enter_renamed hnew]
    -- The new name is kept clear of the ids of the file and of those entered.
    exact ⟨h.governs.issue (List.subset_append_right known reg.seen), fun other hother =>
      (h.ahead other hother).mono (Counter.le_next_issue stem (known ++ reg.seen) reg.counter)⟩
  · rw [enter_kept hnew]
    rw [not_or] at hnew
    -- The id is one of the file, so the counter is ahead of it already.
    have hne : "" ≠ id := fun he => hnew.1 (he ▸ rfl)
    refine ⟨⟨?_, ?_, h.governs.pos, ?_⟩, h.ahead⟩
    · rw [← List.concat_eq_append, List.nodup_concat]
      exact ⟨hnew.2, h.governs.nodup⟩
    · rw [List.mem_append, List.mem_singleton, not_or]
      exact ⟨h.governs.empty_not_mem, hne⟩
    · intro other hother
      rcases List.mem_append.mp hother with hother | hother
      · exact h.governs.ahead other hother
      · rw [List.mem_singleton.mp hother]
        exact h.ahead id hid

theorem Sound.enterAll (h : reg.Sound stem known) {ids : List String} (hids : ids ⊆ known) :
    (reg.enterAll stem known ids).2.Sound stem known := by
  induction ids generalizing reg with
  | nil => exact h
  | cons id ids ih =>
      rw [List.cons_subset] at hids
      exact ih (h.enter hids.1) hids.2

/-- Ids that are not empty and do not repeat keep their names. -/
theorem enterAll_eq_self {ids : List String} (hne : "" ∉ ids)
    (hn : (reg.seen ++ ids).Nodup) :
    reg.enterAll stem known ids = (ids, ⟨reg.seen ++ ids, reg.counter⟩) := by
  induction ids generalizing reg with
  | nil => rw [enterAll, List.append_nil]
  | cons id ids ih =>
      rw [List.mem_cons, not_or] at hne
      have hnew : id ∉ reg.seen := fun hmem =>
        (List.nodup_append.mp hn).2.2 id hmem id List.mem_cons_self rfl
      -- Neither reason for a new name applies.
      have hkeep : ¬(id.isEmpty ∨ id ∈ reg.seen) := by
        rw [not_or, String.isEmpty_iff]
        exact ⟨fun he => hne.1 he.symm, hnew⟩
      have hrest := @ih ⟨reg.seen ++ [id], reg.counter⟩ hne.2
        (by rwa [List.append_assoc, List.singleton_append])
      simp only [enterAll, enter_kept hkeep, hrest, List.append_assoc, List.singleton_append]

end Register

end PanelSketch
