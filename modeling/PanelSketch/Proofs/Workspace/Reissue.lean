import PanelSketch.Proofs.Workspace.Register

/-!
# Which Ids Are Given Up

A register decides by the names it has given whether an id can be kept. Whoever
reads the file does not see those names, only the ids in front: an id is given up
when it is empty or stands in front as well. Both decide alike. A new name is none
of the ids of the file, so an id that is still to come is never taken, and of the
ids of the file the register holds just those that have been read.

What a counter has come to is said with numbers that know no greatest one. It starts
from a number that is greater than those of all ids, and goes on by one for every id
that is given up. Only the outcome is cut off at the greatest word.

## Main definitions

* `GivenUp`, `countGivenUp`: Ids that cannot be kept, and how many there are.
* `KeepsIds`: New ids that give up no more than that.
* `Counter.floor`: The number that a counter starts from.
* `Register.HasRead`: A register that holds the ids read so far.

## Theorems

* `Register.HasRead.enter`: One more id.
* `Register.HasRead.getElem?_enterAll`: What becomes of the id at a position.
* `Register.Sound.keepsIds`: Entering the ids of a file gives up no more than it has to.
* `Register.HasRead.toNat_next_enterAll`, `Counter.toNat_next_observeAll`: What the
  counter has come to.
* `KeepsIds.mem_of_mem`: No id is lost but the empty one.
-/

namespace PanelSketch

/-- An id is given up behind others when it is empty or one of them. -/
def GivenUp (front : List String) (id : String) : Prop :=
  id = "" ∨ id ∈ front

instance (front : List String) (id : String) : Decidable (GivenUp front id) :=
  inferInstanceAs (Decidable (_ ∨ _))

/-- How many ids of a list are given up where they stand. -/
def countGivenUp (ids : List String) : Nat :=
  ids.zipIdx.countP fun x => GivenUp (ids.take x.2) x.1

/-- New ids for a list of ids. An id stays where it stands first, unless it is empty,
    and every other id makes way for one that is not in the list. -/
structure KeepsIds (old new : List String) : Prop where
  kept : ∀ (i : Nat) (id : String), old[i]? = some id → ¬GivenUp (old.take i) id →
    new[i]? = some id
  replaced : ∀ (i : Nat) (id : String), old[i]? = some id → GivenUp (old.take i) id →
    ∃ id', new[i]? = some id' ∧ id' ∉ old
  nodup : new.Nodup

/-- Every id but the empty one has a place where it stands first. -/
theorem exists_first {ids : List String} {id : String} (hid : id ∈ ids) (hne : id ≠ "") :
    ∃ i, ids[i]? = some id ∧ ¬GivenUp (ids.take i) id := by
  refine ⟨ids.idxOf id, List.getElem?_idxOf hid, ?_⟩
  rintro (hempty | hmem)
  · exact hne hempty
  · exact Nat.lt_irrefl _ ((List.mem_take_iff_idxOf_lt hid).mp hmem)

theorem KeepsIds.mem_of_mem {old new : List String} (h : KeepsIds old new) {id : String}
    (hid : id ∈ old) (hne : id ≠ "") : id ∈ new := by
  rcases exists_first hid hne with ⟨i, hi, hfirst⟩
  exact List.mem_of_getElem? (h.kept i id hi hfirst)

/-! ### Registers that have read some ids -/

namespace Register

/-- Of the ids of the file, the register holds those that have been read. -/
def HasRead (known front : List String) (reg : Register) : Prop :=
  ∀ id ∈ known, id ≠ "" → (id ∈ reg.seen ↔ id ∈ front)

variable {stem : String} {known front : List String} {reg : Register}

theorem hasRead_nil (known : List String) (c : Counter) : (mk [] c).HasRead known [] :=
  fun _ _ _ => Iff.rfl

/-- What a register renames is given up. -/
theorem HasRead.givenUp_iff (h : reg.HasRead known front) {id : String} (hid : id ∈ known) :
    (id.isEmpty ∨ id ∈ reg.seen) ↔ GivenUp front id := by
  rw [String.isEmpty_iff, GivenUp]
  by_cases hempty : id = ""
  · exact iff_of_true (Or.inl hempty) (Or.inl hempty)
  · rw [h id hid hempty]

/-- The id that is given up makes way for one that is not in the file. -/
theorem HasRead.enter_givenUp (h : reg.HasRead known front) {id : String} (hid : id ∈ known)
    (hup : GivenUp front id) :
    (reg.enter stem known id).1 ∉ known
      ∧ (reg.enter stem known id).2.counter.next = Counter.successor reg.counter.next := by
  rw [enter_renamed ((h.givenUp_iff hid).mpr hup)]
  refine ⟨fun hmem => ?_, rfl⟩
  exact Counter.issue_not_mem stem _ reg.counter (List.mem_append_left _ hmem)

theorem HasRead.enter_stays (h : reg.HasRead known front) {id : String} (hid : id ∈ known)
    (hup : ¬GivenUp front id) :
    reg.enter stem known id = (id, ⟨reg.seen ++ [id], reg.counter⟩) :=
  enter_kept fun hnew => hup ((h.givenUp_iff hid).mp hnew)

theorem HasRead.enter (h : reg.HasRead known front) (stem : String) {id : String}
    (hid : id ∈ known) :
    (reg.enter stem known id).2.HasRead known (front ++ [id]) := by
  intro other hother hne
  have hseen : (reg.enter stem known id).2.seen = reg.seen ++ [(reg.enter stem known id).1] := rfl
  rw [hseen, List.mem_append, List.mem_append, List.mem_singleton, List.mem_singleton,
    h other hother hne]
  by_cases hup : GivenUp front id
  · -- The id that is given up was in front already, and the new one is not in the file.
    have hold : other = id → other ∈ front := fun he => he ▸ hup.resolve_left (he ▸ hne)
    have hnew : other ≠ (reg.enter stem known id).1 := fun he =>
      (h.enter_givenUp hid hup).1 (he ▸ hother)
    rw [or_iff_left hnew, or_iff_left_of_imp hold]
  · rw [h.enter_stays hid hup]

/-- What becomes of the id at a position. -/
theorem HasRead.getElem?_enterAll (h : reg.HasRead known front) (stem : String)
    {ids : List String} (hids : ids ⊆ known) {i : Nat} {id : String} (hi : ids[i]? = some id) :
    ∃ id', (reg.enterAll stem known ids).1[i]? = some id'
      ∧ (GivenUp (front ++ ids.take i) id → id' ∉ known)
      ∧ (¬GivenUp (front ++ ids.take i) id → id' = id) := by
  induction ids generalizing reg front i with
  | nil => exact absurd hi (by simp only [List.getElem?_nil, reduceCtorEq, not_false_eq_true])
  | cons first ids ih =>
      rw [List.cons_subset] at hids
      cases i with
      | zero =>
          rw [List.getElem?_cons_zero, Option.some.injEq] at hi
          rw [← hi, List.take_zero, List.append_nil]
          exact ⟨(reg.enter stem known first).1, rfl, fun hup => (h.enter_givenUp hids.1 hup).1,
            fun hup => congrArg Prod.fst (h.enter_stays hids.1 hup)⟩
      | succ i =>
          -- The first id now belongs to those in front.
          have hrest := ih (h.enter stem hids.1) hids.2 hi
          rw [List.append_assoc, List.singleton_append] at hrest
          exact hrest

/-- Entering the ids of a file gives up no more of them than it has to. -/
theorem Sound.keepsIds {c : Counter} {ids : List String} (h : (Register.mk [] c).Sound stem ids) :
    KeepsIds ids ((Register.mk [] c).enterAll stem ids ids).1 where
  kept i id hi hup := by
    rcases (hasRead_nil ids c).getElem?_enterAll stem (List.Subset.refl ids) hi
      with ⟨id', hi', _, hkept⟩
    rw [hi', hkept hup]
  replaced i id hi hup := by
    rcases (hasRead_nil ids c).getElem?_enterAll stem (List.Subset.refl ids) hi
      with ⟨id', hi', hnew, _⟩
    exact ⟨id', hi', hnew hup⟩
  nodup := by
    have hn := (h.enterAll (List.Subset.refl ids)).governs.nodup
    rwa [seen_enterAll, List.nil_append] at hn

/-- The counter goes on by one for every id that is given up. -/
theorem HasRead.toNat_next_enterAll (h : reg.HasRead known front) (stem : String)
    {ids : List String} (hids : ids ⊆ known) :
    (reg.enterAll stem known ids).2.counter.next.toNat
      = min (UInt32.size - 1) (reg.counter.next.toNat
        + (ids.zipIdx front.length).countP fun x => GivenUp ((front ++ ids).take x.2) x.1) := by
  induction ids generalizing reg front with
  | nil =>
      have hlt : reg.counter.next.toNat < UInt32.size := reg.counter.next.toNat_lt
      exact (Nat.min_eq_right (Nat.le_sub_one_of_lt hlt)).symm
  | cons first ids ih =>
      rw [List.cons_subset] at hids
      -- The ids behind the first have one more id in front.
      have hrest := ih (h.enter stem hids.1) hids.2
      rw [List.append_assoc, List.singleton_append, List.length_append, List.length_singleton]
        at hrest
      rw [List.zipIdx_cons, List.countP_cons, List.take_left, enterAll, hrest]
      by_cases hup : GivenUp front first
      · rw [(h.enter_givenUp hids.1 hup).2, Counter.toNat_successor, if_pos (decide_eq_true hup)]
        omega
      · have hcounter : (reg.enter stem known first).2.counter = reg.counter := by
          rw [h.enter_stays hids.1 hup]
        rw [hcounter, if_neg (by rwa [decide_eq_true_eq])]
        rfl

end Register

/-! ### Where a counter starts -/

namespace Counter

/-- The number that a counter starts from: it is not zero, not less than the number of
    the file, and greater than the number of every id. -/
def floor (stem : String) (n : UInt32) (ids : List String) : Nat :=
  (ids.filterMap (numberOf? stem)).foldl (fun m k => max m (k.toNat + 1)) (max 1 n.toNat)

theorem toNat_next_observe (stem id : String) (c : Counter) :
    (c.observe stem id).next.toNat = (numberOf? stem id).elim c.next.toNat fun k =>
      max c.next.toNat (min (k.toNat + 1) (UInt32.size - 1)) := by
  unfold observe
  split
  · rename_i k hk
    rw [hk, toNat_larger, toNat_successor]
    rfl
  · rename_i hnone
    rw [hnone]
    rfl

theorem toNat_next_observeAll {stem : String} {ids : List String} {c : Counter} {m : Nat}
    (h : c.next.toNat = min (UInt32.size - 1) m) :
    (c.observeAll stem ids).next.toNat = min (UInt32.size - 1)
      ((ids.filterMap (numberOf? stem)).foldl (fun m k => max m (k.toNat + 1)) m) := by
  induction ids generalizing c m with
  | nil => exact h
  | cons id ids ih =>
      have hid := toNat_next_observe stem id c
      rw [List.filterMap_cons]
      rcases hk : numberOf? stem id with _ | k
      · rw [hk] at hid
        exact ih (hid.trans h)
      · -- Cutting off once more at the end makes up for cutting off before.
        rw [hk, Option.elim_some, h, Nat.min_comm (k.toNat + 1), ← Nat.min_max_distrib_left] at hid
        exact ih hid

/-- Once a counter has seen the ids of a file, it stands where it starts. -/
theorem toNat_next_start_observeAll (stem : String) (n : UInt32) (ids : List String) :
    ((start n).observeAll stem ids).next.toNat = min (UInt32.size - 1) (floor stem n ids) := by
  have hlt : n.toNat < UInt32.size := n.toNat_lt
  have hstart : (start n).next.toNat = min (UInt32.size - 1) (max 1 n.toNat) := by
    rw [start, toNat_larger, UInt32.toNat_one]
    exact (Nat.min_eq_right (Nat.max_le.mpr ⟨by decide, Nat.le_sub_one_of_lt hlt⟩)).symm
  rw [floor, toNat_next_observeAll hstart]

end Counter

/-- What a counter has come to once the ids of a file have been entered. -/
theorem Register.toNat_next_enterAll_observeAll (stem : String) (n : UInt32) (ids : List String) :
    ((mk [] ((Counter.start n).observeAll stem ids)).enterAll stem ids ids).2.counter.next.toNat
      = min (UInt32.size - 1) (Counter.floor stem n ids + countGivenUp ids) := by
  have h := (hasRead_nil ids ((Counter.start n).observeAll stem ids)).toNat_next_enterAll
    stem (List.Subset.refl ids)
  rw [Counter.toNat_next_start_observeAll, List.nil_append, List.length_nil] at h
  rw [h, countGivenUp]
  omega

end PanelSketch
