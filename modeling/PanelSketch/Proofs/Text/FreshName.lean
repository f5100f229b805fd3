import Mathlib.Data.List.Nodup
import Mathlib.Data.List.Perm.Subperm
import Mathlib.Data.Nat.Find
import Std.Data.String.ToNat
import PanelSketch.Text.Identifier

/-!
# Free Names

A free name is looked for among as many numbered candidates as there are names
in use. That this is enough is a matter of counting: the base is in use and the
candidates are all different, so if every one of them were in use as well, there
would be more names in use than there are.

From that follow the two facts everything else needs. The name found is free,
and it depends on which names are in use, but neither on their order nor on how
often they are listed. The second is what lets two allocators agree that keep
their names in different ways.

## Main definitions

* `IsLeastFree`: A number whose candidate is the first free one.

## Theorems

* `numbered_injective`: Different numbers give different candidates.
* `exists_leastFree`: Some candidate among the first ones is free.
* `freshName_eq_numbered`: A used base gets the least free number.
* `freshName_not_mem`: The name found is free.
* `freshName_congr`: The name depends on the set of used names only.
* `freshName_ne_empty`: The name found is not empty.
-/

namespace PanelSketch.Text

/-- The candidate of this number is free, and those of all smaller numbers are
    in use. -/
def IsLeastFree (base : String) (taken : List String) (k : Nat) : Prop :=
  1 ≤ k ∧ numbered base k ∉ taken ∧ ∀ j, 1 ≤ j → j < k → numbered base j ∈ taken

theorem toList_numbered (base : String) (k : Nat) :
    (numbered base k).toList = base.toList ++ '_' :: Nat.toDigits 10 k := by
  simp only [numbered, String.toList_append, Nat.toList_repr, List.append_assoc]
  rfl

theorem numbered_injective (base : String) : Function.Injective (numbered base) := by
  intro j k h
  have hl : (numbered base j).toList = (numbered base k).toList := congrArg String.toList h
  -- Behind the base and the underscore, which cancel, stand the digits.
  rw [toList_numbered, toList_numbered, List.append_cancel_left_eq, List.cons.injEq] at hl
  have hr : (Nat.repr j).toList = (Nat.repr k).toList := by
    rw [Nat.toList_repr, Nat.toList_repr, hl.2]
  exact Nat.repr_injective (String.toList_injective hr)

theorem numbered_ne_base (base : String) (k : Nat) : numbered base k ≠ base := by
  intro h
  have hl : (numbered base k).toList.length = base.toList.length := by rw [h]
  rw [toList_numbered, List.length_append, List.length_cons] at hl
  omega

/-- Were the base and the first candidates all in use, they alone would be more
    names than there are in use. -/
theorem exists_leastFree {base : String} {taken : List String} (h : base ∈ taken) :
    ∃ k, k ≤ taken.length ∧ IsLeastFree base taken k := by
  have hfree : ∃ k, 1 ≤ k ∧ k ≤ taken.length ∧ numbered base k ∉ taken := by
    by_contra hc
    push Not at hc
    -- Were none of them free, they would all be listed, and the base with them.
    have hsub : base :: (List.range' 1 taken.length).map (numbered base) ⊆ taken := by
      intro name hname
      rcases List.mem_cons.mp hname with rfl | hname
      · exact h
      · rcases List.mem_map.mp hname with ⟨k, hk, rfl⟩
        rw [List.mem_range'_1] at hk
        exact hc k hk.1 (by omega)
    have hnodup : (base :: (List.range' 1 taken.length).map (numbered base)).Nodup := by
      refine List.nodup_cons.mpr ⟨?_, (List.nodup_map_iff (numbered_injective base)).mpr
        List.nodup_range'⟩
      intro hbase
      rcases List.mem_map.mp hbase with ⟨k, _, hk⟩
      exact numbered_ne_base base k hk
    -- They are all different, so there would be one name too many.
    have hlen := (List.subperm_of_subset hnodup hsub).length_le
    rw [List.length_cons, List.length_map, List.length_range'] at hlen
    omega
  -- Where some number is free, there is a least one.
  classical
  refine ⟨Nat.find hfree, (Nat.find_spec hfree).2.1, (Nat.find_spec hfree).1,
    (Nat.find_spec hfree).2.2, fun j hj hlt => ?_⟩
  have hlen := (Nat.find_spec hfree).2.1
  by_contra hmem
  exact Nat.find_min hfree hlt ⟨hj, by omega, hmem⟩

theorem freshName_eq_numbered {base : String} {taken : List String} {k : Nat} (h : base ∈ taken)
    (hk : IsLeastFree base taken k) : freshName base taken = numbered base k := by
  rcases exists_leastFree h with ⟨l, hl, hfree⟩
  have hfind : ((List.range' 1 taken.length).find? fun j => numbered base j ∉ taken) = some k := by
    rw [List.find?_range'_eq_some]
    refine ⟨by simpa only [decide_eq_true_eq] using hk.2.1, ?_, fun j hj hlt => ?_⟩
    · -- The least free number is no greater than the one found by counting.
      have hle : k ≤ l := by
        by_contra hc
        exact hfree.2.1 (hk.2.2 l hfree.1 (by omega))
      rw [List.mem_range'_1]
      exact ⟨hk.1, by omega⟩
    · simpa only [decide_not, Bool.not_not, decide_eq_true_eq] using hk.2.2 j hj hlt
  rw [freshName, if_pos h, hfind]
  rfl

theorem freshName_not_mem (base : String) (taken : List String) :
    freshName base taken ∉ taken := by
  by_cases h : base ∈ taken
  · rcases exists_leastFree h with ⟨k, _, hk⟩
    rw [freshName_eq_numbered h hk]
    exact hk.2.1
  · rw [freshName_of_not_mem h]
    exact h

/-- The name found is the base or one of its candidates. -/
theorem freshName_cases (base : String) (taken : List String) :
    freshName base taken = base ∨ ∃ k, freshName base taken = numbered base k := by
  by_cases h : base ∈ taken
  · rcases exists_leastFree h with ⟨k, _, hk⟩
    exact Or.inr ⟨k, freshName_eq_numbered h hk⟩
  · exact Or.inl (freshName_of_not_mem h)

theorem freshName_congr {base : String} {taken taken' : List String}
    (h : ∀ name, name ∈ taken ↔ name ∈ taken') : freshName base taken = freshName base taken' := by
  by_cases hb : base ∈ taken
  · rcases exists_leastFree hb with ⟨k, _, hk⟩
    -- Being the least free number is said with membership alone.
    have hk' : IsLeastFree base taken' k :=
      ⟨hk.1, fun hm => hk.2.1 ((h _).mpr hm), fun j hj hlt => (h _).mp (hk.2.2 j hj hlt)⟩
    rw [freshName_eq_numbered hb hk, freshName_eq_numbered ((h base).mp hb) hk']
  · rw [freshName_of_not_mem hb, freshName_of_not_mem fun hm => hb ((h base).mpr hm)]

theorem freshName_ne_empty {base : String} (taken : List String) (h : base ≠ "") :
    freshName base taken ≠ "" := by
  rcases freshName_cases base taken with hn | ⟨k, hn⟩
  · rw [hn]
    exact h
  · rw [hn]
    intro hc
    have hl := congrArg String.toList hc
    rw [toList_numbered] at hl
    exact List.append_ne_nil_of_right_ne_nil _ (List.cons_ne_nil _ _) hl

end PanelSketch.Text
