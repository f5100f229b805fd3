import Mathlib.Data.List.Induction
import Mathlib.Data.List.Nodup
import Mathlib.Data.List.Perm.Basic
import Std.Data.ExtTreeMap

/-!
# Maps Described by Lists

The store and the placement of a workspace are maps that repeat what lists of
ids say. This module says how a list of pairs describes a map, and what has to
be done to the list when the map is changed in one place: a new key goes to the
end of the list, and a key that is erased is filtered out.

Maps are equal when they answer alike, so a list of pairs with different keys may
be put into any order.

## Main definitions

* `table`: The map that a list of pairs describes; later pairs win.

## Theorems

* `mem_table`: The keys of a map are those of its list.
* `getElem?_table`: With different keys, the map answers what the list pairs.
* `table_perm`: With different keys, the order of the list does not matter.
* `insert_table`, `erase_table`, `eraseAll_table`, `map_table`: Changes of the
  map as changes of the list.
-/

namespace PanelSketch

variable {α : Type}

theorem getElem?_insert_eq (m : Std.ExtTreeMap String α) (k a : String) (v : α) :
    (m.insert k v)[a]? = if k = a then some v else m[a]? := by
  rw [Std.ExtTreeMap.getElem?_insert]
  simp only [Std.LawfulEqCmp.compare_eq_iff_eq]

theorem getElem?_erase_eq (m : Std.ExtTreeMap String α) (k a : String) :
    (m.erase k)[a]? = if k = a then none else m[a]? := by
  rw [Std.ExtTreeMap.getElem?_erase]
  simp only [Std.LawfulEqCmp.compare_eq_iff_eq]

/-- The map that a list of pairs describes; of two pairs with one key the later
    counts. -/
def table (pairs : List (String × α)) : Std.ExtTreeMap String α :=
  pairs.foldl (fun m pair => m.insert pair.1 pair.2) ∅

theorem table_concat (pairs : List (String × α)) (pair : String × α) :
    table (pairs ++ [pair]) = (table pairs).insert pair.1 pair.2 := by
  rw [table, List.foldl_append]
  rfl

theorem getElem?_table_concat (pairs : List (String × α)) (pair : String × α) (k : String) :
    (table (pairs ++ [pair]))[k]? = if pair.1 = k then some pair.2 else (table pairs)[k]? := by
  rw [table_concat, getElem?_insert_eq]

theorem getElem?_table_of_not_mem {pairs : List (String × α)} {k : String}
    (h : k ∉ pairs.map (·.1)) : (table pairs)[k]? = none := by
  induction pairs using List.reverseRecOn with
  | nil => exact Std.ExtTreeMap.getElem?_empty
  | append_singleton pairs pair ih =>
      rw [List.map_append, List.mem_append, not_or] at h
      have hne : pair.1 ≠ k := fun hk => h.2 (by rw [← hk]; exact List.mem_cons_self)
      rw [getElem?_table_concat, if_neg hne, ih h.1]

/-- Whatever the keys, an answer of a map is one that its list pairs. -/
theorem mem_of_getElem?_table {pairs : List (String × α)} {k : String} {v : α}
    (h : (table pairs)[k]? = some v) : (k, v) ∈ pairs := by
  induction pairs using List.reverseRecOn with
  | nil =>
      have hnone : (table ([] : List (String × α)))[k]? = none := Std.ExtTreeMap.getElem?_empty
      exact absurd (hnone.symm.trans h) (Option.some_ne_none v).symm
  | append_singleton pairs pair ih =>
      rw [getElem?_table_concat] at h
      split at h
      · rename_i hk
        rw [Option.some.injEq] at h
        rw [← hk, ← h]
        exact List.mem_append_right _ List.mem_cons_self
      · exact List.mem_append_left _ (ih h)

theorem getElem?_of_eraseAll {m : Std.ExtTreeMap String α} {ks : List String} {k : String} {v : α}
    (h : (ks.foldl (·.erase ·) m)[k]? = some v) : m[k]? = some v := by
  induction ks generalizing m with
  | nil => exact h
  | cons first ks ih =>
      have herase := ih h
      rw [getElem?_erase_eq] at herase
      split at herase
      · exact absurd herase (Option.some_ne_none v).symm
      · exact herase

/-- With different keys, a map answers exactly what its list pairs. -/
theorem getElem?_table {pairs : List (String × α)} (h : (pairs.map (·.1)).Nodup) {k : String}
    {v : α} : (table pairs)[k]? = some v ↔ (k, v) ∈ pairs := by
  induction pairs using List.reverseRecOn with
  | nil =>
      rw [show (table ([] : List (String × α)))[k]? = none from Std.ExtTreeMap.getElem?_empty]
      simp only [reduceCtorEq, List.not_mem_nil]
  | append_singleton pairs pair ih =>
      rw [List.map_append, List.nodup_append] at h
      rw [getElem?_table_concat, List.mem_append, List.mem_singleton]
      by_cases hk : pair.1 = k
      · -- The key is new, so the pairs before it have nothing to say.
        have hnew : (k, v) ∉ pairs := fun hm =>
          h.2.2 k (List.mem_map.mpr ⟨(k, v), hm, rfl⟩) pair.1 (by simp) hk.symm
        rw [if_pos hk, Option.some.injEq]
        constructor
        · intro hv
          exact Or.inr (by rw [← hk, ← hv])
        · intro hm
          rcases hm with hm | hm
          · exact absurd hm hnew
          · rw [← hm]
      · rw [if_neg hk, ih h.1]
        constructor
        · exact Or.inl
        · intro hm
          rcases hm with hm | hm
          · exact hm
          · exact absurd (by rw [← hm]) hk

theorem mem_table {pairs : List (String × α)} {k : String} :
    k ∈ table pairs ↔ k ∈ pairs.map (·.1) := by
  induction pairs using List.reverseRecOn with
  | nil =>
      exact ⟨fun h => absurd h Std.ExtTreeMap.not_mem_empty, fun h => absurd h List.not_mem_nil⟩
  | append_singleton pairs pair ih =>
      rw [table_concat, Std.ExtTreeMap.mem_insert, ih, List.map_append, List.mem_append,
        Std.LawfulEqCmp.compare_eq_iff_eq, List.map_singleton, List.mem_singleton]
      exact ⟨fun h => h.symm.imp_right Eq.symm, fun h => h.symm.imp_left Eq.symm⟩

theorem table_perm {pairs pairs' : List (String × α)} (h : pairs.Perm pairs')
    (hn : (pairs.map (·.1)).Nodup) : table pairs = table pairs' := by
  refine Std.ExtTreeMap.ext_getElem? fun k => Option.ext fun v => ?_
  -- Both maps answer with the pairs, and both lists have the same ones.
  rw [getElem?_table hn, getElem?_table ((h.map _).nodup_iff.mp hn), h.mem_iff]

theorem erase_table (pairs : List (String × α)) (k : String) :
    (table pairs).erase k = table (pairs.filter (·.1 ≠ k)) := by
  refine Std.ExtTreeMap.ext_getElem? fun a => ?_
  induction pairs using List.reverseRecOn with
  | nil => rw [show table ([] : List (String × α)) = ∅ from rfl, Std.ExtTreeMap.erase_empty]; rfl
  | append_singleton pairs pair ih =>
      rw [getElem?_erase_eq] at ih ⊢
      rw [List.filter_append, getElem?_table_concat]
      by_cases hk : pair.1 = k
      · -- The last pair is erased, and so it is not asked.
        have hf : [pair].filter (·.1 ≠ k) = [] := by simp [hk]
        rw [hf, List.append_nil, ← ih, hk]
        split
        · rfl
        · rfl
      · have hf : [pair].filter (·.1 ≠ k) = [pair] := by simp [hk]
        rw [hf, getElem?_table_concat, ← ih]
        by_cases ha : k = a
        · rw [if_pos ha, if_pos ha, if_neg (by rw [← ha]; exact hk)]
        · rw [if_neg ha, if_neg ha]

theorem eraseAll_table (pairs : List (String × α)) (ks : List String) :
    ks.foldl (·.erase ·) (table pairs) = table (pairs.filter (·.1 ∉ ks)) := by
  induction ks generalizing pairs with
  | nil => simp
  | cons k ks ih =>
      rw [List.foldl_cons, erase_table, ih, List.filter_filter]
      congr 1
      refine List.filter_congr fun pair _ => ?_
      simp only [List.mem_cons, not_or, ne_eq, decide_not, Bool.decide_and, Bool.and_comm]

theorem insert_table (pairs : List (String × α)) (k : String) (v : α) :
    (table pairs).insert k v = table (pairs.filter (·.1 ≠ k) ++ [(k, v)]) := by
  refine Std.ExtTreeMap.ext_getElem? fun a => ?_
  -- Erasing first makes no difference to what is inserted.
  rw [table_concat, ← erase_table, getElem?_insert_eq, getElem?_insert_eq, getElem?_erase_eq]
  split
  · rfl
  · rfl

/-- A pair that takes the place of all with its key keeps keys different. -/
theorem keys_filter_concat_nodup {pairs : List (String × α)} (h : (pairs.map (·.1)).Nodup)
    (k : String) (v : α) : ((pairs.filter (·.1 ≠ k) ++ [(k, v)]).map (·.1)).Nodup := by
  rw [List.map_append, List.map_singleton, ← List.concat_eq_append, List.nodup_concat]
  refine ⟨fun hk => ?_, h.sublist (List.filter_sublist.map _)⟩
  rcases List.mem_map.mp hk with ⟨pair, hpair, heq⟩
  exact absurd heq (of_decide_eq_true (List.mem_filter.mp hpair).2)

theorem map_table (pairs : List (String × α)) (f : α → α) :
    (table pairs).map (fun _ v => f v) = table (pairs.map fun pair => (pair.1, f pair.2)) := by
  refine Std.ExtTreeMap.ext_getElem? fun a => ?_
  rw [Std.ExtTreeMap.getElem?_map]
  induction pairs using List.reverseRecOn with
  | nil => rfl
  | append_singleton pairs pair ih =>
      rw [List.map_append, List.map_singleton, getElem?_table_concat, getElem?_table_concat, ← ih]
      split
      · rfl
      · rfl

end PanelSketch
