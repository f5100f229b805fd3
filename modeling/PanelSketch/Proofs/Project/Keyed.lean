import Mathlib.Data.List.InsertIdx
import Mathlib.Data.List.Nodup
import Mathlib.Data.List.Perm.Basic

/-!
# Lists with Different Keys

What a list of items with different keys looks like to operations that go through
all of it and mean one item. A search for a key finds the item that carries it.
Changing or dropping what carries the key happens in one place, which splits the
list into what stands in front of the item and what stands behind it. So an item
may be taken out and put back anywhere, which only changes the order.

## Theorems

* `find?_key_eq_some`, `findIdx?_key_eq_some`: What a search finds, and where.
* `map_update_split`, `filter_split`: Changes in one place.
* `insertIdx_filter_perm`, `filter_concat_perm`, `map_update_perm`: The same up to
  the order.
-/

namespace PanelSketch

variable {α : Type} {key : α → String} {front back : List α} {a : α}

/-- With different keys, a search for a key finds exactly the item that carries
    it. -/
theorem find?_key_eq_some {items : List α} (hn : (items.map key).Nodup) {k : String} :
    items.find? (key · = k) = some a ↔ a ∈ items ∧ key a = k := by
  constructor
  · intro ha
    have hk : key a = k := by simpa only [decide_eq_true_eq] using List.find?_some ha
    exact ⟨List.mem_of_find?_eq_some ha, hk⟩
  · rintro ⟨ha, hk⟩
    rcases hf : items.find? (key · = k) with _ | b
    · exact absurd hk (by simpa only [decide_eq_true_eq] using List.find?_eq_none.mp hf a ha)
    · have hb : key b = k := by simpa only [decide_eq_true_eq] using List.find?_some hf
      rw [List.inj_on_of_nodup_map hn (List.mem_of_find?_eq_some hf) ha (hb.trans hk.symm)]

/-- With different keys, the place of an item is where a search for its key stops. -/
theorem findIdx?_key_eq_some {items : List α} (hn : (items.map key).Nodup) {i : Nat}
    (hi : items[i]? = some a) : items.findIdx? (key · == key a) = some i := by
  rcases List.getElem?_eq_some_iff.mp hi with ⟨hlt, ha⟩
  refine List.findIdx?_eq_some_iff_getElem.mpr ⟨hlt, beq_iff_eq.mpr (congrArg key ha), ?_⟩
  intro j hj hfound
  -- The item in front would have the same key.
  have hlt' : j < (items.map key).length := by
    rw [List.length_map]
    exact Nat.lt_trans hj hlt
  have hkeys : (items.map key)[j]? = (items.map key)[i]? := by
    rw [List.getElem?_map, List.getElem?_map, hi, List.getElem?_eq_getElem (Nat.lt_trans hj hlt),
      Option.map_some, Option.map_some, beq_iff_eq.mp hfound]
  exact Nat.ne_of_lt hj ((List.getElem?_inj hlt' hn).mp hkeys)

/-- With different keys, changing what carries the key of an item changes that one
    place of the list. -/
theorem map_update_split (hn : ((front ++ a :: back).map key).Nodup) (change : α → α) :
    (front ++ a :: back).map (fun b => if key b = key a then change b else b)
      = front ++ change a :: back := by
  rw [List.map_append, List.map_cons, List.nodup_append, List.nodup_cons] at hn
  have hfront : front.map (fun b => if key b = key a then change b else b) = front.map id :=
    List.map_congr_left fun b hb =>
      if_neg fun hk => hn.2.2 (key b) (List.mem_map_of_mem hb) (key a) List.mem_cons_self hk
  have hback : back.map (fun b => if key b = key a then change b else b) = back.map id :=
    List.map_congr_left fun b hb => if_neg fun (hk : key b = key a) =>
      hn.2.1.1 (hk ▸ List.mem_map_of_mem hb)
  rw [List.map_append, List.map_cons, hfront, hback, if_pos rfl, List.map_id, List.map_id]

/-- With different keys, dropping what carries the key of an item drops that one
    place of the list. -/
theorem filter_split (hn : ((front ++ a :: back).map key).Nodup) :
    (front ++ a :: back).filter (key · ≠ key a) = front ++ back := by
  rw [List.map_append, List.map_cons, List.nodup_append, List.nodup_cons] at hn
  have hfront : front.filter (key · ≠ key a) = front :=
    List.filter_eq_self.mpr fun b hb => decide_eq_true fun hk =>
      hn.2.2 (key b) (List.mem_map_of_mem hb) (key a) List.mem_cons_self hk
  have hback : back.filter (key · ≠ key a) = back :=
    List.filter_eq_self.mpr fun b hb => decide_eq_true fun (hk : key b = key a) =>
      hn.2.1.1 (hk ▸ List.mem_map_of_mem hb)
  rw [List.filter_append, List.filter_cons, hfront, hback, if_neg (by simp)]

/-- Taking an item out of a list with different keys and putting it back anywhere
    permutes the list. -/
theorem insertIdx_filter_perm {items : List α} (hn : (items.map key).Nodup) (ha : a ∈ items)
    (target : Nat) :
    ((items.filter (key · ≠ key a)).insertIdx
      (min target (items.filter (key · ≠ key a)).length) a).Perm items := by
  rcases List.append_of_mem ha with ⟨front, back, rfl⟩
  rw [filter_split hn]
  exact (List.perm_insertIdx a _ (Nat.min_le_right _ _)).trans List.perm_middle.symm

/-- Taking an item out and putting it at the end permutes the list as well. -/
theorem filter_concat_perm {items : List α} (hn : (items.map key).Nodup) (ha : a ∈ items) :
    (items.filter (key · ≠ key a) ++ [a]).Perm items := by
  rcases List.append_of_mem ha with ⟨front, back, rfl⟩
  rw [filter_split hn, List.append_assoc]
  exact List.Perm.append_left _ (List.perm_append_singleton a back)

/-- Changing one item is dropping it and putting what it has become at the end, up
    to the order. -/
theorem map_update_perm {items : List α} (hn : (items.map key).Nodup) (ha : a ∈ items)
    (change : α → α) : (items.map fun b => if key b = key a then change b else b).Perm
      (items.filter (key · ≠ key a) ++ [change a]) := by
  rcases List.append_of_mem ha with ⟨front, back, rfl⟩
  rw [map_update_split hn, filter_split hn]
  exact List.perm_middle.trans (List.perm_append_singleton _ _).symm

end PanelSketch
