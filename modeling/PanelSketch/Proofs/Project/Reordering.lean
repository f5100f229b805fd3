import PanelSketch.Proofs.Project.Editing
import PanelSketch.Proofs.Project.Keyed

/-!
# Reordering a Project

Reordering takes an item out of a list and puts it back at a position. The position is counted
in the list without the item, so a move toward the end and a move toward the front are the same
operation, and the last position that can be asked for is the length of the shorter list.

What such a move comes to can be said without the way it is made. The list is permuted, the item
stands at the position asked for or at the last one, and without the item the two lists are the
same. So a second move of the item finds the same shorter list as the first, and if it puts the
item back where it was, the first list is there again.

## Main definitions

* `MovedTo`: An item has been moved to a position.

## Theorems

* `movedTo_insertIdx`: Taking an item out and putting it back moves it.
* `insertIdx_filter_insertIdx`: Putting it back where it was restores the list.
* `Project.reorderScreen_eq`, `Project.reorderElement_eq`: Reordering a project.
* `Project.reorderScreen_back`, `Project.reorderElement_back`: Reordering it back.
-/

namespace PanelSketch

section

variable {α : Type} {key : α → String} {items : List α} {a : α} {i : Nat}

/-- Between two lists, the item with a key has been moved to a position, or to the last one if
    the lists are shorter, and nothing else has. -/
structure MovedTo (key : α → String) (k : String) (target : Nat) (before after : List α) : Prop where
  perm : after.Perm before
  place : (after.map key)[min target (before.length - 1)]? = some k
  others : after.filter (key · ≠ k) = before.filter (key · ≠ k)

/-- The items that are left when one is dropped are those at all other positions. -/
theorem filter_key_eq_eraseIdx (hn : (items.map key).Nodup) (hi : items[i]? = some a) :
    items.filter (key · ≠ key a) = items.eraseIdx i := by
  rcases List.getElem?_eq_some_iff.mp hi with ⟨hlt, hget⟩
  have hsplit : items.take i ++ a :: items.drop (i + 1) = items := by
    rw [← hget, ← List.drop_eq_getElem_cons hlt, List.take_append_drop]
  rw [← hsplit] at hn
  calc
    items.filter (key · ≠ key a)
        = (items.take i ++ a :: items.drop (i + 1)).filter (key · ≠ key a) := by rw [hsplit]
    _ = items.take i ++ items.drop (i + 1) := filter_split hn
    _ = items.eraseIdx i := (List.eraseIdx_eq_take_drop_succ items i).symm

/-- What is left without an item does not depend on where the item has been put. -/
theorem filter_insertIdx_key (hn : (items.map key).Nodup) (ha : a ∈ items) (target : Nat) :
    ((items.filter (key · ≠ key a)).insertIdx
      (min target (items.filter (key · ≠ key a)).length) a).filter (key · ≠ key a)
      = items.filter (key · ≠ key a) := by
  have hperm := insertIdx_filter_perm hn ha target
  generalize items.filter (key · ≠ key a) = rest at hperm ⊢
  have hle : min target rest.length ≤ rest.length := Nat.min_le_right _ _
  have hplace : (rest.insertIdx (min target rest.length) a)[min target rest.length]? = some a := by
    rw [List.getElem?_insertIdx_self, if_pos hle]
  rw [filter_key_eq_eraseIdx ((hperm.map key).nodup_iff.mpr hn) hplace]
  exact List.eraseIdx_insertIdx_self a

/-- Taking an item out and putting it back moves it. -/
theorem movedTo_insertIdx (hn : (items.map key).Nodup) (ha : a ∈ items) (target : Nat) :
    MovedTo key (key a) target items ((items.filter (key · ≠ key a)).insertIdx
      (min target (items.filter (key · ≠ key a)).length) a) where
  perm := insertIdx_filter_perm hn ha target
  place := by
    have hlength : (items.filter (key · ≠ key a)).length = items.length - 1 := by
      rcases List.mem_iff_getElem?.mp ha with ⟨i, hi⟩
      rw [filter_key_eq_eraseIdx hn hi,
        List.length_eraseIdx_of_lt (List.getElem?_eq_some_iff.mp hi).1]
    rw [hlength, List.getElem?_map, List.getElem?_insertIdx_self, hlength,
      if_pos (Nat.min_le_right _ _)]
    rfl
  others := filter_insertIdx_key hn ha target

/-- Putting an item back where it was restores the list, wherever it has been in between. -/
theorem insertIdx_filter_insertIdx (hn : (items.map key).Nodup) (hi : items[i]? = some a)
    (target : Nat) :
    let moved := (items.filter (key · ≠ key a)).insertIdx
      (min target (items.filter (key · ≠ key a)).length) a
    (moved.filter (key · ≠ key a)).insertIdx (min i (moved.filter (key · ≠ key a)).length) a
      = items := by
  intro moved
  rcases List.getElem?_eq_some_iff.mp hi with ⟨hlt, hget⟩
  have hlast : i ≤ (items.eraseIdx i).length := by
    rw [List.length_eraseIdx_of_lt hlt]
    omega
  rw [filter_insertIdx_key hn (List.mem_of_getElem? hi) target, filter_key_eq_eraseIdx hn hi,
    Nat.min_eq_left hlast, ← hget]
  exact List.insertIdx_eraseIdx_getElem hlt

/-- A move of an item is a move of what stands for it in another list. -/
theorem MovedTo.map {β : Type} (f : α → β) (key' : β → String) (hf : ∀ a, key' (f a) = key a)
    {k : String} {target : Nat} {before after : List α} (h : MovedTo key k target before after) :
    MovedTo key' k target (before.map f) (after.map f) where
  perm := h.perm.map f
  place := by
    rw [List.length_map, List.map_map, ← h.place]
    congr 2
    exact funext hf
  others := by
    have hkey : ((fun b => decide (key' b ≠ k)) ∘ f) = fun a => decide (key a ≠ k) := by
      funext a
      simp only [Function.comp_apply, hf]
    rw [List.filter_map, List.filter_map, hkey, h.others]

end

namespace Project

variable {p : Project}

/-! ### Screens -/

/-- A project with a screen taken out of the list and put back at a position. -/
def withScreenAt (p : Project) (s : Screen) (target : Nat) : Project :=
  let rest := p.screens.filter (·.id ≠ s.id)
  { p with screens := rest.insertIdx (min target rest.length) s }

theorem reorderScreen_eq (h : p.WellFormed) {s : Screen} (hs : s ∈ p.screens) (target : Nat) :
    p.reorderScreen s.id target = some (p.withScreenAt s target) := by
  have hfound : p.screen? s.id = some s := (screen?_eq_some h.screens.nodup).mpr ⟨hs, rfl⟩
  rw [reorderScreen, hfound]
  rfl

theorem movedTo_withScreenAt (h : p.WellFormed) {s : Screen} (hs : s ∈ p.screens) (target : Nat) :
    MovedTo Screen.id s.id target p.screens (p.withScreenAt s target).screens :=
  @movedTo_insertIdx _ Screen.id _ _ h.screens.nodup hs target

/-- Putting a screen back where it was restores the project. -/
theorem reorderScreen_back (h : p.WellFormed) {s : Screen} {k : Nat} (hk : p.screens[k]? = some s)
    (target : Nat) : (p.withScreenAt s target).reorderScreen s.id k = some p := by
  have hs := List.mem_of_getElem? hk
  have hmoved := h.reorderScreen (reorderScreen_eq h hs target)
  have hmem : s ∈ (p.withScreenAt s target).screens :=
    (movedTo_withScreenAt h hs target).perm.mem_iff.mpr hs
  rw [reorderScreen_eq hmoved hmem]
  exact congrArg (fun screens => some { p with screens })
    (@insertIdx_filter_insertIdx _ Screen.id _ _ _ h.screens.nodup hk target)

/-! ### Elements -/

theorem reorderElement_eq (h : p.WellFormed) {s : Screen} (hs : s ∈ p.screens) {e : Element}
    (he : e ∈ s.elements) (target : Nat) :
    p.reorderElement s.id e.id target = some (p.updateScreen s.id (·.reinsert e target)) := by
  have hmem : e ∈ p.elements := List.mem_flatMap.mpr ⟨s, hs, he⟩
  have hfound : p.element? e.id = some e :=
    (element?_eq_some h.elements.nodup).mpr ⟨hmem, rfl⟩
  have howner : p.owner? e.id = some s :=
    (owner?_eq_some h).mpr ⟨hs, List.mem_map_of_mem he⟩
  simp only [reorderElement, hfound, howner, Option.bind_eq_bind, Option.bind_some, guard_bind,
    if_true, Option.pure_def]

theorem movedTo_reinsert (h : p.WellFormed) {s : Screen} (hs : s ∈ p.screens) {e : Element}
    (he : e ∈ s.elements) (target : Nat) :
    MovedTo Element.id e.id target s.elements (s.reinsert e target).elements :=
  @movedTo_insertIdx _ Element.id _ _ (h.elementIds_nodup_screen hs) he target

/-- Putting an element back where it was restores the project. -/
theorem reorderElement_back (h : p.WellFormed) {s : Screen} (hs : s ∈ p.screens) {e : Element}
    {k : Nat} (hk : s.elements[k]? = some e) (target : Nat) :
    (p.updateScreen s.id (·.reinsert e target)).reorderElement s.id e.id k = some p := by
  have he := List.mem_of_getElem? hk
  have hmoved := h.reorderElement (reorderElement_eq h hs he target)
  have hscreen : s.reinsert e target ∈ (p.updateScreen s.id (·.reinsert e target)).screens :=
    List.mem_map.mpr ⟨s, hs, if_pos rfl⟩
  have hmem : e ∈ (s.reinsert e target).elements :=
    (movedTo_reinsert h hs he target).perm.mem_iff.mpr he
  -- The screen keeps its id, so the second move names the same one.
  have hagain := reorderElement_eq hmoved hscreen hmem k
  have hback : (s.reinsert e target).reinsert e k = s :=
    congrArg (fun elements => { s with elements })
      (@insertIdx_filter_insertIdx _ Element.id _ _ _ (h.elementIds_nodup_screen hs) hk target)
  refine hagain.trans (congrArg some ?_)
  refine congrArg (fun screens => { p with screens }) ?_
  simp only [updateScreen, List.map_map]
  calc
    _ = p.screens.map id := List.map_congr_left fun t ht => ?_
    _ = p.screens := List.map_id _
  by_cases hid : t.id = s.id
  · simp only [Function.comp_apply, hid, if_true]
    rw [h.eq_of_screenId ht hs hid]
    exact (if_pos rfl).trans hback
  · simp only [Function.comp_apply, if_neg hid, id_eq]
    exact if_neg hid

end Project

end PanelSketch
