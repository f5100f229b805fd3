import Mathlib.Data.List.Forall2

/-!
# Lists Item by Item

Two lists of one length whose items go together, the first with the first and so on.
One is often made from the other with the help of a third list, of names or of ids,
and what matters is only that some name or id has been put to every item.

## Theorems

* `forall₂_zipWith`: Items that a third list is put to.
* `map_eq_of_forall₂`: What two lists have in common.
* `getElem?_of_forall₂`: The items at the same position.
-/

namespace PanelSketch

variable {α β γ : Type}

theorem forall₂_zipWith {R : β → γ → Prop} {f : α → β → γ} {as : List α} {bs : List β}
    (hlength : as.length = bs.length) (h : ∀ a ∈ as, ∀ b ∈ bs, R b (f a b)) :
    List.Forall₂ R bs (List.zipWith f as bs) := by
  induction bs generalizing as with
  | nil =>
      rw [List.zipWith_nil_right]
      exact .nil
  | cons b bs ih =>
      rcases as with _ | ⟨a, as⟩
      · exact absurd hlength (Nat.succ_ne_zero _).symm
      · rw [List.zipWith_cons_cons]
        refine .cons (h a List.mem_cons_self b List.mem_cons_self) ?_
        exact ih (Nat.succ.inj hlength) fun a ha b hb =>
          h a (List.mem_cons_of_mem _ ha) b (List.mem_cons_of_mem _ hb)

/-- Lists whose items are alike in some way are alike in that way. -/
theorem map_eq_of_forall₂ {R : α → β → Prop} {f : α → γ} {g : β → γ} {as : List α} {bs : List β}
    (hpaired : List.Forall₂ R as bs) (h : ∀ a ∈ as, ∀ b, R a b → g b = f a) :
    bs.map g = as.map f := by
  induction hpaired with
  | nil => rfl
  | cons hab _ ih =>
      rw [List.forall_mem_cons] at h
      rw [List.map_cons, List.map_cons, h.1 _ hab, ih h.2]

/-- At every position stand two items that go together, or nothing in either list. -/
theorem getElem?_of_forall₂ {R : α → β → Prop} {as : List α} {bs : List β}
    (hpaired : List.Forall₂ R as bs) (i : Nat) :
    (as[i]? = none ∧ bs[i]? = none) ∨ ∃ a b, as[i]? = some a ∧ bs[i]? = some b ∧ R a b := by
  induction hpaired generalizing i with
  | nil => exact Or.inl ⟨List.getElem?_nil, List.getElem?_nil⟩
  | cons hab _ ih =>
      cases i with
      | zero => exact Or.inr ⟨_, _, List.getElem?_cons_zero, List.getElem?_cons_zero, hab⟩
      | succ i => exact ih i

end PanelSketch
