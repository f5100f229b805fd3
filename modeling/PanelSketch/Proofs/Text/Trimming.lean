import Mathlib.Data.List.Basic
import Mathlib.Data.List.TakeWhile
import PanelSketch.Text.Blank

/-!
# What Trimming Leaves

Trimming takes off the blanks at the two ends and nothing else. What is left may have blanks inside
but none at an end, and these two things together say what it is.

## Main definitions

* `TrimsTo`: A text, and what is left of it.

## Theorems

* `trimsTo_iff`: Trimming leaves that.
* `trimChars_append`: Trimming takes off the blanks around a text that has none.
-/

namespace PanelSketch.Text

/-- What is dropped from the front ends where the test fails. -/
theorem dropWhile_append_of_stop {α : Type} {test : α → Bool} {front rest : List α}
    (hfront : ∀ a ∈ front, test a = true) (hrest : ∀ a ∈ rest.head?, test a = false) :
    (front ++ rest).dropWhile test = rest := by
  rw [List.dropWhile_append_of_pos hfront]
  cases rest with
  | nil => rfl
  | cons a rest => simp [hrest a rfl]

/-- What is left in front starts where the test fails. -/
theorem not_of_mem_head?_dropWhile {α : Type} {test : α → Bool} {items : List α} {a : α}
    (h : a ∈ (items.dropWhile test).head?) : test a = false := by
  have hstop := List.head?_dropWhile_not test items
  rwa [Option.mem_def.mp h] at hstop

/-- A text, and what is left of it without the blanks at its ends. -/
structure TrimsTo (cs middle : List Char) : Prop where
  around : ∃ before after : List Char, (∀ c ∈ before, isBlank c = true)
    ∧ (∀ c ∈ after, isBlank c = true) ∧ cs = before ++ (middle ++ after)
  head : ∀ c ∈ middle.head?, isBlank c = false
  last : ∀ c ∈ middle.getLast?, isBlank c = false

theorem TrimsTo.trimChars_eq {cs middle : List Char} (h : TrimsTo cs middle) :
    trimChars cs = middle := by
  rcases h.around with ⟨before, after, hbefore, hafter, rfl⟩
  have hafter' : ∀ c ∈ after.reverse, isBlank c = true := fun c hc =>
    hafter c (List.mem_reverse.mp hc)
  by_cases hne : middle = []
  · -- Everything is blank, so the first pass takes it all.
    have hdrop : (before ++ ([] ++ after)).dropWhile isBlank = [] :=
      List.dropWhile_eq_nil_iff.mpr (List.forall_mem_append.mpr ⟨hbefore, hafter⟩)
    rw [hne, trimChars, hdrop]
    rfl
  · have hhead : ∀ c ∈ (middle ++ after).head?, isBlank c = false := by
      rw [List.head?_append_of_ne_nil _ hne]
      exact h.head
    have hlast : ∀ c ∈ middle.reverse.head?, isBlank c = false := by
      rw [List.head?_reverse]
      exact h.last
    rw [trimChars, dropWhile_append_of_stop hbefore hhead, List.reverse_append,
      dropWhile_append_of_stop hafter' hlast, List.reverse_reverse]

theorem trimsTo_trimChars (cs : List Char) : TrimsTo cs (trimChars cs) := by
  let rest := cs.dropWhile isBlank
  have hrest : trimChars cs ++ (rest.reverse.takeWhile isBlank).reverse = rest := by
    rw [trimChars, ← List.reverse_append, List.takeWhile_append_dropWhile, List.reverse_reverse]
  refine ⟨⟨cs.takeWhile isBlank, (rest.reverse.takeWhile isBlank).reverse,
    fun c hc => List.mem_takeWhile_imp hc,
    fun c hc => List.mem_takeWhile_imp (List.mem_reverse.mp hc), ?_⟩, fun c hc => ?_,
    fun c hc => ?_⟩
  · rw [hrest, List.takeWhile_append_dropWhile]
  · -- What the second pass leaves starts like what the first one has left.
    have hne : trimChars cs ≠ [] := List.ne_nil_of_mem (List.mem_of_mem_head? hc)
    rw [← List.head?_append_of_ne_nil _ hne, hrest] at hc
    exact not_of_mem_head?_dropWhile hc
  · rw [trimChars, List.getLast?_reverse] at hc
    exact not_of_mem_head?_dropWhile hc

/-- Trimming leaves what is left without the blanks at the ends. -/
theorem trimsTo_iff {cs middle : List Char} : TrimsTo cs middle ↔ trimChars cs = middle := by
  refine ⟨TrimsTo.trimChars_eq, ?_⟩
  rintro rfl
  exact trimsTo_trimChars cs

/-- Trimming takes off the blanks around a text that has none. -/
theorem trimChars_append {before name after : List Char}
    (hbefore : ∀ c ∈ before, isBlank c = true) (hafter : ∀ c ∈ after, isBlank c = true)
    (hname : ∀ c ∈ name, isBlank c = false) : trimChars (before ++ (name ++ after)) = name :=
  trimsTo_iff.mp ⟨⟨before, after, hbefore, hafter, rfl⟩,
    fun c hc => hname c (List.mem_of_mem_head? hc), fun c hc => hname c (List.mem_of_getLast? hc)⟩

end PanelSketch.Text
