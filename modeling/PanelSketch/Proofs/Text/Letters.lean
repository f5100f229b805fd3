import PanelSketch.Proofs.Text.Identifier

/-!
# The Letters of an Identifier

What an identifier keeps of a label are its letters and digits. Joining runs puts
underscores in the place of what is neither, and dropping underscores at the end
takes nothing else away. So as soon as there is one letter or digit, the fallback
is not needed, and the letters and digits come through in their order.

The one that may be added is the `a` that guards a digit. Whether it is needed is
seen on the first character that is left after runs have been joined: a run in
front of a digit has become an underscore by then, and there is nothing to guard.

## Main definitions

* `lettersOf`: The letters and digits among characters.

## Theorems

* `lettersOf_joinRuns`, `lettersOf_dropTrailingUnderscores`: No letter is lost.
* `lettersOf_guardDigit`: At most one is added.
* `lettersOf_identifierChars`: The letters of an identifier.
* `identifier_clean`: Its shape and its letters, for every label.
-/

namespace PanelSketch.Text

/-- The ASCII letters and digits among characters. -/
def lettersOf (cs : List Char) : List Char :=
  cs.filter Char.isAlphanum

theorem lettersOf_cons_of_letter {c : Char} (cs : List Char) (h : c.isAlphanum = true) :
    lettersOf (c :: cs) = c :: lettersOf cs :=
  List.filter_cons_of_pos h

theorem lettersOf_cons_of_not_letter {c : Char} (cs : List Char) (h : c.isAlphanum = false) :
    lettersOf (c :: cs) = lettersOf cs :=
  List.filter_cons_of_neg (by rw [h]; exact Bool.false_ne_true)

theorem not_isAlphanum_underscore : '_'.isAlphanum = false := by
  decide

/-- Joining runs puts nothing but underscores in the place of what is no letter. -/
theorem lettersOf_joinRuns (inRun : Bool) (cs : List Char) :
    lettersOf (joinRuns inRun cs) = lettersOf cs := by
  induction cs generalizing inRun with
  | nil => rfl
  | cons c cs ih =>
      by_cases hword : isWordChar c = true
      · rw [joinRuns, if_pos hword]
        by_cases hletter : c.isAlphanum = true
        · rw [lettersOf_cons_of_letter _ hletter, lettersOf_cons_of_letter _ hletter, ih]
        · rw [Bool.not_eq_true] at hletter
          rw [lettersOf_cons_of_not_letter _ hletter, lettersOf_cons_of_not_letter _ hletter, ih]
      · -- What may not stand in a name is no letter, and neither is what it becomes.
        have hletter : c.isAlphanum = false := by
          rw [isWordChar, Bool.or_eq_true, not_or, Bool.not_eq_true] at hword
          exact hword.1
        rw [joinRuns, if_neg hword, lettersOf_cons_of_not_letter _ hletter]
        split
        · exact ih true
        · rw [lettersOf_cons_of_not_letter _ not_isAlphanum_underscore]
          exact ih true

/-- What is dropped at the end are underscores. -/
theorem dropTrailingUnderscores_append (cs : List Char) :
    ∃ dropped, dropTrailingUnderscores cs ++ dropped = cs ∧ ∀ c ∈ dropped, c = '_' := by
  refine ⟨(cs.reverse.takeWhile (· == '_')).reverse, ?_, fun c hc => ?_⟩
  · rw [dropTrailingUnderscores, ← List.reverse_append, List.takeWhile_append_dropWhile,
      List.reverse_reverse]
  · exact eq_of_beq (List.all_eq_true.mp List.all_takeWhile c (List.mem_reverse.mp hc))

theorem lettersOf_dropTrailingUnderscores (cs : List Char) :
    lettersOf (dropTrailingUnderscores cs) = lettersOf cs := by
  rcases dropTrailingUnderscores_append cs with ⟨dropped, hsplit, hdropped⟩
  have hnone : lettersOf dropped = [] := by
    refine List.filter_eq_nil_iff.mpr fun c hc => ?_
    rw [hdropped c hc, not_isAlphanum_underscore]
    exact Bool.false_ne_true
  calc lettersOf (dropTrailingUnderscores cs)
      = lettersOf (dropTrailingUnderscores cs ++ dropped) := by
        rw [lettersOf, lettersOf, List.filter_append, ← lettersOf, ← lettersOf, hnone,
          List.append_nil]
    _ = lettersOf cs := by rw [hsplit]

/-- Where something is left, its front is what it was. -/
theorem head?_dropTrailingUnderscores {cs : List Char} (h : dropTrailingUnderscores cs ≠ []) :
    (dropTrailingUnderscores cs).head? = cs.head? := by
  rcases dropTrailingUnderscores_append cs with ⟨dropped, hsplit, _⟩
  rw [← List.head?_append_of_ne_nil _ h, hsplit]

/-- The letter in front of a digit is the only one that is added. -/
theorem lettersOf_guardDigit (cs : List Char) :
    lettersOf (guardDigit cs)
      = (if cs.head?.any Char.isDigit then ['a'] else []) ++ lettersOf cs := by
  cases cs with
  | nil => rfl
  | cons c cs =>
      rw [guardDigit, List.head?_cons, Option.any_some]
      split
      · exact lettersOf_cons_of_letter _ (by decide)
      · rfl

/-- The letters of an identifier are those of its label, behind the letter that guards a digit,
    if the label has any. -/
theorem lettersOf_identifierChars {label : List Char} (fallback : List Char)
    (h : ∃ c ∈ label, c.isAlphanum = true) :
    lettersOf (identifierChars label fallback)
      = (if (joinRuns false label).head?.any Char.isDigit then ['a'] else [])
        ++ lettersOf label := by
  have hletters : lettersOf (dropTrailingUnderscores (joinRuns false label)) = lettersOf label := by
    rw [lettersOf_dropTrailingUnderscores, lettersOf_joinRuns]
  -- One letter is left at least, so the fallback does not stand in.
  have hkept : dropTrailingUnderscores (joinRuns false label) ≠ [] := by
    intro hnil
    rcases h with ⟨c, hc, hletter⟩
    rw [hnil] at hletters
    exact List.ne_nil_of_mem (List.mem_filter.mpr ⟨hc, hletter⟩) hletters.symm
  rw [identifierChars]
  simp only [List.isEmpty_eq_false_iff.mpr hkept, Bool.false_eq_true, if_false]
  rw [lettersOf_guardDigit, head?_dropTrailingUnderscores hkept, hletters]

/-- Every label leads to an identifier that is its own, and keeps its letters and digits. The
    fallback may start with a digit, which is guarded like any other. -/
theorem identifier_clean (label fallback : String) (hne : fallback ≠ "")
    (hword : ∀ c ∈ fallback.toList, isWordChar c = true)
    (hlast : ∀ cs, fallback.toList ≠ cs ++ ['_']) :
    IsIdentifier (identifier label fallback)
      ∧ (∀ other, identifier (identifier label fallback) other = identifier label fallback)
      ∧ (IsIdentifier label → identifier label fallback = label)
      ∧ ((∃ c ∈ label.toList, c.isAlphanum = true) →
        lettersOf (identifier label fallback).toList
          = (if (joinRuns false label.toList).head?.any Char.isDigit then ['a'] else [])
            ++ lettersOf label.toList) := by
  have hchars : fallback.toList ≠ [] := fun hnil => hne (String.toList_eq_nil_iff.mp hnil)
  have hshape := isIdentifier_identifier_of label hchars hword hlast
  refine ⟨hshape, fun other => identifier_eq_self hshape other,
    fun h => identifier_eq_self h fallback, fun h => ?_⟩
  rw [identifier, String.toList_ofList]
  exact lettersOf_identifierChars fallback.toList h

/-- A digit in front is guarded, and a fallback that starts with one is not used. -/
theorem identifier_clean_digits :
    IsIdentifier (identifier "3d  icon!" "9_x")
      ∧ (∀ other, identifier (identifier "3d  icon!" "9_x") other = identifier "3d  icon!" "9_x")
      ∧ lettersOf (identifier "3d  icon!" "9_x").toList = "a3dicon".toList := by
  have hlast : ∀ cs, "9_x".toList ≠ cs ++ ['_'] := by
    intro cs hcs
    have hend := congrArg List.getLast? hcs
    rw [List.getLast?_concat] at hend
    exact absurd hend (by decide +kernel)
  have hword : ∀ c ∈ "9_x".toList, isWordChar c = true := List.all_eq_true.mp (by decide +kernel)
  have hclean := identifier_clean "3d  icon!" "9_x" (by decide) hword hlast
  refine ⟨hclean.1, hclean.2.1, ?_⟩
  rw [hclean.2.2.2 ⟨'3', by decide +kernel, by decide⟩]
  decide +kernel

end PanelSketch.Text
