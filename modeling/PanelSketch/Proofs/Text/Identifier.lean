import Mathlib.Data.List.Basic
import PanelSketch.Proofs.Text.FreshName

/-!
# The Shape of Identifiers

What `identifier` makes of a label, said without the steps that make it: a
non-empty run of name characters that neither starts with a digit nor ends in an
underscore. Labels of that shape are left alone, and every label is brought into
it, so making an identifier twice is the same as making it once.

The shape survives numbering, since a number behind an underscore ends in a
digit and leaves the front as it was. So a name that is kept apart from others by
a number is still an identifier, and loading it again does not change it.

## Main definitions

* `IsIdentifier`: The shape.

## Theorems

* `identifier_eq_self`: A label of that shape is its own identifier.
* `isIdentifier_identifier`: Every label is brought into the shape.
* `isIdentifier_iff`: The shape can be decided.
* `isIdentifier_freshName`: Keeping names apart keeps the shape.
-/

namespace PanelSketch.Text

/-- A non-empty run of name characters that starts with no digit and ends in no
    underscore. -/
structure IsIdentifier (name : String) : Prop where
  ne_nil : name.toList ≠ []
  wordChars : ∀ c ∈ name.toList, isWordChar c = true
  head : ∀ c cs, name.toList = c :: cs → c.isDigit = false
  last : ∀ cs, name.toList ≠ cs ++ ['_']

theorem IsIdentifier.ne_empty {name : String} (h : IsIdentifier name) : name ≠ "" := by
  rintro rfl
  exact h.ne_nil rfl

theorem isIdentifier_iff {name : String} : IsIdentifier name ↔ name.toList ≠ []
    ∧ name.toList.all isWordChar = true ∧ name.toList.head?.any Char.isDigit = false
    ∧ name.toList.getLast? ≠ some '_' := by
  constructor
  · intro h
    refine ⟨h.ne_nil, List.all_eq_true.mpr h.wordChars, ?_, fun hlast => ?_⟩
    · rcases hname : name.toList with _ | ⟨c, cs⟩
      · rfl
      · exact h.head c cs hname
    · rcases List.getLast?_eq_some_iff.mp hlast with ⟨cs, hcs⟩
      exact h.last cs hcs
  · rintro ⟨hne, hword, hhead, hlast⟩
    refine ⟨hne, List.all_eq_true.mp hword, fun c cs hcs => ?_, fun cs hcs => hlast ?_⟩
    · rwa [hcs] at hhead
    · rw [hcs, List.getLast?_concat]

instance (name : String) : Decidable (IsIdentifier name) :=
  decidable_of_iff _ isIdentifier_iff.symm

theorem joinRuns_eq_self {cs : List Char} (inRun : Bool) (h : ∀ c ∈ cs, isWordChar c = true) :
    joinRuns inRun cs = cs := by
  induction cs generalizing inRun with
  | nil => rfl
  | cons c cs ih =>
      rw [joinRuns, if_pos (h c List.mem_cons_self),
        ih false fun d hd => h d (List.mem_cons_of_mem c hd)]

theorem dropTrailingUnderscores_eq_self {cs : List Char} (h : ∀ ds, cs ≠ ds ++ ['_']) :
    dropTrailingUnderscores cs = cs := by
  rcases List.eq_nil_or_concat' cs with rfl | ⟨ds, c, rfl⟩
  · rfl
  · have hc : (c == '_') = false := by
      rw [beq_eq_false_iff_ne]
      rintro rfl
      exact h ds rfl
    simp only [dropTrailingUnderscores, List.reverse_append,
      List.reverse_cons, List.reverse_nil, List.nil_append, List.cons_append, List.dropWhile_cons,
      hc, Bool.false_eq_true, if_false, List.reverse_reverse]

theorem dropTrailingUnderscores_ne_append (cs ds : List Char) :
    dropTrailingUnderscores cs ≠ ds ++ ['_'] := by
  intro h
  -- Read backwards, what is left would start with something that is dropped.
  have hr : cs.reverse.dropWhile (· == '_') = '_' :: ds.reverse := by
    rw [← List.reverse_inj, ← dropTrailingUnderscores, h]
    simp only [List.reverse_cons, List.reverse_reverse]
  have hhead := List.head_dropWhile_not (p := (· == '_')) (l := cs.reverse)
    (by rw [hr]; exact List.cons_ne_nil _ _)
  simp only [hr, List.head_cons, beq_self_eq_true, Bool.true_eq_false] at hhead

theorem mem_of_mem_dropTrailingUnderscores {c : Char} {cs : List Char}
    (h : c ∈ dropTrailingUnderscores cs) : c ∈ cs := by
  rw [dropTrailingUnderscores, List.mem_reverse] at h
  exact List.mem_reverse.mp ((List.dropWhile_suffix _).mem h)

theorem guardDigit_eq_self {cs : List Char} (h : ∀ c ds, cs = c :: ds → c.isDigit = false) :
    guardDigit cs = cs := by
  cases cs with
  | nil => rfl
  | cons c cs => rw [guardDigit, h c cs rfl, if_neg Bool.false_ne_true]

/-- Guarding a digit puts a letter in front at most, so it keeps every property
    of the characters and of the end. -/
theorem guardDigit_cases (cs : List Char) :
    guardDigit cs = cs ∧ (∀ c ds, cs = c :: ds → c.isDigit = false)
      ∨ guardDigit cs = 'a' :: cs ∧ cs ≠ [] := by
  cases cs with
  | nil => exact Or.inl ⟨rfl, fun c ds h => absurd h.symm (List.cons_ne_nil c ds)⟩
  | cons c cs =>
      by_cases hc : c.isDigit = true
      · -- A letter is put in front of the digit.
        exact Or.inr ⟨by rw [guardDigit, if_pos hc], List.cons_ne_nil c cs⟩
      · refine Or.inl ⟨by rw [guardDigit, if_neg hc], fun d ds h => ?_⟩
        rw [List.cons.injEq] at h
        rw [← h.1]
        simpa only [Bool.not_eq_true] using hc

theorem identifier_eq_self {label : String} (h : IsIdentifier label) (fallback : String) :
    identifier label fallback = label := by
  have hkept : dropTrailingUnderscores (joinRuns false label.toList) = label.toList := by
    rw [joinRuns_eq_self false h.wordChars, dropTrailingUnderscores_eq_self h.last]
  have hne : label.toList.isEmpty = false := List.isEmpty_eq_false_iff.mpr h.ne_nil
  rw [identifier, identifierChars, hkept]
  simp only [hne, Bool.false_eq_true, if_false]
  rw [guardDigit_eq_self h.head, String.ofList_toList]

/-- A guarded run of name characters has the shape unless it was empty or ended
    in an underscore. -/
theorem isIdentifier_guardDigit {cs : List Char} (hne : cs ≠ [])
    (hword : ∀ c ∈ cs, isWordChar c = true) (hlast : ∀ ds, cs ≠ ds ++ ['_']) :
    IsIdentifier (String.ofList (guardDigit cs)) := by
  rcases guardDigit_cases cs with ⟨hg, hhead⟩ | ⟨hg, _⟩
  · rw [hg]
    exact ⟨by rwa [String.toList_ofList], by rwa [String.toList_ofList],
      by rwa [String.toList_ofList], by rwa [String.toList_ofList]⟩
  · rw [hg]
    refine ⟨?_, ?_, ?_, ?_⟩
    · rw [String.toList_ofList]
      exact List.cons_ne_nil _ _
    · intro c hc
      rw [String.toList_ofList, List.mem_cons] at hc
      rcases hc with rfl | hc
      · decide
      · exact hword c hc
    · intro c ds h
      rw [String.toList_ofList, List.cons.injEq] at h
      rw [← h.1]
      decide
    · intro ds h
      rw [String.toList_ofList] at h
      cases ds with
      | nil =>
          rw [List.nil_append, List.cons.injEq] at h
          exact hne h.2
      | cons d ds =>
          rw [List.cons_append, List.cons.injEq] at h
          exact hlast ds h.2

/-- A label is brought into the shape also when what stands in for it starts with a digit. -/
theorem isIdentifier_identifier_of (label : String) {fallback : String}
    (hne : fallback.toList ≠ []) (hword : ∀ c ∈ fallback.toList, isWordChar c = true)
    (hlast : ∀ cs, fallback.toList ≠ cs ++ ['_']) : IsIdentifier (identifier label fallback) := by
  rw [identifier, identifierChars]
  by_cases hempty : dropTrailingUnderscores (joinRuns false label.toList) = []
  · -- Nothing is left of the label, so the fallback stands in for it.
    simp only [hempty, List.isEmpty_nil, if_true]
    exact isIdentifier_guardDigit hne hword hlast
  · simp only [List.isEmpty_eq_false_iff.mpr hempty, Bool.false_eq_true, if_false]
    exact isIdentifier_guardDigit hempty
      (fun c hc => isWordChar_of_mem_joinRuns false (mem_of_mem_dropTrailingUnderscores hc))
      (dropTrailingUnderscores_ne_append _)

theorem isIdentifier_identifier (label : String) {fallback : String} (h : IsIdentifier fallback) :
    IsIdentifier (identifier label fallback) :=
  isIdentifier_identifier_of label h.ne_nil h.wordChars h.last

theorem isIdentifier_numbered {base : String} (h : IsIdentifier base) (k : Nat) :
    IsIdentifier (numbered base k) := by
  have hdigits : ∀ c ∈ Nat.toDigits 10 k, c.isDigit = true := fun c hc =>
    Nat.isDigit_of_mem_toDigits (by omega) (by omega) hc
  refine ⟨?_, ?_, ?_, ?_⟩
  · rw [toList_numbered]
    exact List.append_ne_nil_of_left_ne_nil h.ne_nil _
  · intro c hc
    rw [toList_numbered, List.mem_append, List.mem_cons] at hc
    rcases hc with hc | rfl | hc
    · exact h.wordChars c hc
    · decide
    · simp only [isWordChar, Char.isAlphanum, hdigits c hc, Bool.or_true, Bool.true_or]
  · intro c cs hc
    rw [toList_numbered] at hc
    -- The front is that of the base.
    rcases hl : base.toList with _ | ⟨d, ds⟩
    · exact absurd hl h.ne_nil
    · rw [hl, List.cons_append, List.cons.injEq] at hc
      rw [← hc.1]
      exact h.head d ds hl
  · -- The last character is a digit of the number.
    intro cs hc
    rw [toList_numbered] at hc
    have hlast : (Nat.toDigits 10 k).getLast? = some '_' := by
      have := congrArg List.getLast? hc
      rw [List.getLast?_concat, List.getLast?_append, List.getLast?_cons] at this
      rcases hd : (Nat.toDigits 10 k).getLast? with _ | c
      · exact absurd (List.getLast?_eq_none_iff.mp hd) Nat.toDigits_ne_nil
      · rw [hd] at this
        simpa only [Option.getD_some, Option.some_or] using this
    exact absurd (hdigits '_' (List.mem_of_getLast? hlast)) (by decide)

theorem isIdentifier_freshName {base : String} (h : IsIdentifier base) (taken : List String) :
    IsIdentifier (freshName base taken) := by
  rcases freshName_cases base taken with hn | ⟨k, hn⟩
  · rw [hn]
    exact h
  · rw [hn]
    exact isIdentifier_numbered h k

/-- The name that stands in for an asset without one is an identifier. -/
theorem isIdentifier_asset : IsIdentifier "asset" := by
  decide

theorem isIdentifier_screen : IsIdentifier "screen" := by
  decide

/-- Whatever an asset is called, it is stored under an identifier. -/
theorem isIdentifier_storedName (label : String) (taken : List String) :
    IsIdentifier (freshName (identifier label "asset") taken) :=
  isIdentifier_freshName (isIdentifier_identifier label isIdentifier_asset) taken

end PanelSketch.Text
