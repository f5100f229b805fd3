import Mathlib.Data.List.Basic
import PanelSketch.Proofs.Text.Identifier
import PanelSketch.Proofs.Text.Quoted
import PanelSketch.Text.Hexadecimal

/-!
# Texts Line by Line

A generated file is put together from pieces, each meant to be one line, with a
line feed behind every piece. Whoever reads the file finds its lines by looking
for line feeds, and takes a line that ends in a backslash together with the next
one. So a piece is the line it is meant to be when there is no line feed in it and
no backslash at its end.

Putting texts in a row keeps this up, as long as the last one does. What people
choose comes in between: names made into identifiers are harmless, and so is a
label between quotes, where a line feed is written as an escape and the closing
quote comes last.

## Main definitions

* `lines`: What stands between the line feeds of a text.
* `IsLine`: A text that stays on its line, and keeps the next one out of it.

## Theorems

* `lines_append`: A line feed ends a line.
* `unbroken_of_length_flatMap_lines`: Pieces that are as many as their lines are unbroken.
* `isLine_append_iff`, `IsLine.intercalate`: Texts in a row.
* `IsIdentifier.isLine`, `not_mem_escape`, `isLine_repr`: Names, labels, numbers.
-/

namespace PanelSketch.Text

/-- What stands between the line feeds of a text. -/
def lines (text : String) : List String :=
  (text.toList.splitOn '\n').map String.ofList

/-- A text that stays on its line, and keeps the next one out of it. -/
structure IsLine (s : String) : Prop where
  unbroken : '\n' ∉ s.toList
  ended : s.toList.getLast? ≠ some '\\'

instance (s : String) : Decidable (IsLine s) :=
  decidable_of_iff ('\n' ∉ s.toList ∧ s.toList.getLast? ≠ some '\\')
    ⟨fun h => ⟨h.1, h.2⟩, fun h => ⟨h.unbroken, h.ended⟩⟩

/-! ### Lines of a text -/

theorem lines_empty : lines "" = [""] := rfl

/-- A line feed ends a line. -/
theorem lines_append (s t : String) : lines (s ++ "\n" ++ t) = lines s ++ lines t := by
  have hlist : (s ++ "\n" ++ t).toList = s.toList ++ '\n' :: t.toList := by
    simp only [String.toList_append, List.append_assoc]
    rfl
  rw [lines, hlist, List.splitOn_append_cons_self, List.map_append]
  rfl

theorem lines_of_unbroken {s : String} (h : '\n' ∉ s.toList) : lines s = [s] := by
  rw [lines, List.splitOn_eq_singleton h, List.map_singleton, String.ofList_toList]

theorem length_lines_pos (s : String) : 1 ≤ (lines s).length := by
  rw [lines, List.length_map]
  exact List.length_pos_iff.mpr (List.splitOn_ne_nil '\n' s.toList)

/-- A text that is one line holds no line feed. -/
theorem unbroken_of_length_lines {s : String} (h : (lines s).length = 1) : '\n' ∉ s.toList := by
  intro hmem
  rcases List.append_of_mem hmem with ⟨front, back, hlist⟩
  -- There would be a line in front of the line feed and another one behind it.
  have hs : s = String.ofList front ++ "\n" ++ String.ofList back := by
    apply String.toList_injective
    simp only [hlist, String.toList_append, String.toList_ofList, List.append_assoc]
    rfl
  rw [hs, lines_append, List.length_append] at h
  have hfront := length_lines_pos (String.ofList front)
  have hback := length_lines_pos (String.ofList back)
  omega

theorem length_le_length_flatMap_lines (pieces : List String) :
    pieces.length ≤ (pieces.flatMap lines).length := by
  induction pieces with
  | nil => exact Nat.le_refl _
  | cons s pieces ih =>
      rw [List.flatMap_cons, List.length_append, List.length_cons]
      have hs := length_lines_pos s
      omega

/-- Pieces that are as many as their lines are unbroken. -/
theorem unbroken_of_length_flatMap_lines {pieces : List String}
    (h : (pieces.flatMap lines).length = pieces.length) : ∀ s ∈ pieces, '\n' ∉ s.toList := by
  induction pieces with
  | nil => exact fun s hs => absurd hs List.not_mem_nil
  | cons s pieces ih =>
      rw [List.flatMap_cons, List.length_append, List.length_cons] at h
      have hs := length_lines_pos s
      have hpieces := length_le_length_flatMap_lines pieces
      exact List.forall_mem_cons.mpr ⟨unbroken_of_length_lines (by omega), ih (by omega)⟩

theorem flatMap_lines_of_unbroken {pieces : List String} (h : ∀ s ∈ pieces, '\n' ∉ s.toList) :
    pieces.flatMap lines = pieces := by
  induction pieces with
  | nil => rfl
  | cons s pieces ih =>
      rw [List.forall_mem_cons] at h
      rw [List.flatMap_cons, lines_of_unbroken h.1, ih h.2]
      rfl

/-! ### Texts in a row -/

/-- Behind a text without line feeds, only the last text has to be a line. -/
theorem IsLine.append_left {s t : String} (hs : '\n' ∉ s.toList) (ht : IsLine t) (hne : t ≠ "") :
    IsLine (s ++ t) where
  unbroken := by
    rw [String.toList_append, List.mem_append, not_or]
    exact ⟨hs, ht.unbroken⟩
  ended := by
    have hne' : t.toList ≠ [] := fun hc => hne (String.toList_injective hc)
    rw [String.toList_append, List.getLast?_append_of_ne_nil _ hne']
    exact ht.ended

theorem isLine_append_iff {s t : String} (hs : IsLine s) : IsLine (s ++ t) ↔ IsLine t := by
  by_cases hne : t = ""
  · rw [hne, String.append_empty]
    exact iff_of_true hs (by decide)
  · constructor
    · intro h
      refine ⟨fun hmem => h.unbroken ?_, fun hlast => h.ended ?_⟩
      · rw [String.toList_append]
        exact List.mem_append_right _ hmem
      · have hne' : t.toList ≠ [] := fun hc => hne (String.toList_injective hc)
        rw [String.toList_append, List.getLast?_append_of_ne_nil _ hne']
        exact hlast
    · exact fun ht => ht.append_left hs.unbroken hne

theorem IsLine.append {s t : String} (hs : IsLine s) (ht : IsLine t) : IsLine (s ++ t) :=
  (isLine_append_iff hs).mpr ht

theorem IsLine.intercalate {sep : String} (hsep : IsLine sep) {pieces : List String}
    (h : ∀ s ∈ pieces, IsLine s) : IsLine (sep.intercalate pieces) := by
  induction pieces with
  | nil => exact ⟨List.not_mem_nil, Option.some_ne_none _ |>.symm⟩
  | cons s pieces ih =>
      rw [List.forall_mem_cons] at h
      by_cases hne : pieces = []
      · rw [hne]
        exact h.1
      · rw [String.intercalate_cons_of_ne_nil hne]
        exact (h.1.append hsep).append (ih h.2)

/-! ### Names, labels and numbers -/

theorem isLine_of_forall {s : String} (h : ∀ c ∈ s.toList, c ≠ '\n' ∧ c ≠ '\\') : IsLine s :=
  ⟨fun hmem => (h _ hmem).1 rfl, fun hlast => (h _ (List.mem_of_getLast? hlast)).2 rfl⟩

theorem isLine_of_wordChars {s : String} (h : ∀ c ∈ s.toList, isWordChar c = true) :
    IsLine s := by
  refine isLine_of_forall fun c hc => ⟨?_, ?_⟩
  · rintro rfl
    exact absurd (h _ hc) (by decide)
  · rintro rfl
    exact absurd (h _ hc) (by decide)

theorem IsIdentifier.isLine {name : String} (h : IsIdentifier name) : IsLine name :=
  isLine_of_wordChars h.wordChars

/-- A line feed in a label is written as an escape. -/
theorem not_mem_escape (label : String) : '\n' ∉ (escape label).toList :=
  not_mem_escape_of_layout (by decide) label

theorem isLine_natRepr (n : Nat) : IsLine n.repr := by
  refine isLine_of_forall fun c hc => ?_
  rw [Nat.toList_repr] at hc
  have hdigit : c.isDigit = true := Nat.isDigit_of_mem_toDigits (by omega) (by omega) hc
  refine ⟨?_, ?_⟩
  · rintro rfl
    exact absurd hdigit (by decide)
  · rintro rfl
    exact absurd hdigit (by decide)

theorem isLine_repr (n : Int) : IsLine n.repr := by
  cases n with
  | ofNat n => exact isLine_natRepr n
  | negSucc n => exact IsLine.append (by decide) (isLine_natRepr (n + 1))

theorem isLine_hexWord (width n : Nat) : IsLine (String.ofList (hexWord width n)).toUpper := by
  have hdigit : ∀ d < 16, (hexDigit d).toUpper ≠ '\n' ∧ (hexDigit d).toUpper ≠ '\\' := by decide
  refine isLine_of_forall fun c hc => ?_
  rw [String.toUpper, String.toList_map, String.toList_ofList, List.mem_map] at hc
  rcases hc with ⟨d, hd, rfl⟩
  induction width generalizing n with
  | zero => exact absurd hd List.not_mem_nil
  | succ width ih =>
      rcases List.mem_append.mp hd with hd | hd
      · exact ih (n / 16) hd
      · rw [List.mem_singleton.mp hd]
        exact hdigit (n % 16) (Nat.mod_lt n (by omega))

end PanelSketch.Text
