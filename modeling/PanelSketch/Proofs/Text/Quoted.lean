import Mathlib.Logic.Function.Basic
import PanelSketch.Text.Quoted

/-!
# Reading Quoted Text

What is written between quotes is read back, and reading ends at the quote that closes it,
whatever follows. This is shown one character at a time. What stands for a character is read as
that character in front of any text that can be read at all, so a backslash never joins with
what its neighbours have become, and the closing quote never looks escaped.

Since a text can be read back, no two texts are written alike. And since every character that
lays out a page has an escape, quoted text stays on the line it is put on.

## Main definitions

* `layoutChars`: The characters that lay out a page.

## Theorems

* `readQuoted_escapeChar_append`: What stands for a character is read as that character.
* `readQuoted_escape`: A written text is read back, up to the closing quote.
* `escape_injective`: Different texts are written differently.
* `not_mem_escape_of_layout`: A written text lays out nothing.
-/

namespace PanelSketch.Text

/-- What stands for a character is read as that character, in front of anything that can be
    read. -/
theorem readQuoted_escapeChar_append (c : Char) {cs text rest : List Char}
    (h : readQuoted cs = some (text, rest)) :
    readQuoted (escapeChar c ++ cs) = some (c :: text, rest) := by
  have hescape : ∀ {letter d : Char}, unescapeChar? letter = some d →
      readQuoted ('\\' :: letter :: cs) = some (d :: text, rest) := by
    intro letter d hd
    rw [readQuoted, hd, h]
    rfl
  unfold escapeChar
  split
  · exact hescape rfl
  · exact hescape rfl
  · exact hescape rfl
  · exact hescape rfl
  · exact hescape rfl
  case h_6 hquote hbackslash _ _ _ =>
    -- Any other character stands for itself, and neither ends the text nor starts an escape.
    rw [List.singleton_append, readQuoted, h]
    · rfl
    · exact hquote
    · exact fun _ _ hc _ => hbackslash hc

theorem readQuoted_escapeChars (label behind : List Char) :
    readQuoted (escapeChars label ++ '"' :: behind) = some (label, behind) := by
  induction label with
  | nil => rfl
  | cons c label ih =>
      rw [escapeChars, List.flatMap_cons, List.append_assoc]
      exact readQuoted_escapeChar_append c ih

/-- A written text is read back, and what follows the closing quote is left alone. -/
theorem readQuoted_escape (label behind : String) :
    readQuoted (escape label ++ "\"" ++ behind).toList = some (label.toList, behind.toList) := by
  rw [String.toList_append, String.toList_append, escape, String.toList_ofList, List.append_assoc]
  exact readQuoted_escapeChars label.toList behind.toList

/-- Different texts are written differently. -/
theorem escape_injective : Function.Injective escape := by
  intro first second h
  have hread := readQuoted_escape first ""
  rw [h, readQuoted_escape second ""] at hread
  exact (String.toList_injective (congrArg Prod.fst (Option.some.inj hread))).symm

/-- The characters that end a line or move what follows on it. -/
def layoutChars : List Char := ['\n', '\r', '\t']

/-- A written text lays out nothing, since only other characters stand for themselves. -/
theorem not_mem_escape_of_layout {c : Char} (hc : c ∈ layoutChars) (label : String) :
    c ∉ (escape label).toList := by
  have hescape : ∀ {letter : Char}, ['\\', letter].all (· ∉ layoutChars) = true →
      c ∉ ['\\', letter] := fun hall hmem =>
    of_decide_eq_true (List.all_eq_true.mp hall c hmem) hc
  rw [escape, String.toList_ofList, escapeChars, List.mem_flatMap]
  rintro ⟨d, _, hmem⟩
  unfold escapeChar at hmem
  split at hmem
  case h_6 hnewline hreturn htab =>
    rw [List.mem_singleton.mp hmem] at hc
    simp only [layoutChars, List.mem_cons, List.not_mem_nil, or_false] at hc
    exact hc.elim hnewline fun hc => hc.elim hreturn htab
  all_goals exact hescape (by decide) hmem

end PanelSketch.Text
