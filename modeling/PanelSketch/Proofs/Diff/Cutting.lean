import PanelSketch.Diff.Lines

/-!
# Cutting a Text into Lines

The lines of a text are the text again when they are put together. That does not yet make
them lines, since a text that were left whole would have the property as well. Each line
ends with the first line break that is in it, and only the last line may have none. A
carriage return and a line feed that stand together are one break: a line never ends
between the two.

## Main definitions

* `Ended`, `Open`: A line with a line break at its end, and one without any.
* `Cut`: A text in lines.

## Theorems

* `cut_splitLines`: A text is cut into lines.
* `join_splitLines`: Nothing is lost.
-/

namespace PanelSketch.Diff

/-- The characters that end a line. -/
def breaks : List Char := ['\n', '\r']

/-- A line that has a line break at its end and nowhere else. -/
def Ended (line : List Char) : Prop :=
  ∃ body, (∀ c ∈ body, c ∉ breaks)
    ∧ (line = body ++ ['\n'] ∨ line = body ++ ['\r'] ∨ line = body ++ ['\r', '\n'])

/-- A line that has no line break. -/
def Open (line : List Char) : Prop :=
  line ≠ [] ∧ ∀ c ∈ line, c ∉ breaks

/-- Every line has a line break at its end, the last one may go without, and no line
    break is torn apart. -/
def Cut : List (List Char) → Prop
  | [] => True
  | [line] => Ended line ∨ Open line
  | line :: next :: lines =>
    Ended line ∧ ¬ (line.getLast? = some '\r' ∧ next.head? = some '\n') ∧ Cut (next :: lines)

theorem Ended.ne_nil {line : List Char} (h : Ended line) : line ≠ [] := by
  rcases h with ⟨body, -, rfl | rfl | rfl⟩ <;> exact List.append_ne_nil_of_right_ne_nil _ (by simp)

theorem Ended.cons {c : Char} {line : List Char} (h : Ended line) (hc : c ∉ breaks) :
    Ended (c :: line) := by
  rcases h with ⟨body, hbody, hline⟩
  refine ⟨c :: body, List.forall_mem_cons.mpr ⟨hc, hbody⟩, ?_⟩
  rcases hline with rfl | rfl | rfl
  · exact .inl rfl
  · exact .inr (.inl rfl)
  · exact .inr (.inr rfl)

theorem Open.cons {c : Char} {line : List Char} (h : Open line) (hc : c ∉ breaks) :
    Open (c :: line) :=
  ⟨List.cons_ne_nil c line, List.forall_mem_cons.mpr ⟨hc, h.2⟩⟩

/-- A line with an end may be put in front, unless that tears a line break apart. -/
theorem Cut.ended_cons {line : List Char} {lines : List (List Char)} (h : Cut lines)
    (hline : Ended line)
    (htorn : line.getLast? = some '\r' → lines.flatten.head? ≠ some '\n') :
    Cut (line :: lines) := by
  cases lines with
  | nil => exact .inl hline
  | cons next lines =>
      refine ⟨hline, fun ⟨hreturn, hfeed⟩ => htorn hreturn ?_, h⟩
      rw [List.flatten_cons, List.head?_append, hfeed]
      rfl

/-- A character that ends no line may be put to the first line. -/
theorem Cut.consLine {c : Char} {lines : List (List Char)} (h : Cut lines) (hc : c ∉ breaks) :
    Cut (consLine c lines) := by
  match lines with
  | [] => exact .inr ⟨List.cons_ne_nil c [], fun d hd => List.mem_singleton.mp hd ▸ hc⟩
  | [line] =>
      rcases h with hended | hopen
      · exact .inl (hended.cons hc)
      · exact .inr (hopen.cons hc)
  | line :: next :: lines =>
      rcases h with ⟨hended, htorn, hrest⟩
      refine ⟨hended.cons hc, ?_, hrest⟩
      -- The line has an end, so that is still its last character.
      rw [List.getLast?_cons_of_ne_nil hended.ne_nil]
      exact htorn

/-- A text is cut into lines, and each of them keeps what ends it. -/
theorem cut_splitChars (cs : List Char) : Cut (splitChars cs) := by
  fun_induction splitChars cs with
  | case1 => trivial
  | case2 rest ih =>
      refine ih.ended_cons ⟨[], List.forall_mem_nil _, .inr (.inr rfl)⟩ fun hreturn => ?_
      exact absurd hreturn (by decide)
  | case3 c rest hpair hbreak ih =>
      refine ih.ended_cons ⟨[], List.forall_mem_nil _, ?_⟩ fun hreturn => ?_
      · rcases hbreak with rfl | rfl
        · exact .inl rfl
        · exact .inr (.inl rfl)
      · rw [flatten_splitChars]
        intro hfeed
        rcases List.head?_eq_some_iff.mp hfeed with ⟨rest', rfl⟩
        exact hpair rest' (Option.some.inj hreturn) rfl
  | case4 c rest _ hbreak ih =>
      refine ih.consLine fun hmem => hbreak ?_
      rcases List.mem_cons.mp hmem with hfeed | hreturn
      · exact .inl hfeed
      · exact .inr (List.mem_singleton.mp hreturn)

theorem toList_splitLines (text : String) :
    (splitLines text).map String.toList = splitChars text.toList := by
  rw [splitLines, List.map_map]
  exact List.map_id'' (fun _ => String.toList_ofList) _

theorem cut_splitLines (text : String) : Cut ((splitLines text).map String.toList) := by
  rw [toList_splitLines]
  exact cut_splitChars _

/-- The lines of a text are the text. -/
theorem join_splitLines (text : String) : String.join (splitLines text) = text := by
  refine String.toList_inj.mp ?_
  rw [String.toList_join, List.flatMap_def, toList_splitLines, flatten_splitChars]

end PanelSketch.Diff
