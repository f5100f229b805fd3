import PanelSketch.Proofs.Json.Spelling

/-!
# Printed Documents

The wide layout is one of the spellings of a document. It puts a new line in front of
every item and member, and one in front of the bracket that closes them, and all of
these are blanks.

Only integers of 64 bits are considered among the numbers. Nothing else is ever put
into a document by the library, and no other integer comes back as one.

## Main definitions

* `Value.Whole`: A value whose numbers are integers of 64 bits.

## Theorems

* `enumerated_lines`: Pieces on lines of their own are joined by commas.
* `Value.Whole.spells`: The wide layout spells the value.
-/

namespace PanelSketch.Json

/-- Whether all numbers of a value are integers of 64 bits. -/
inductive Value.Whole : Value → Prop
  | null : Whole .null
  | boolean (b : Bool) : Whole (.boolean b)
  | number {n : Int} (hleast : -(negativeLimit : Int) ≤ n) (hgreatest : n ≤ significandLimit) :
      Whole (.number (.integer n))
  | text (s : String) : Whole (.text s)
  | list {items : List Value} (h : ∀ v ∈ items, Whole v) : Whole (.list items)
  | object {members : List (String × Value)} (h : ∀ m ∈ members, Whole m.2) :
      Whole (.object members)

theorem Value.Whole.finite {v : Value} (h : v.Whole) : v.Finite := by
  induction h with
  | null => exact .null
  | boolean b => exact .boolean b
  | number _ _ => exact .number (isFinite_integer _)
  | text s => exact .text s
  | list _ ih => exact .list ih
  | object _ ih => exact .object ih

theorem blanks_newLine (depth : Nat) : Blanks (newLine depth) := by
  intro c hc
  rcases List.mem_cons.mp hc with rfl | hc
  · rfl
  · rw [List.eq_of_mem_replicate hc]
    rfl

/-- Pieces on lines of their own are joined by commas. -/
theorem following_lines {line last : List Char} (hline : Blanks line) (hlast : Blanks last)
    (piece : List Char) (pieces : List (List Char)) :
    ∃ rest, Following pieces rest
      ∧ (List.intersperse [','] ((piece :: pieces).map (line ++ ·))).flatten ++ last
        = line ++ (piece ++ rest) := by
  -- The first piece is kept apart, since only the others have a comma in front.
  induction pieces generalizing piece with
  | nil => exact ⟨last, .nil hlast, by simp⟩
  | cons piece' pieces ih =>
      obtain ⟨rest, hrest, heq⟩ := ih piece'
      refine ⟨_, .cons blanks_nil hline hrest, ?_⟩
      rw [List.map_cons, List.map_cons, List.intersperse_cons_cons, List.flatten_cons,
        List.flatten_cons, List.nil_append, ← heq]
      simp

theorem enumerated_lines (depth : Nat) (opening closing : Char) (pieces : List (List Char)) :
    ∃ inner, Enumerated pieces inner
      ∧ bracketed opening closing depth pieces = opening :: (inner ++ [closing]) := by
  rcases pieces with _ | ⟨piece, pieces⟩
  · exact ⟨[], .nil blanks_nil, rfl⟩
  · obtain ⟨rest, hrest, heq⟩ := following_lines (blanks_newLine (depth + 1))
      (blanks_newLine depth) piece pieces
    refine ⟨_, .cons (blanks_newLine (depth + 1)) hrest, ?_⟩
    rw [← heq, bracketed]
    simp

/-- Pieces with nothing but commas between them. -/
theorem enumerated_commas (pieces : List (List Char)) :
    Enumerated pieces (List.intersperse [','] pieces).flatten := by
  rcases pieces with _ | ⟨piece, pieces⟩
  · exact .nil blanks_nil
  · obtain ⟨rest, hrest, heq⟩ := following_lines blanks_nil blanks_nil piece pieces
    have henumerated : Enumerated (piece :: pieces) ([] ++ (piece ++ rest)) :=
      .cons blanks_nil hrest
    rw [← heq] at henumerated
    simpa using henumerated

theorem spells_list {pieces : List (List Char)} {items : List Value}
    (h : List.Forall₂ Spells pieces items) :
    Spells ('[' :: ((List.intersperse [','] pieces).flatten ++ [']'])) (.list items) :=
  .list h (enumerated_commas pieces)

theorem spells_object {pieces : List (List Char)} {members : List (String × Value)}
    (h : List.Forall₂ SpellsMember pieces members) :
    Spells ('\x7b' :: ((List.intersperse [','] pieces).flatten ++ ['\x7d'])) (.object members) :=
  .object h (enumerated_commas pieces)

theorem spells_quote (s : String) : Spells (quote s) (.text s) :=
  .text (escaped_quoteChars s.toList)

theorem spellsMember_quote (key : String) {cs : List Char} {v : Value} (h : Spells cs v) :
    SpellsMember (quote key ++ ':' :: cs) (key, v) := by
  have hmember := SpellsMember.mk (escaped_quoteChars key.toList) blanks_nil blanks_nil h
  simpa [quote] using hmember

theorem prettyItems_eq (depth : Nat) (items : List Value) :
    prettyItems depth items = items.map (Value.prettyAt depth) := by
  induction items with
  | nil => rfl
  | cons v vs ih => rw [prettyItems, ih, List.map_cons]

theorem prettyMembers_eq (depth : Nat) (members : List (String × Value)) :
    prettyMembers depth members
      = members.map fun m => quote m.1 ++ [':', ' '] ++ m.2.prettyAt depth := by
  induction members with
  | nil => rfl
  | cons m rest ih => rw [prettyMembers, ih, List.map_cons]

/-- The wide layout spells the value. -/
theorem Value.Whole.spells {v : Value} (h : v.Whole) (depth : Nat) :
    Spells (v.prettyAt depth) v := by
  induction h generalizing depth with
  | null => exact .null
  | boolean b => cases b with
    | true => exact .true
    | false => exact .false
  | @number n hleast hgreatest =>
      rw [prettyAt, Number.text_integer, ← Numeral.chars_ofInt]
      exact .number (Numeral.meaning_ofInt hleast hgreatest)
  | text s => exact .text (escaped_quoteChars s.toList)
  | @list items _ ih =>
      rw [prettyAt, prettyItems_eq]
      obtain ⟨inner, hinner, heq⟩ := enumerated_lines depth '[' ']'
        (items.map (Value.prettyAt (depth + 1)))
      rw [heq]
      refine .list (List.forall₂_map_left_iff.mpr (List.forall₂_same.mpr fun v hv => ?_)) hinner
      exact ih v hv (depth + 1)
  | @object members _ ih =>
      rw [prettyAt, prettyMembers_eq]
      obtain ⟨inner, hinner, heq⟩ := enumerated_lines depth '\x7b' '\x7d'
        (members.map fun m => quote m.1 ++ [':', ' '] ++ m.2.prettyAt (depth + 1))
      rw [heq]
      refine .object (List.forall₂_map_left_iff.mpr (List.forall₂_same.mpr fun m hm => ?_)) hinner
      have hspace : Blanks [' '] := by decide
      have hmember := SpellsMember.mk (escaped_quoteChars m.1.toList) blanks_nil hspace
        (ih m hm (depth + 1))
      simpa [quote] using hmember

/-- The wide layout is a document with the value. -/
theorem Value.Whole.document {v : Value} (h : v.Whole) : Document (v.prettyAt 0) v :=
  ⟨[], v.prettyAt 0, [], blanks_nil, blanks_nil, h.spells 0, by simp⟩

end PanelSketch.Json
