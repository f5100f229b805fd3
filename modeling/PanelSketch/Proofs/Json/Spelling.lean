import Mathlib.Data.List.Forall2
import PanelSketch.Proofs.Json.Quoted
import PanelSketch.Proofs.Json.Range

/-!
# Spellings

One document has many texts: blanks may stand between any two lexemes, and numbers
and texts may be written in several ways. `Spells` relates a text to the value that it
spells, and is the grammar of JSON. It knows nothing of readers, so what is proved
about a reader along it holds however a document came to be written. A numeral of any
size spells a number; one that is too large to be read for certain spells an infinity.

The separators of lists and objects are kept apart from what they separate.
`Enumerated` says how pieces are joined, and serves items and members alike.

## Main definitions

* `Blanks`: Blanks and nothing else.
* `Following`, `Enumerated`: Pieces joined by commas.
* `Spells`, `SpellsMember`: The grammar.
* `Value.depth`: How many levels of lists and objects a value has.
* `Document`: A text that holds a value and nothing else.

## Theorems

* `Spells.starts`: A spelling starts with a character of its own.
* `Spells.depth_le_length`: A value has no more levels than characters.
-/

namespace PanelSketch.Json

/-- Whether a text consists of blanks. -/
def Blanks (cs : List Char) : Prop :=
  ∀ c ∈ cs, isBlank c = true

instance : DecidablePred Blanks :=
  fun cs => List.decidableBAll (fun c => isBlank c = true) cs

theorem blanks_nil : Blanks [] := by
  intro c hc
  exact absurd hc List.not_mem_nil

/-- What follows a piece: more pieces, each behind a comma. -/
inductive Following : List (List Char) → List Char → Prop
  | nil {ws : List Char} (hws : Blanks ws) : Following [] ws
  | cons {ws ws' piece text : List Char} {pieces : List (List Char)} (hws : Blanks ws)
      (hws' : Blanks ws') (h : Following pieces text) :
      Following (piece :: pieces) (ws ++ ',' :: (ws' ++ (piece ++ text)))

/-- Pieces joined by commas, as they stand between two brackets. -/
inductive Enumerated : List (List Char) → List Char → Prop
  | nil {ws : List Char} (hws : Blanks ws) : Enumerated [] ws
  | cons {ws piece text : List Char} {pieces : List (List Char)} (hws : Blanks ws)
      (h : Following pieces text) : Enumerated (piece :: pieces) (ws ++ (piece ++ text))

mutual

/-- The texts that a value can be written as, without blanks around them. -/
inductive Spells : List Char → Value → Prop
  | null : Spells ['n', 'u', 'l', 'l'] .null
  | true : Spells ['t', 'r', 'u', 'e'] (.boolean true)
  | false : Spells ['f', 'a', 'l', 's', 'e'] (.boolean false)
  | number {n : Numeral} {x : Number} (h : n.meaning = x) : Spells n.chars (.number x)
  | text {raw : List Char} {s : String} (h : Escaped raw s.toList) :
      Spells ('"' :: (raw ++ ['"'])) (.text s)
  | list {pieces : List (List Char)} {items : List Value} {inner : List Char}
      (h : List.Forall₂ Spells pieces items) (hinner : Enumerated pieces inner) :
      Spells ('[' :: (inner ++ [']'])) (.list items)
  | object {pieces : List (List Char)} {members : List (String × Value)} {inner : List Char}
      (h : List.Forall₂ SpellsMember pieces members) (hinner : Enumerated pieces inner) :
      Spells ('\x7b' :: (inner ++ ['\x7d'])) (.object members)

/-- The texts that a member of an object can be written as. -/
inductive SpellsMember : List Char → String × Value → Prop
  | mk {raw ws ws' cs : List Char} {key : String} {v : Value} (hkey : Escaped raw key.toList)
      (hws : Blanks ws) (hws' : Blanks ws') (h : Spells cs v) :
      SpellsMember ('"' :: (raw ++ '"' :: (ws ++ ':' :: (ws' ++ cs)))) (key, v)

end

/-- Whether a text holds a value and, but for blanks, nothing else. -/
def Document (text : List Char) (v : Value) : Prop :=
  ∃ ws cs ws' : List Char, Blanks ws ∧ Blanks ws' ∧ Spells cs v ∧ text = ws ++ (cs ++ ws')

/-! ### Depth -/

mutual

/-- How many levels of lists and objects a value has. -/
def Value.depth : Value → Nat
  | .list items => itemsDepth items + 1
  | .object members => membersDepth members + 1
  | _ => 0

/-- The levels of the deepest item. -/
def itemsDepth : List Value → Nat
  | [] => 0
  | v :: vs => max v.depth (itemsDepth vs)

/-- The levels of the deepest member. -/
def membersDepth : List (String × Value) → Nat
  | [] => 0
  | (_, v) :: rest => max v.depth (membersDepth rest)

end

theorem itemsDepth_le {items : List Value} {levels : Nat} :
    itemsDepth items ≤ levels ↔ ∀ v ∈ items, v.depth ≤ levels := by
  induction items with
  | nil => simp [itemsDepth]
  | cons v vs ih => rw [itemsDepth, Nat.max_le, ih, List.forall_mem_cons]

theorem membersDepth_le {members : List (String × Value)} {levels : Nat} :
    membersDepth members ≤ levels ↔ ∀ m ∈ members, m.2.depth ≤ levels := by
  induction members with
  | nil => simp [membersDepth]
  | cons m rest ih => rw [membersDepth, Nat.max_le, ih, List.forall_mem_cons]

theorem depth_list_le {items : List Value} {levels : Nat} :
    (Value.list items).depth ≤ levels + 1 ↔ ∀ v ∈ items, v.depth ≤ levels := by
  rw [Value.depth, Nat.add_le_add_iff_right, itemsDepth_le]

theorem depth_object_le {members : List (String × Value)} {levels : Nat} :
    (Value.object members).depth ≤ levels + 1 ↔ ∀ m ∈ members, m.2.depth ≤ levels := by
  rw [Value.depth, Nat.add_le_add_iff_right, membersDepth_le]

/-! ### Lists in step -/

/-- Of two lists in step, each entry of the second has its partner in the first. -/
theorem exists_of_forall₂ {α β : Type} {R : α → β → Prop} {as : List α} {bs : List β}
    (h : List.Forall₂ R as bs) : ∀ b ∈ bs, ∃ a ∈ as, R a b := by
  induction h with
  | nil => simp
  | cons hab _ ih =>
      simp only [List.mem_cons, exists_eq_or_imp]
      rintro b (rfl | hb)
      · exact Or.inl hab
      · exact Or.inr (ih b hb)

/-! ### Spellings -/

/-- Whether a value may start with a character. -/
def Starts (c : Char) : Prop :=
  isBlank c = false ∧ c ≠ ']' ∧ c ≠ '\x7d'

/-- A sign or a digit is a start. -/
theorem starts_of_numeral {c : Char} (h : c = '-' ∨ c.isDigit = true) : Starts c := by
  refine ⟨?_, ?_, ?_⟩
  · rw [Bool.eq_false_iff]
    intro hc
    simp only [isBlank, Bool.or_eq_true, beq_iff_eq] at hc
    rcases hc with ((rfl | rfl) | rfl) | rfl <;> exact absurd h (by decide)
  · rintro rfl
    exact absurd h (by decide)
  · rintro rfl
    exact absurd h (by decide)

/-- A numeral starts with its sign or with a digit. -/
theorem Numeral.chars_eq_cons (n : Numeral) :
    ∃ c cs, n.chars = c :: cs ∧ (c = '-' ∨ c.isDigit = true) := by
  rcases hds : n.whole with _ | ⟨d, ds⟩
  · exact absurd hds n.whole_isDigits.1
  have hd : d.isDigit = true := n.whole_isDigits.2 d (hds ▸ List.mem_cons_self)
  rw [Numeral.chars, hds]
  split
  · exact ⟨_, _, rfl, Or.inl rfl⟩
  · exact ⟨_, _, rfl, Or.inr hd⟩

/-- A spelling starts with a character of its own. -/
theorem Spells.starts {cs : List Char} {v : Value} (h : Spells cs v) :
    ∃ c cs', cs = c :: cs' ∧ Starts c := by
  cases h with
  | @number n x h =>
      rcases n.chars_eq_cons with ⟨c, cs', heq, hc⟩
      exact ⟨c, cs', heq, starts_of_numeral hc⟩
  | _ => exact ⟨_, _, rfl, by simp [Starts, isBlank]⟩

theorem Following.length_le {pieces : List (List Char)} {text : List Char}
    (h : Following pieces text) :
    pieces.length ≤ text.length ∧ ∀ piece ∈ pieces, piece.length ≤ text.length := by
  induction h with
  | nil _ => simp
  | cons _ _ _ ih =>
      simp only [List.length_cons, List.length_append, List.mem_cons, forall_eq_or_imp]
      refine ⟨by omega, by omega, fun piece hpiece => ?_⟩
      have hle := ih.2 piece hpiece
      omega

theorem Enumerated.length_le {pieces : List (List Char)} {text : List Char}
    (h : Enumerated pieces text) : ∀ piece ∈ pieces, piece.length ≤ text.length := by
  cases h with
  | nil _ => simp
  | cons _ h =>
      simp only [List.length_append, List.mem_cons, forall_eq_or_imp]
      refine ⟨by omega, fun piece hpiece => ?_⟩
      have hle := h.length_le.2 piece hpiece
      omega

/-- A value has no more levels than characters. -/
theorem Spells.depth_le_length {cs : List Char} {v : Value} (h : Spells cs v) :
    v.depth ≤ cs.length := by
  -- A piece is shorter than the list or object that it is part of.
  induction hlength : cs.length using Nat.strongRecOn generalizing cs v with
  | ind length ih =>
    cases h with
    | @list pieces items inner h hinner =>
        rw [List.length_cons, List.length_append] at hlength
        rw [← hlength, depth_list_le]
        intro v hv
        obtain ⟨piece, hpiece, hspells⟩ := exists_of_forall₂ h v hv
        have hle := hinner.length_le piece hpiece
        exact Nat.le_trans (ih piece.length (by omega) hspells rfl) (by omega)
    | @object pieces members inner h hinner =>
        rw [List.length_cons, List.length_append] at hlength
        rw [← hlength, depth_object_le]
        intro m hm
        obtain ⟨piece, hpiece, hspells⟩ := exists_of_forall₂ h m hm
        have hle := hinner.length_le piece hpiece
        cases hspells with
        | @mk raw ws ws' cs key v hkey hws hws' hspells =>
            simp only [List.length_cons, List.length_append] at hle
            exact Nat.le_trans (ih cs.length (by omega) hspells rfl) (by omega)
    | _ => exact Nat.zero_le _

end PanelSketch.Json
