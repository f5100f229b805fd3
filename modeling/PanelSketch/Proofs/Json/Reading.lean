import PanelSketch.Proofs.Json.Loops

/-!
# Reading Values

Every reader of the library is run along the spellings of the values it is made for.
A value that is read comes back as it was spelled, however that was, as long as it
has no more levels than the reader goes down; a value that is passed over is passed
over at any depth.

## Theorems

* `takes_value`: Reading a value returns it.
* `takes_pass`: Passing over a value never fails.
* `takes_text`, `takes_integer`, `takes_nullable`, `takes_list`: Values of a wanted
  type.
* `document_eq`: A whole text is read by what reads its value.
-/

namespace PanelSketch.Json

variable {α : Type}

/-! ### Punctuation -/

theorem endList_cons (rest : List Char) : endList (']' :: rest) = .ok ((), rest) := by
  rw [endList, bind_ok (next?_here rfl rest)]
  rfl

theorem endObject_cons (rest : List Char) : endObject ('\x7d' :: rest) = .ok ((), rest) := by
  rw [endObject, bind_ok (next?_here rfl rest)]
  rfl

theorem colon_append {ws : List Char} (hws : Blanks ws) (rest : List Char) :
    colon (ws ++ ':' :: rest) = .ok ((), rest) := by
  rw [colon, bind_ok (next?_cons hws rfl rest)]
  rfl

theorem readText_append {raw : List Char} {s : String} (h : Escaped raw s.toList)
    (rest : List Char) : readText (raw ++ '"' :: rest) = .ok (s, rest) := by
  rw [readText, h.readTextChars rest]
  exact congrArg (fun s => Except.ok (s, rest)) String.ofList_toList

theorem passText_append {raw : List Char} {s : List Char} (h : Escaped raw s)
    (rest : List Char) : passText (raw ++ '"' :: rest) = .ok ((), rest) := by
  rw [passText, h.passTextChars rest]
  rfl

theorem readKey_cons {raw : List Char} {key : String} (h : Escaped raw key.toList)
    (rest : List Char) : readKey ('"' :: (raw ++ '"' :: rest)) = .ok (key, rest) := by
  rw [readKey, bind_ok (advance_cons '"' _), readText_append h rest]

/-! ### Items and members -/

/-- Items are put in front of those that were read before. -/
theorem turns_items {reader : Reader α} {pieces : List (List Char)} {items : List Value}
    (hpieces : List.Forall₂ Spells pieces items) {as : List α}
    (hitems : List.Forall₂ (Takes reader) items as) (before : List α) :
    Turns itemPunctuation (fun items => do return (← reader) :: items) before pieces
      (as.reverse ++ before) := by
  induction hpieces generalizing as before with
  | nil =>
      cases hitems
      exact .nil
  | cons hpiece _ ih =>
      cases hitems with
      | @cons _ a _ as hitem hitems =>
          obtain ⟨c, cs, rfl, hc⟩ := hpiece.starts
          have hturns := ih hitems (a :: before)
          rw [List.reverse_cons, List.append_assoc, List.singleton_append]
          refine .cons hc (fun ws rest hws hrest => ?_) hturns
          rw [bind_ok (hitem _ hpiece ws rest hws hrest)]
          rfl

theorem turns_passItems {reader : Reader Unit} {pieces : List (List Char)} {items : List Value}
    (hpieces : List.Forall₂ Spells pieces items) (hitems : ∀ v ∈ items, Takes reader v ()) :
    Turns itemPunctuation (fun _ => reader) () pieces () := by
  induction hpieces with
  | nil => exact .nil
  | cons hpiece _ ih =>
      rw [List.forall_mem_cons] at hitems
      obtain ⟨c, cs, rfl, hc⟩ := hpiece.starts
      exact .cons hc (hitems.1 _ hpiece) (ih hitems.2)

theorem turns_members {reader : Reader Value} {pieces : List (List Char)}
    {members : List (String × Value)} (hpieces : List.Forall₂ SpellsMember pieces members)
    (hmembers : ∀ m ∈ members, Takes reader m.2 m.2) (before : List (String × Value)) :
    Turns memberPunctuation (fun members => do
        let key ← readKey
        colon
        return (key, ← reader) :: members) before pieces (members.reverse ++ before) := by
  induction hpieces generalizing before with
  | nil => exact .nil
  | @cons _ m _ members hpiece _ ih =>
      rw [List.forall_mem_cons] at hmembers
      have hturns := ih hmembers.2 (m :: before)
      rw [List.reverse_cons, List.append_assoc, List.singleton_append]
      cases hpiece with
      | mk hkey hws hws' hspells =>
          refine .cons rfl (fun lead rest hlead hrest => ?_) hturns
          obtain rfl : lead = [] := hlead
          simp only [List.nil_append, List.cons_append, List.append_assoc]
          rw [bind_ok (readKey_cons hkey _), bind_ok (colon_append hws _),
            bind_ok (hmembers.1 _ hspells _ _ hws' hrest)]
          rfl

theorem turns_passMembers {reader : Reader Unit} {pieces : List (List Char)}
    {members : List (String × Value)} (hpieces : List.Forall₂ SpellsMember pieces members)
    (hmembers : ∀ m ∈ members, Takes reader m.2 ()) :
    Turns memberPunctuation (fun _ => do
        advance
        passText
        colon
        reader) () pieces () := by
  induction hpieces with
  | nil => exact .nil
  | cons hpiece _ ih =>
      rw [List.forall_mem_cons] at hmembers
      cases hpiece with
      | mk hkey hws hws' hspells =>
          refine .cons rfl (fun lead rest hlead hrest => ?_) (ih hmembers.2)
          obtain rfl : lead = [] := hlead
          simp only [List.nil_append, List.cons_append, List.append_assoc]
          rw [bind_ok (advance_cons '"' _), bind_ok (passText_append hkey _),
            bind_ok (colon_append hws _)]
          exact hmembers.1 _ hspells _ _ hws' hrest

/-! ### Values -/

/-- What a number starts with is no other value's beginning. -/
theorem ne_of_numeral {c : Char} (h : c = '-' ∨ c.isDigit = true) :
    c ≠ 'n' ∧ c ≠ 't' ∧ c ≠ 'f' ∧ c ≠ '"' ∧ c ≠ '[' ∧ c ≠ '\x7b' := by
  refine ⟨?_, ?_, ?_, ?_, ?_, ?_⟩ <;> rintro rfl <;> exact absurd h (by decide)

/-- A numeral that means a finite number is read as that number. -/
theorem readNumber_of_meaning {n : Numeral} {x : Number} (h : n.meaning = x) (hx : IsFinite x)
    {rest : List Char} (hrest : Stops rest) : readNumber (n.chars ++ rest) = .ok (x, rest) := by
  have hmoderate : n.Moderate := by
    rw [← Numeral.isFinite_meaning_iff, h]
    exact hx
  rw [readNumber_chars n hrest, hmoderate.number_eq, h]
  rfl

/-- Scalars are read even where lists and objects may not occur. -/
theorem takes_valueWith_scalar (inside? : Option (Reader Value)) {v : Value}
    (hv : v.depth = 0) (hfinite : v.Finite) : Takes (valueWith inside?) v v := by
  intro cs hcs ws rest hws hrest
  unfold valueWith
  cases hcs with
  | null =>
      rw [List.cons_append, bind_ok (next?_cons hws rfl _)]
      exact bind_ok (word_append ['n', 'u', 'l', 'l'] rest) _
  | true =>
      rw [List.cons_append, bind_ok (next?_cons hws rfl _)]
      exact bind_ok (word_append ['t', 'r', 'u', 'e'] rest) _
  | false =>
      rw [List.cons_append, bind_ok (next?_cons hws rfl _)]
      exact bind_ok (word_append ['f', 'a', 'l', 's', 'e'] rest) _
  | @number n x h =>
      obtain ⟨c, cs, hchars, hc⟩ := n.chars_eq_cons
      -- None of the other beginnings is this one.
      obtain ⟨hnull, htrue, hfalse, hquote, hlist, hobject⟩ := ne_of_numeral hc
      have hread := readNumber_of_meaning h hfinite.isFinite hrest
      rw [hchars, List.cons_append] at hread ⊢
      rw [bind_ok (next?_cons hws (starts_of_numeral hc).1 _)]
      simp only [hc, reduceIte]
      rw [bind_ok hread]
      rfl
  | text h =>
      rw [List.cons_append, List.append_assoc, bind_ok (next?_cons hws rfl _)]
      exact (bind_ok (advance_cons '"' _) _).trans (bind_ok (readText_append h rest) _)
  | list _ _ => exact absurd hv (Nat.succ_ne_zero _)
  | object _ _ => exact absurd hv (Nat.succ_ne_zero _)

theorem takes_valueWith_list {inside : Reader Value} {items : List Value}
    (hitems : ∀ v ∈ items, Takes inside v v) :
    Takes (valueWith (some inside)) (.list items) (.list items) := by
  intro cs hcs ws rest hws hrest
  unfold valueWith
  cases hcs with
  | list hpieces hinner =>
      have hturns := turns_items hpieces (List.forall₂_same.mpr hitems) []
      rw [List.append_nil] at hturns
      rw [List.cons_append, List.append_assoc, bind_ok (next?_cons hws rfl _)]
      refine (bind_ok (advance_cons '[' _) _).trans ?_
      rw [List.singleton_append, bind_ok (loop_items asks_moreItems hturns hinner rest),
        bind_ok (endList_cons rest), List.reverse_reverse]
      rfl

theorem takes_valueWith_object {inside : Reader Value} {members : List (String × Value)}
    (hmembers : ∀ m ∈ members, Takes inside m.2 m.2) :
    Takes (valueWith (some inside)) (.object members) (.object members) := by
  intro cs hcs ws rest hws hrest
  unfold valueWith
  cases hcs with
  | object hpieces hinner =>
      have hturns := turns_members hpieces hmembers []
      rw [List.append_nil] at hturns
      rw [List.cons_append, List.append_assoc, bind_ok (next?_cons hws rfl _)]
      refine (bind_ok (advance_cons '\x7b' _) _).trans ?_
      rw [List.singleton_append, bind_ok (loop_members asks_moreMembers hturns hinner rest),
        bind_ok (endObject_cons rest), List.reverse_reverse]
      rfl

/-- Reading a value returns it, down to the levels that are allowed, if its numbers are
    finite. -/
theorem takes_value {levels : Nat} {v : Value} (h : v.depth ≤ levels) (hfinite : v.Finite) :
    Takes (value levels) v v := by
  induction levels generalizing v with
  | zero => exact takes_valueWith_scalar none (Nat.le_zero.mp h) hfinite
  | succ levels ih =>
      cases hfinite with
      | list hitems =>
          rw [depth_list_le] at h
          exact takes_valueWith_list fun v hv => ih (h v hv) (hitems v hv)
      | object hmembers =>
          rw [depth_object_le] at h
          exact takes_valueWith_object fun m hm => ih (h m hm) (hmembers m hm)
      | null => exact takes_valueWith_scalar _ rfl .null
      | boolean b => exact takes_valueWith_scalar _ rfl (.boolean b)
      | number hx => exact takes_valueWith_scalar _ rfl (.number hx)
      | text s => exact takes_valueWith_scalar _ rfl (.text s)

/-! ### Values passed over -/

theorem takes_passWith_scalar (inside : Reader Unit) {v : Value} (hv : v.depth = 0) :
    Takes (passWith inside) v () := by
  intro cs hcs ws rest hws hrest
  unfold passWith
  cases hcs with
  | null =>
      rw [List.cons_append, bind_ok (next?_cons hws rfl _)]
      exact word_append ['n', 'u', 'l', 'l'] rest
  | true =>
      rw [List.cons_append, bind_ok (next?_cons hws rfl _)]
      exact word_append ['t', 'r', 'u', 'e'] rest
  | false =>
      rw [List.cons_append, bind_ok (next?_cons hws rfl _)]
      exact word_append ['f', 'a', 'l', 's', 'e'] rest
  | @number n x h =>
      obtain ⟨c, cs, hchars, hc⟩ := n.chars_eq_cons
      obtain ⟨hnull, htrue, hfalse, hquote, hlist, hobject⟩ := ne_of_numeral hc
      have hpass := passNumber_chars n hrest
      rw [hchars, List.cons_append] at hpass ⊢
      rw [bind_ok (next?_cons hws (starts_of_numeral hc).1 _)]
      simp only [hc, reduceIte]
      exact hpass
  | text h =>
      rw [List.cons_append, List.append_assoc, bind_ok (next?_cons hws rfl _)]
      exact (bind_ok (advance_cons '"' _) _).trans (passText_append h rest)
  | list _ _ => exact absurd hv (Nat.succ_ne_zero _)
  | object _ _ => exact absurd hv (Nat.succ_ne_zero _)

theorem takes_passWith_list {inside : Reader Unit} {items : List Value}
    (hitems : ∀ v ∈ items, Takes inside v ()) : Takes (passWith inside) (.list items) () := by
  intro cs hcs ws rest hws hrest
  unfold passWith
  cases hcs with
  | list hpieces hinner =>
      have hturns := turns_passItems hpieces hitems
      rw [List.cons_append, List.append_assoc, bind_ok (next?_cons hws rfl _)]
      refine (bind_ok (advance_cons '[' _) _).trans ?_
      rw [List.singleton_append, bind_ok (loop_items asks_passMoreItems hturns hinner rest)]
      rfl

theorem takes_passWith_object {inside : Reader Unit} {members : List (String × Value)}
    (hmembers : ∀ m ∈ members, Takes inside m.2 ()) :
    Takes (passWith inside) (.object members) () := by
  intro cs hcs ws rest hws hrest
  unfold passWith
  cases hcs with
  | object hpieces hinner =>
      have hturns := turns_passMembers hpieces hmembers
      rw [List.cons_append, List.append_assoc, bind_ok (next?_cons hws rfl _)]
      refine (bind_ok (advance_cons '\x7b' _) _).trans ?_
      rw [List.singleton_append, bind_ok (loop_members asks_passMoreMembers hturns hinner rest)]
      rfl

theorem takes_passWithin {levels : Nat} {v : Value} (h : v.depth ≤ levels) :
    Takes (passWithin levels) v () := by
  induction levels generalizing v with
  | zero => exact takes_passWith_scalar _ (Nat.le_zero.mp h)
  | succ levels ih =>
      cases v with
      | list items =>
          rw [depth_list_le] at h
          exact takes_passWith_list fun v hv => ih (h v hv)
      | object members =>
          rw [depth_object_le] at h
          exact takes_passWith_object fun m hm => ih (h m hm)
      | _ => exact takes_passWith_scalar _ rfl

/-- Passing over a value never fails, however deep it is. -/
theorem takes_pass (v : Value) : Takes pass v () := by
  intro cs hcs ws rest hws hrest
  -- The levels to go are as many as the characters that are left.
  have hdepth : v.depth ≤ (ws ++ (cs ++ rest)).length := by
    have hle := hcs.depth_le_length
    simp only [List.length_append]
    omega
  exact takes_passWithin hdepth cs hcs ws rest hws hrest

/-! ### Values of a wanted type -/

/-- What is made of a result is made of it however the value was spelled. -/
theorem takes_map {β : Type} {reader : Reader α} {v : Value} {a : α} (h : Takes reader v a)
    (f : α → β) : Takes (do return f (← reader)) v (f a) := by
  intro cs hcs ws rest hws hrest
  rw [bind_ok (h cs hcs ws rest hws hrest)]
  rfl

theorem takes_text (s : String) : Takes text (.text s) s := by
  intro cs hcs ws rest hws hrest
  cases hcs with
  | text h =>
      rw [text, List.cons_append, List.append_assoc, bind_ok (next?_cons hws rfl _)]
      exact (bind_ok (advance_cons '"' _) _).trans (readText_append h rest)

theorem takes_integer {wanted : String} {narrow : Int → Option α} {n : Int} {a : α}
    (ha : narrow n = some a) : Takes (integer wanted narrow) (.number (.integer n)) a := by
  intro cs hcs ws rest hws hrest
  cases hcs with
  | @number m x h =>
      obtain ⟨c, cs, hchars, hc⟩ := m.chars_eq_cons
      have hread := readNumber_of_meaning h (isFinite_integer n) hrest
      rw [hchars, List.cons_append] at hread ⊢
      rw [integer, bind_ok (next?_cons hws (starts_of_numeral hc).1 _)]
      simp only [hc, reduceIte]
      rw [bind_ok hread]
      simp only [ha]
      rfl

theorem takes_nullable_null (reader : Reader α) : Takes (nullable reader) .null none := by
  intro cs hcs ws rest hws hrest
  cases hcs
  rw [nullable, List.cons_append, bind_ok (next?_cons hws rfl _)]
  exact bind_ok (word_append ['n', 'u', 'l', 'l'] rest) _

/-- Nothing but null starts like it. -/
theorem starts_of_ne_null {cs : List Char} {v : Value} (h : Spells cs v)
    (hv : v ≠ .null) : ∃ c cs', cs = c :: cs' ∧ isBlank c = false ∧ c ≠ 'n' := by
  cases h with
  | null => exact absurd rfl hv
  | @number n x h =>
      obtain ⟨c, cs, hchars, hc⟩ := n.chars_eq_cons
      exact ⟨c, cs, hchars, (starts_of_numeral hc).1, (ne_of_numeral hc).1⟩
  | _ => exact ⟨_, _, rfl, by decide, by decide⟩

theorem takes_nullable {reader : Reader α} {v : Value} {a : α} (hv : v ≠ .null)
    (h : Takes reader v a) : Takes (nullable reader) v (some a) := by
  intro cs hcs ws rest hws hrest
  obtain ⟨c, cs', rfl, hc, hn⟩ := starts_of_ne_null hcs hv
  -- The blanks are gone when the reader starts.
  have hread := h _ hcs [] rest blanks_nil hrest
  rw [List.nil_append, List.cons_append] at hread
  rw [nullable, List.cons_append, bind_ok (next?_cons hws hc _)]
  have hne : some c ≠ some 'n' := fun heq => hn (Option.some.inj heq)
  generalize some c = head at hne ⊢
  split
  case h_1 => exact absurd rfl hne
  case h_2 =>
    rw [bind_ok hread]
    rfl

theorem takes_list {item : Nat → Reader α} {levels : Nat} {items : List Value} {as : List α}
    (hitems : List.Forall₂ (Takes (item levels)) items as) :
    Takes (list item (levels + 1)) (.list items) as := by
  intro cs hcs ws rest hws hrest
  cases hcs with
  | list hpieces hinner =>
      have hturns := turns_items hpieces hitems []
      rw [List.append_nil] at hturns
      rw [list, List.cons_append, List.append_assoc, bind_ok (next?_cons hws rfl _)]
      refine (bind_ok (advance_cons '[' _) _).trans ?_
      rw [List.singleton_append, bind_ok (loop_items asks_moreItems hturns hinner rest),
        bind_ok (endList_cons rest), List.reverse_reverse]
      rfl

/-! ### Documents -/

/-- A whole text is read by what reads its value. -/
theorem document_eq {reader : Reader α} {v : Value} {a : α} (h : Takes reader v a)
    {text : List Char} (htext : Document text v) :
    document reader (String.ofList text) = .ok a := by
  obtain ⟨ws, cs, ws', hws, hws', hcs, rfl⟩ := htext
  -- A document is followed by blanks or by nothing, and either may follow a value.
  have hstops : Stops ws' := by
    intro c hc
    exact Or.inl (hws' c (List.mem_of_mem_head? hc))
  have hread := h cs hcs ws ws' hws hstops
  rw [document, String.toList_ofList]
  change ((reader >>= _) (ws ++ (cs ++ ws'))).map Prod.fst = _
  rw [bind_ok hread, bind_ok (next?_blanks hws')]
  rfl

end PanelSketch.Json
