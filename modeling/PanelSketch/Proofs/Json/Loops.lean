import PanelSketch.Json.Record
import PanelSketch.Proofs.Json.Spelling

/-!
# Loops Over Pieces

Lists and objects are read by one loop, whether their items and members are kept or
passed over, so there is one lemma about it. It asks two things: that the question of
the loop tells a piece from the closing bracket, which is `Asks`, and that each turn
reads one piece, which is `Turns`. Every turn takes a character, so the loop is never
cut short by its count.

A reader is run on a text whose grammar is known, and what it returns follows from
the grammar. `Reads` says so of a piece of text, and `Takes` of a value: however the
value is written, whatever blanks stand before it and whatever follows, the reader
returns one result and leaves what follows.

## Main definitions

* `Reads`, `Takes`: A reader run on a piece of text, and on a value.
* `Punctuation`, `Asks`, `Turns`: What a loop asks and does.

## Theorems

* `asks_moreItems`, `asks_moreMembers`, `asks_passMoreItems`,
  `asks_passMoreMembers`: The four questions.
* `loop_enumerated`: A loop reads pieces up to the closing bracket.
-/

namespace PanelSketch.Json

variable {α β σ : Type}

/-! ### Running readers -/

theorem bind_ok {x : Reader α} {cs cs' : List Char} {a : α} (h : x cs = .ok (a, cs'))
    (f : α → Reader β) : (x >>= f) cs = f a cs' := by
  change (x cs >>= fun p => f p.1 p.2) = f a cs'
  rw [h]
  rfl

theorem next?_cons {ws : List Char} {c : Char} (hws : Blanks ws) (hc : isBlank c = false)
    (rest : List Char) : next? (ws ++ c :: rest) = .ok (some c, c :: rest) := by
  have hdrop : (ws ++ c :: rest).dropWhile isBlank = c :: rest :=
    Text.dropWhile_append_of_stop hws (by simpa using hc)
  change Except.ok (((ws ++ c :: rest).dropWhile isBlank).head?,
    (ws ++ c :: rest).dropWhile isBlank) = _
  rw [hdrop]
  rfl

theorem next?_here {c : Char} (hc : isBlank c = false) (rest : List Char) :
    next? (c :: rest) = .ok (some c, c :: rest) :=
  next?_cons blanks_nil hc rest

theorem next?_blanks {ws : List Char} (hws : Blanks ws) : next? ws = .ok (none, []) := by
  have hdrop : ws.dropWhile isBlank = [] := by
    have hstop : ∀ c ∈ ([] : List Char).head?, isBlank c = false := by simp
    simpa using Text.dropWhile_append_of_stop hws hstop
  change Except.ok ((ws.dropWhile isBlank).head?, ws.dropWhile isBlank) = _
  rw [hdrop]
  rfl

theorem advance_cons (c : Char) (rest : List Char) : advance (c :: rest) = .ok ((), rest) := rfl

theorem word_append (cs rest : List Char) : word cs (cs ++ rest) = .ok ((), rest) := by
  induction cs with
  | nil => rfl
  | cons c cs ih =>
      rw [← ih, word]
      change (if c = c then _ else _ : Reader Unit) (c :: (cs ++ rest)) = _
      rw [if_pos rfl]
      rfl

/-! ### Pieces and values -/

/-- Whether a reader reads a piece of text, behind blanks, and leaves what follows. -/
def Reads (reader : Reader α) (piece : List Char) (a : α) : Prop :=
  ∀ ws rest, Blanks ws → Stops rest → reader (ws ++ (piece ++ rest)) = .ok (a, rest)

/-- Whether a reader reads a value in whatever way it is spelled. -/
def Takes (reader : Reader α) (v : Value) (a : α) : Prop :=
  ∀ cs, Spells cs v → Reads reader cs a

/-! ### Loops -/

/-- What separates the pieces between two brackets: the closing bracket, what a piece
    starts with, and what a question may leave in front of it. -/
structure Punctuation where
  closing : Char
  starts : Char → Prop
  lead : List Char → Prop
  closing_eq : closing = ']' ∨ closing = '\x7d'

/-- The punctuation of lists. -/
def itemPunctuation : Punctuation := ⟨']', Starts, Blanks, Or.inl rfl⟩

/-- The punctuation of objects, where nothing is left in front of a key. -/
def memberPunctuation : Punctuation := ⟨'\x7d', (· = '"'), (· = []), Or.inr rfl⟩

/-- Whether a question tells pieces from the closing bracket. -/
structure Asks (more : Bool → Reader Bool) (p : Punctuation) : Prop where
  ends : ∀ (first : Bool) (ws rest : List Char), Blanks ws →
    more first (ws ++ p.closing :: rest) = .ok (false, p.closing :: rest)
  opens : ∀ (ws : List Char) (c : Char) (rest : List Char), Blanks ws → p.starts c →
    ∃ ws', p.lead ws' ∧ more true (ws ++ c :: rest) = .ok (true, ws' ++ c :: rest)
  goesOn : ∀ (ws ws' : List Char) (c : Char) (rest : List Char), Blanks ws → Blanks ws' →
    p.starts c → ∃ ws'', p.lead ws'' ∧
      more false (ws ++ ',' :: (ws' ++ c :: rest)) = .ok (true, ws'' ++ c :: rest)

/-- Whether the turns of a loop read pieces, one after the other. -/
inductive Turns (p : Punctuation) (step : σ → Reader σ) : σ → List (List Char) → σ → Prop
  | nil {s : σ} : Turns p step s [] s
  | cons {s s' t : σ} {c : Char} {piece : List Char} {pieces : List (List Char)}
      (hc : p.starts c)
      (h : ∀ ws rest, p.lead ws → Stops rest →
        step s (ws ++ (c :: piece ++ rest)) = .ok (s', rest))
      (hs : Turns p step s' pieces t) : Turns p step s ((c :: piece) :: pieces) t

theorem asks_moreItems : Asks moreItems itemPunctuation where
  ends first ws rest hws := by
    rw [moreItems, bind_ok (next?_cons hws rfl rest)]
    rfl
  opens ws c rest hws hc := by
    refine ⟨[], blanks_nil, ?_⟩
    rw [moreItems, bind_ok (next?_cons hws hc.1 rest)]
    simp only [hc.2.1, if_true, imp_self]
    rfl
  goesOn ws ws' c rest hws hws' hc := by
    refine ⟨[], blanks_nil, ?_⟩
    rw [moreItems, bind_ok (next?_cons hws rfl (ws' ++ c :: rest))]
    simp only [Char.reduceEq, imp_self, Bool.false_eq_true, reduceIte]
    rw [bind_ok (advance_cons ',' _)]
    rw [bind_ok (next?_cons hws' hc.1 rest)]
    simp only [hc.2.1, imp_self]
    rfl

theorem asks_passMoreItems : Asks passMoreItems itemPunctuation where
  ends first ws rest hws := by
    rw [passMoreItems, bind_ok (next?_cons hws rfl rest)]
    rfl
  opens ws c rest hws hc := by
    refine ⟨[], blanks_nil, ?_⟩
    rw [passMoreItems, bind_ok (next?_cons hws hc.1 rest)]
    simp only [hc.2.1, imp_self, reduceIte]
    rfl
  goesOn ws ws' c rest hws hws' hc := by
    -- Nothing is looked at behind the comma, so the blanks there are left.
    refine ⟨ws', hws', ?_⟩
    rw [passMoreItems, bind_ok (next?_cons hws rfl (ws' ++ c :: rest))]
    rfl

theorem asks_moreMembers : Asks moreMembers memberPunctuation where
  ends first ws rest hws := by
    rw [moreMembers, bind_ok (next?_cons hws rfl rest)]
    rfl
  opens ws c rest hws hc := by
    obtain rfl : c = '"' := hc
    refine ⟨[], rfl, ?_⟩
    rw [moreMembers, bind_ok (next?_cons hws rfl rest)]
    rfl
  goesOn ws ws' c rest hws hws' hc := by
    obtain rfl : c = '"' := hc
    refine ⟨[], rfl, ?_⟩
    rw [moreMembers, bind_ok (next?_cons hws rfl (ws' ++ '"' :: rest))]
    simp only [Char.reduceEq, imp_self, Bool.false_eq_true, reduceIte]
    rw [bind_ok (advance_cons ',' _)]
    rw [bind_ok (next?_cons hws' rfl rest)]
    rfl

theorem asks_passMoreMembers : Asks passMoreMembers memberPunctuation where
  ends first ws rest hws := by
    rw [passMoreMembers, bind_ok (next?_cons hws rfl rest)]
    rfl
  opens ws c rest hws hc := by
    obtain rfl : c = '"' := hc
    refine ⟨[], rfl, ?_⟩
    rw [passMoreMembers, bind_ok (next?_cons hws rfl rest)]
    rfl
  goesOn ws ws' c rest hws hws' hc := by
    obtain rfl : c = '"' := hc
    refine ⟨[], rfl, ?_⟩
    rw [passMoreMembers, bind_ok (next?_cons hws rfl (ws' ++ '"' :: rest))]
    simp only [Char.reduceEq, imp_self, Bool.false_eq_true, not_false_eq_true, and_self, reduceIte]
    rw [bind_ok (advance_cons ',' _)]
    rw [bind_ok (next?_cons hws' rfl rest)]
    rfl

theorem Following.stops {pieces : List (List Char)} {text : List Char} (h : Following pieces text)
    {closing : Char} (hclosing : closing = ']' ∨ closing = '\x7d') (rest : List Char) :
    Stops (text ++ closing :: rest) := by
  have hblank : ∀ {ws : List Char} {c : Char} (rest : List Char), Blanks ws →
      (isBlank c = true ∨ c = ',' ∨ c = ']' ∨ c = '\x7d') → Stops (ws ++ c :: rest) := by
    intro ws c rest hws hc
    rcases ws with _ | ⟨d, ws⟩
    · exact stops_cons hc
    · exact stops_cons (Or.inl (hws d List.mem_cons_self))
  cases h with
  | nil hws => exact hblank rest hws (by tauto)
  | cons hws hws' h =>
      rw [List.append_assoc, List.cons_append]
      exact hblank _ hws (Or.inr (Or.inl rfl))

variable {more : Bool → Reader Bool} {step : σ → Reader σ} {p : Punctuation}

theorem loopFor_following (hasks : Asks more p) {s t : σ} {pieces : List (List Char)}
    {text : List Char} (hturns : Turns p step s pieces t) (htext : Following pieces text)
    {count : Nat} (hcount : pieces.length < count) (rest : List Char) :
    loopFor more step count false s (text ++ p.closing :: rest)
      = .ok (t, p.closing :: rest) := by
  -- Each turn takes one from the count, so the count is general, like the text that is left.
  induction hturns generalizing text count with
  | nil =>
      cases htext with
      | nil hws =>
          rcases count with _ | count
          · exact absurd hcount (Nat.lt_irrefl 0)
          rw [loopFor, bind_ok (hasks.ends false _ rest hws)]
          rfl
  | @cons s s' t c piece pieces hc h _ ih =>
      cases htext with
      | @cons ws ws' _ text _ hws hws' htext =>
          rcases count with _ | count
          · exact absurd hcount (Nat.not_lt_zero _)
          rcases hasks.goesOn ws ws' c (piece ++ (text ++ p.closing :: rest)) hws hws' hc
            with ⟨lead, hlead, hmore⟩
          have hstep := h lead _ hlead (htext.stops p.closing_eq rest)
          rw [List.length_cons, Nat.add_lt_add_iff_right] at hcount
          simp only [List.append_assoc, List.cons_append] at hmore hstep ⊢
          rw [loopFor, bind_ok hmore]
          change (step s >>= _) _ = _
          rw [bind_ok hstep]
          exact ih htext hcount

/-- A loop reads the pieces that it is made for, up to the closing bracket. -/
theorem loop_enumerated (hasks : Asks more p) {s t : σ} {pieces : List (List Char)}
    {text : List Char} (hturns : Turns p step s pieces t) (htext : Enumerated pieces text)
    (rest : List Char) :
    loop more step s (text ++ p.closing :: rest) = .ok (t, p.closing :: rest) := by
  change loopFor more step ((text ++ p.closing :: rest).length + 1) true s
    (text ++ p.closing :: rest) = _
  cases htext with
  | nil hws =>
      cases hturns
      rw [loopFor, bind_ok (hasks.ends true _ rest hws)]
      rfl
  | @cons ws piece text pieces hws htext =>
      cases hturns with
      | @cons _ s' _ c piece _ hc h hturns =>
          rcases hasks.opens ws c (piece ++ (text ++ p.closing :: rest)) hws hc
            with ⟨lead, hlead, hmore⟩
          have hstep := h lead _ hlead (htext.stops p.closing_eq rest)
          -- There are more characters than pieces, so the count lasts.
          have hcount : pieces.length < (ws ++ (c :: piece ++ text) ++ p.closing :: rest).length := by
            have hle := htext.length_le.1
            simp only [List.length_append, List.length_cons]
            omega
          generalize (ws ++ (c :: piece ++ text) ++ p.closing :: rest).length = count at hcount
          simp only [List.append_assoc, List.cons_append] at hmore hstep ⊢
          rw [loopFor, bind_ok hmore]
          change (step s >>= _) _ = _
          rw [bind_ok hstep]
          exact loopFor_following hasks hturns htext hcount rest

theorem loop_items (hasks : Asks more itemPunctuation) {s t : σ} {pieces : List (List Char)}
    {text : List Char} (hturns : Turns itemPunctuation step s pieces t)
    (htext : Enumerated pieces text) (rest : List Char) :
    loop more step s (text ++ ']' :: rest) = .ok (t, ']' :: rest) :=
  loop_enumerated hasks hturns htext rest

theorem loop_members (hasks : Asks more memberPunctuation) {s t : σ}
    {pieces : List (List Char)} {text : List Char}
    (hturns : Turns memberPunctuation step s pieces t) (htext : Enumerated pieces text)
    (rest : List Char) : loop more step s (text ++ '\x7d' :: rest) = .ok (t, '\x7d' :: rest) :=
  loop_enumerated hasks hturns htext rest

end PanelSketch.Json
