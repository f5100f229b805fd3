import Mathlib.Data.List.TakeWhile
import PanelSketch.Json.Lexeme
import PanelSketch.Proofs.Text.Trimming

/-!
# Numerals

The grammar of JSON numbers: a sign, digits without leading zeros, a fraction, an
exponent. The grammar says nothing about size, but not every numeral stands for a
number. As many digits as fit a 64-bit word are scaled by a power of ten, both rounded
to 64 bits, and the result has to be finite.

What follows a numeral does not matter, as long as it cannot be taken for more of the
numeral. Passing over a numeral never fails, since it does not ask for the size.

## Main definitions

* `Stops`: What may follow a value.
* `Exponent`, `Numeral`: The grammar.
* `Numeral.number`: The number that a numeral stands for.

## Theorems

* `readNumber_chars`: A numeral is read as what it stands for, whatever follows.
* `passNumber_chars`: A numeral is passed over.
* `Numeral.number_ofInt`: Printed integers of 64 bits stand for themselves.
-/

namespace PanelSketch.Json

open Text (spanDigits)

/-! ### What may follow -/

/-- Whether a text starts with nothing that could belong to the value before it: it is
    empty or starts with a blank, a comma or a closing bracket. -/
def Stops (rest : List Char) : Prop :=
  ∀ c ∈ rest.head?, isBlank c = true ∨ c = ',' ∨ c = ']' ∨ c = '\x7d'

/-- Whether a numeral could go on with a character. -/
def extendsNumeral (c : Char) : Bool :=
  c.isDigit || c == '.' || c == 'e' || c == 'E'

theorem stops_cons {c : Char} {rest : List Char}
    (h : isBlank c = true ∨ c = ',' ∨ c = ']' ∨ c = '\x7d') : Stops (c :: rest) := by
  intro d hd
  rw [List.head?_cons, Option.mem_some_iff] at hd
  rwa [← hd]

theorem Stops.not_extends {rest : List Char} (h : Stops rest) :
    ∀ c ∈ rest.head?, extendsNumeral c = false := by
  intro c hc
  have hblank : isBlank c = true → c = ' ' ∨ c = '\t' ∨ c = '\n' ∨ c = '\r' := by
    simp [isBlank, or_assoc]
  rcases h c hc with hc | rfl | rfl | rfl
  · rcases hblank hc with rfl | rfl | rfl | rfl <;> decide
  · decide
  · decide
  · decide

theorem Stops.ne_cons {rest : List Char} (h : Stops rest) {c : Char}
    (hc : extendsNumeral c = true) (cs : List Char) : rest ≠ c :: cs := by
  rintro rfl
  rw [h.not_extends c rfl] at hc
  exact absurd hc (by decide)

/-! ### The grammar -/

/-- A run of digits that is not empty. -/
def IsDigits (cs : List Char) : Prop :=
  cs ≠ [] ∧ ∀ c ∈ cs, c.isDigit = true

instance : DecidablePred IsDigits := fun cs =>
  decidable_of_iff (cs ≠ [] ∧ cs.all Char.isDigit = true) (and_congr_right' List.all_eq_true)

/-- The exponent of a numeral: a letter, at most one sign, and digits. -/
structure Exponent where
  letter : Char
  sign : List Char
  digits : List Char
  letter_eq : letter = 'e' ∨ letter = 'E'
  sign_eq : sign = [] ∨ sign = ['+'] ∨ sign = ['-']
  isDigits : IsDigits digits

/-- The characters of an exponent. -/
def Exponent.chars (e : Exponent) : List Char :=
  e.letter :: (e.sign ++ e.digits)

/-- A number as it is written. -/
structure Numeral where
  negative : Bool
  whole : List Char
  /-- The digits behind the point; without any there is no point. -/
  fraction : List Char
  exponent : Option Exponent
  whole_isDigits : IsDigits whole
  /-- Only zero itself starts with a zero. -/
  whole_eq : whole = ['0'] ∨ whole.head? ≠ some '0'
  fraction_isDigit : ∀ c ∈ fraction, c.isDigit = true

namespace Numeral

/-- The characters of the exponent, if there is one. -/
def exponentChars (n : Numeral) : List Char :=
  n.exponent.elim [] Exponent.chars

/-- The characters behind the whole digits. -/
def tail (n : Numeral) : List Char :=
  if n.fraction = [] then n.exponentChars else '.' :: (n.fraction ++ n.exponentChars)

/-- The characters of a numeral. -/
def chars (n : Numeral) : List Char :=
  if n.negative then '-' :: (n.whole ++ n.tail) else n.whole ++ n.tail

end Numeral

/-! ### Meaning -/

/-- The number of a significand with an exponent whose digits are given. -/
def scaled (negative : Bool) (significand : Nat) (exponent : Int) (shrinks : Bool)
    (digits : List Char) : Except Fault Number :=
  let power : Int := Nat.ofDigitChars 10 digits 0
  if exponentLimit < power then
    if shrinks ∨ significand = 0 then .ok (.float negative .zero) else .error .numberTooLarge
  else floatNumber negative significand (if shrinks then exponent - power else exponent + power)

namespace Numeral

/-- The number of a significand, scaled by the exponent of a numeral. -/
def scale (n : Numeral) (significand : Nat) (exponent : Int) : Except Fault Number :=
  match n.exponent with
  | none => floatNumber n.negative significand exponent
  | some e => scaled n.negative significand exponent (e.sign == ['-']) e.digits

/-- The number that a numeral stands for, unless it is too large. Digits that no longer
    fit the significand only count as far as they move the point. -/
def number (n : Numeral) : Except Fault Number :=
  let (significand, dropped) := appendDigits 0 n.whole
  if n.fraction = [] then
    if n.exponent.isNone ∧ dropped = 0 then integerNumber n.negative significand
    else n.scale significand dropped
  else
    let (longer, dropped') := appendDigits significand n.fraction
    n.scale longer (dropped - (n.fraction.length - dropped' : Nat))

end Numeral

/-! ### Reading -/

theorem spanDigits_append {ds rest : List Char} (hds : ∀ c ∈ ds, c.isDigit = true)
    (hrest : ∀ c ∈ rest.head?, c.isDigit = false) : spanDigits (ds ++ rest) = (ds, rest) := by
  have htake : rest.takeWhile Char.isDigit = [] := by
    cases rest with
    | nil => rfl
    | cons c rest => simp [hrest c rfl]
  rw [spanDigits, List.takeWhile_append_of_pos hds, Text.dropWhile_append_of_stop hds hrest, htake,
    List.append_nil]

/-- A character that is a digit is no sign. -/
theorem ne_sign_of_isDigit {c : Char} (h : c.isDigit = true) : c ≠ '+' ∧ c ≠ '-' := by
  constructor
  · rintro rfl
    exact absurd h (by decide)
  · rintro rfl
    exact absurd h (by decide)

/-- Whatever follows a numeral is no digit. -/
theorem Stops.isDigit_head {rest : List Char} (h : Stops rest) :
    ∀ c ∈ rest.head?, c.isDigit = false := by
  intro c hc
  have hextends := h.not_extends c hc
  simp only [extendsNumeral, Bool.or_eq_false_iff] at hextends
  exact hextends.1.1.1

theorem readExponent_digits (negative : Bool) (significand : Nat) (exponent : Int)
    (shrinks : Bool) {digits rest : List Char} (hdigits : IsDigits digits) (hrest : Stops rest) :
    (match spanDigits (digits ++ rest) with
      | ([], []) => Except.error Fault.endInValue
      | ([], _ :: _) => .error .badNumber
      | (digits, rest) =>
        let power : Int := Nat.ofDigitChars 10 digits 0
        if exponentLimit < power then
          if shrinks ∨ significand = 0 then .ok (.float negative .zero, rest)
          else .error .numberTooLarge
        else do
          let scale := if shrinks then exponent - power else exponent + power
          let x ← floatNumber negative significand scale
          return (x, rest))
      = (scaled negative significand exponent shrinks digits).map fun x => (x, rest) := by
  rcases digits with _ | ⟨d, ds⟩
  · exact absurd rfl hdigits.1
  rw [spanDigits_append hdigits.2 hrest.isDigit_head]
  simp only [scaled]
  split
  · split
    · rfl
    · rfl
  · rfl

theorem readExponent_eq (negative : Bool) (significand : Nat) (exponent : Int) (e : Exponent)
    {rest : List Char} (hrest : Stops rest) :
    readExponent negative significand exponent (e.sign ++ e.digits ++ rest)
      = (scaled negative significand exponent (e.sign == ['-']) e.digits).map
          fun x => (x, rest) := by
  rcases e.sign_eq with hsign | hsign | hsign
  · have hdigits := readExponent_digits negative significand exponent false e.isDigits hrest
    rcases hds : e.digits with _ | ⟨d, ds⟩
    · exact absurd hds e.isDigits.1
    -- The first digit is no sign.
    have hd := ne_sign_of_isDigit (e.isDigits.2 d (hds ▸ List.mem_cons_self))
    rw [hds] at hdigits
    rw [hsign, List.nil_append, List.cons_append, readExponent]
    · exact hdigits
    · exact fun cs heq => hd.1 (List.cons.inj heq).1
    · exact fun cs heq => hd.2 (List.cons.inj heq).1
  · rw [hsign]
    exact readExponent_digits _ _ _ false e.isDigits hrest
  · rw [hsign]
    exact readExponent_digits _ _ _ true e.isDigits hrest

/-- A letter in front of an exponent leads to reading it. -/
theorem Exponent.chars_append (e : Exponent) (rest : List Char) :
    e.chars ++ rest = 'e' :: (e.sign ++ e.digits ++ rest)
      ∨ e.chars ++ rest = 'E' :: (e.sign ++ e.digits ++ rest) := by
  rcases e.letter_eq with h | h
  · exact Or.inl (by rw [chars, h, List.cons_append])
  · exact Or.inr (by rw [chars, h, List.cons_append])

theorem readAfterFraction_eq (n : Numeral) (significand : Nat) (exponent : Int) {rest : List Char}
    (hrest : Stops rest) :
    readAfterFraction n.negative significand exponent (n.exponentChars ++ rest)
      = (n.scale significand exponent).map fun x => (x, rest) := by
  unfold Numeral.exponentChars Numeral.scale
  rcases n.exponent with _ | e
  · rw [Option.elim_none, List.nil_append, readAfterFraction]
    · rfl
    · exact hrest.ne_cons (by decide)
    · exact hrest.ne_cons (by decide)
  · rw [← readExponent_eq n.negative significand exponent e hrest, Option.elim_some]
    rcases e.chars_append rest with h | h
    · rw [h]
      rfl
    · rw [h]
      rfl

/-- Digits end where an exponent or something else starts. -/
theorem isDigit_head_exponentChars (n : Numeral) {rest : List Char} (hrest : Stops rest) :
    ∀ c ∈ (n.exponentChars ++ rest).head?, c.isDigit = false := by
  unfold Numeral.exponentChars
  rcases n.exponent with _ | e
  · exact hrest.isDigit_head
  · intro c hc
    rw [Option.elim_some] at hc
    rcases e.chars_append rest with h | h
    · rw [h, List.head?_cons, Option.mem_some_iff] at hc
      rw [← hc]
      decide
    · rw [h, List.head?_cons, Option.mem_some_iff] at hc
      rw [← hc]
      decide

theorem readFraction_eq (n : Numeral) (hne : n.fraction ≠ []) (significand : Nat)
    (exponent : Int) {rest : List Char} (hrest : Stops rest) :
    readFraction n.negative significand exponent (n.fraction ++ n.exponentChars ++ rest)
      = (n.scale (appendDigits significand n.fraction).1
          (exponent - (n.fraction.length - (appendDigits significand n.fraction).2 : Nat))).map
            fun x => (x, rest) := by
  rw [← readAfterFraction_eq n _ _ hrest, readFraction, List.append_assoc,
    spanDigits_append n.fraction_isDigit (isDigit_head_exponentChars n hrest)]
  rcases hds : n.fraction with _ | ⟨d, ds⟩
  · exact absurd hds hne
  · rfl

/-- The whole digits end where the rest of a numeral or something else starts. -/
theorem isDigit_head_tail (n : Numeral) {rest : List Char} (hrest : Stops rest) :
    ∀ c ∈ (n.tail ++ rest).head?, c.isDigit = false := by
  rw [Numeral.tail]
  split
  · exact isDigit_head_exponentChars n hrest
  · intro c hc
    rw [List.cons_append, List.head?_cons, Option.mem_some_iff] at hc
    rw [← hc]
    decide

/-- What is read behind the whole digits of a numeral. -/
def readBehind (negative : Bool) (significand dropped : Nat) (cs : List Char) :
    Except Fault (Number × List Char) :=
  match cs with
  | '.' :: rest => readFraction negative significand dropped rest
  | 'e' :: rest | 'E' :: rest => readExponent negative significand dropped rest
  | rest =>
    if dropped = 0 then do return (← integerNumber negative significand, rest)
    else do return (← floatNumber negative significand dropped, rest)

theorem readMagnitude_eq (negative : Bool) (n : Numeral) {rest : List Char} (hrest : Stops rest) :
    readMagnitude negative (n.whole ++ (n.tail ++ rest))
      = readBehind negative (appendDigits 0 n.whole).1 (appendDigits 0 n.whole).2
          (n.tail ++ rest) := by
  rw [readMagnitude, spanDigits_append n.whole_isDigits.2 (isDigit_head_tail n hrest)]
  have hzero := n.whole_eq
  rcases hds : n.whole with _ | ⟨d, ds⟩
  · exact absurd hds n.whole_isDigits.1
  rw [hds] at hzero
  split
  case h_1 heq => exact absurd (Prod.mk.inj heq).1 (by simp)
  case h_2 heq => exact absurd (Prod.mk.inj heq).1 (by simp)
  case h_3 heq =>
    -- Several digits do not start with a zero.
    obtain ⟨rfl, rfl⟩ := List.cons.inj (Prod.mk.inj heq).1
    rcases hzero with h | h
    · exact absurd h (by simp)
    · exact absurd rfl h
  case h_4 heq =>
    obtain ⟨rfl, rfl⟩ := Prod.mk.inj heq
    rfl

theorem readBehind_tail (n : Numeral) {rest : List Char} (hrest : Stops rest) :
    readBehind n.negative (appendDigits 0 n.whole).1 (appendDigits 0 n.whole).2 (n.tail ++ rest)
      = n.number.map fun x => (x, rest) := by
  unfold Numeral.tail Numeral.number
  simp only
  split
  case isTrue =>
    unfold Numeral.exponentChars Numeral.scale
    rcases n.exponent with _ | e
    · rw [Option.elim_none, List.nil_append, readBehind]
      · simp only [Option.isNone_none, true_and]
        split
        · rfl
        · rfl
      · exact hrest.ne_cons (by decide)
      · exact hrest.ne_cons (by decide)
      · exact hrest.ne_cons (by decide)
    · simp only [Option.isNone_some, Bool.false_eq_true, false_and, if_false, Option.elim_some]
      rw [← readExponent_eq n.negative _ _ e hrest]
      rcases e.chars_append rest with h | h
      · rw [h]
        rfl
      · rw [h]
        rfl
  case isFalse hne => exact readFraction_eq n hne _ _ hrest

/-- A numeral is read as what it stands for, whatever follows. -/
theorem readNumber_chars (n : Numeral) {rest : List Char} (hrest : Stops rest) :
    readNumber (n.chars ++ rest) = n.number.map fun x => (x, rest) := by
  rw [← readBehind_tail n hrest, ← readMagnitude_eq n.negative n hrest, Numeral.chars]
  cases hneg : n.negative with
  | true =>
      rw [if_pos rfl, List.cons_append, List.append_assoc]
      rfl
  | false =>
      rw [if_neg (by decide), List.append_assoc]
      rcases hds : n.whole with _ | ⟨d, ds⟩
      · exact absurd hds n.whole_isDigits.1
      have hd := ne_sign_of_isDigit (n.whole_isDigits.2 d (hds ▸ List.mem_cons_self))
      rw [List.cons_append, readNumber]
      exact fun cs heq => hd.2 (List.cons.inj heq).1

/-! ### Passing over -/

theorem passExponent_eq (e : Exponent) {rest : List Char} (hrest : Stops rest) :
    passExponent (e.sign ++ e.digits ++ rest) = .ok rest := by
  have hdigits := spanDigits_append e.isDigits.2 hrest.isDigit_head
  rcases hds : e.digits with _ | ⟨d, ds⟩
  · exact absurd hds e.isDigits.1
  have hd := ne_sign_of_isDigit (e.isDigits.2 d (hds ▸ List.mem_cons_self))
  rw [hds] at hdigits
  rcases e.sign_eq with hsign | hsign | hsign
  · rw [hsign, List.nil_append, List.cons_append, passExponent]
    · rw [← List.cons_append, hdigits]
    · exact fun cs heq => hd.1 (List.cons.inj heq).1
    · exact fun cs heq => hd.2 (List.cons.inj heq).1
  · rw [hsign, List.append_assoc, List.singleton_append, passExponent, hdigits]
  · rw [hsign, List.append_assoc, List.singleton_append, passExponent, hdigits]

/-- What stands behind the digits of a numeral is no point and no letter, unless it
    belongs to the numeral. -/
theorem passFraction_stops {rest : List Char} (hrest : Stops rest) :
    passFraction rest = .ok rest := by
  rw [passFraction]
  · exact hrest.ne_cons (by decide)
  · exact hrest.ne_cons (by decide)
  · exact hrest.ne_cons (by decide)

theorem passFraction_exponentChars (n : Numeral) {rest : List Char} (hrest : Stops rest) :
    passFraction (n.exponentChars ++ rest) = .ok rest := by
  unfold Numeral.exponentChars
  rcases n.exponent with _ | e
  · exact passFraction_stops hrest
  · rw [← passExponent_eq e hrest, Option.elim_some]
    rcases e.chars_append rest with h | h
    · rw [h]
      rfl
    · rw [h]
      rfl

theorem passFraction_tail (n : Numeral) {rest : List Char} (hrest : Stops rest) :
    passFraction (n.tail ++ rest) = .ok rest := by
  have hexponent := passFraction_exponentChars n hrest
  rw [Numeral.tail]
  split
  case isTrue => exact hexponent
  case isFalse hne =>
    rw [List.cons_append, List.append_assoc, passFraction,
      spanDigits_append n.fraction_isDigit (isDigit_head_exponentChars n hrest)]
    rcases hds : n.fraction with _ | ⟨d, ds⟩
    · exact absurd hds hne
    unfold Numeral.exponentChars
    rcases n.exponent with _ | e
    · rw [Option.elim_none, List.nil_append]
      split
      case h_1 heq => exact absurd (Prod.mk.inj heq).1 (by simp)
      case h_2 heq => exact absurd (Prod.mk.inj heq).2 (hrest.ne_cons (by decide) _)
      case h_3 heq => exact absurd (Prod.mk.inj heq).2 (hrest.ne_cons (by decide) _)
      case h_4 heq => rw [(Prod.mk.inj heq).2]
    · rw [← passExponent_eq e hrest, Option.elim_some]
      rcases e.chars_append rest with h | h
      · rw [h]
        rfl
      · rw [h]
        rfl

theorem passNumber_whole (n : Numeral) {rest : List Char} (hrest : Stops rest) :
    (match spanDigits (n.whole ++ (n.tail ++ rest)) with
      | ([], _) => Except.error Fault.badNumber
      | ('0' :: _ :: _, _) => .error .badNumber
      | (_, rest) => do return ((), ← passFraction rest)) = .ok ((), rest) := by
  rw [spanDigits_append n.whole_isDigits.2 (isDigit_head_tail n hrest)]
  have hzero := n.whole_eq
  rcases hds : n.whole with _ | ⟨d, ds⟩
  · exact absurd hds n.whole_isDigits.1
  rw [hds] at hzero
  split
  case h_1 heq => exact absurd (Prod.mk.inj heq).1 (by simp)
  case h_2 heq =>
    obtain ⟨rfl, rfl⟩ := List.cons.inj (Prod.mk.inj heq).1
    rcases hzero with h | h
    · exact absurd h (by simp)
    · exact absurd rfl h
  case h_3 heq =>
    rw [← (Prod.mk.inj heq).2, passFraction_tail n hrest]
    rfl

/-- A numeral is passed over, however large it is. -/
theorem passNumber_chars (n : Numeral) {rest : List Char} (hrest : Stops rest) :
    passNumber (n.chars ++ rest) = .ok ((), rest) := by
  have hwhole := passNumber_whole n hrest
  rw [Numeral.chars]
  cases hneg : n.negative with
  | true =>
      rw [if_pos rfl, List.cons_append, List.append_assoc]
      exact hwhole
  | false =>
      rw [if_neg (by decide), List.append_assoc]
      rcases hds : n.whole with _ | ⟨d, ds⟩
      · exact absurd hds n.whole_isDigits.1
      have hd := ne_sign_of_isDigit (n.whole_isDigits.2 d (hds ▸ List.mem_cons_self))
      rw [hds] at hwhole
      rw [List.cons_append, passNumber]
      · exact hwhole
      · exact fun cs heq => hd.2 (List.cons.inj heq).1

/-! ### Integers -/

theorem appendDigits_of_le {ds : List Char} {significand : Nat}
    (h : Nat.ofDigitChars 10 ds significand ≤ significandLimit) :
    appendDigits significand ds = (Nat.ofDigitChars 10 ds significand, 0) := by
  induction ds generalizing significand with
  | nil => rfl
  | cons d ds ih =>
    -- Digits only make a number larger.
    have hle : significand * 10 + (d.toNat - '0'.toNat) ≤ significandLimit := by
      rw [Nat.ofDigitChars_cons, Nat.ofDigitChars_eq_ofDigitChars_zero] at h
      have hpow : 0 < 10 ^ ds.length := Nat.pow_pos (by decide)
      have hmul := Nat.le_mul_of_pos_left (10 * significand + (d.toNat - '0'.toNat)) hpow
      omega
    rw [Nat.ofDigitChars_cons, Nat.mul_comm 10] at h ⊢
    rw [appendDigits, if_pos hle, ih h]

theorem head?_toDigits {n : Nat} (h : 0 < n) : (Nat.toDigits 10 n).head? ≠ some '0' := by
  induction n using Nat.strongRecOn with
  | ind n ih =>
    by_cases hlt : n < 10
    · have hdigit : ∀ d < 10, 0 < d → [Nat.digitChar d].head? ≠ some '0' := by decide
      rw [Nat.toDigits_of_lt_base hlt]
      exact hdigit n hlt h
    · have hhead := ih (n / 10) (by omega) (by omega)
      rw [Nat.toDigits_of_base_le (by decide) (by omega)]
      rcases hds : Nat.toDigits 10 (n / 10) with _ | ⟨d, ds⟩
      · exact absurd hds Nat.toDigits_ne_nil
      · rwa [hds] at hhead

/-- The numeral of an integer. -/
def Numeral.ofInt (n : Int) : Numeral where
  negative := decide (n < 0)
  whole := Nat.toDigits 10 n.natAbs
  fraction := []
  exponent := none
  whole_isDigits := ⟨Nat.toDigits_ne_nil, fun _ hc =>
    Nat.isDigit_of_mem_toDigits (by decide) (by decide) hc⟩
  whole_eq := by
    rcases Nat.eq_zero_or_pos n.natAbs with h | h
    · exact Or.inl (by rw [h, Nat.toDigits_zero])
    · exact Or.inr (head?_toDigits h)
  fraction_isDigit := fun _ hc => absurd hc (by simp)

/-- Integers are printed as numerals. -/
theorem Numeral.chars_ofInt (n : Int) : (ofInt n).chars = n.repr.toList := by
  rcases n with n | n
  · simp [chars, ofInt, tail, exponentChars, Int.repr]
  · simp [chars, ofInt, tail, exponentChars, Int.repr]

theorem integerNumber_ofInt {n : Int} (hleast : -(negativeLimit : Int) ≤ n) :
    integerNumber (decide (n < 0)) n.natAbs = .ok (.integer n) := by
  rw [integerNumber]
  by_cases hneg : n < 0
  · rw [decide_eq_true hneg, if_pos rfl, if_neg (by omega)]
    rw [show -(n.natAbs : Int) = n by omega]
  · rw [decide_eq_false hneg, if_neg (by decide), show (n.natAbs : Int) = n by omega]

/-- Printed integers of 64 bits stand for themselves. -/
theorem Numeral.number_ofInt {n : Int} (hleast : -(negativeLimit : Int) ≤ n)
    (hgreatest : n ≤ significandLimit) : (ofInt n).number = .ok (.integer n) := by
  have hlimit : negativeLimit ≤ significandLimit := by decide
  have hdigits : appendDigits 0 (Nat.toDigits 10 n.natAbs) = (n.natAbs, 0) := by
    rw [appendDigits_of_le, Nat.ofDigitChars_ten_toDigits]
    rw [Nat.ofDigitChars_ten_toDigits]
    omega
  rw [← integerNumber_ofInt hleast]
  simp only [number, ofInt, hdigits, if_true, Option.isNone_none, and_self]

end PanelSketch.Json
