import PanelSketch.Json.Lexeme
import PanelSketch.Json.Printer

/-!
# Texts Between Quotes

A text can be written in many ways. Any character but the quote, the backslash
and the controls stands for itself, some have an escape of one letter, and every
character can be given by its code. A code beyond the sixteen bits that four digits
hold is written as two surrogates, and a surrogate by itself means nothing.

`Escaped` lists these ways, without saying which of them to choose. The printer
chooses one of them, and the reader takes them all.

## Main definitions

* `Escaped`: The ways to write a text between its quotes.

## Theorems

* `Escaped.readTextChars`: Every way is read as the text.
* `Escaped.passTextChars`: Every way is passed over.
* `escaped_quoteChars`: The printer's way is one of them.
-/

namespace PanelSketch.Json

open Text (hexNumber? hexWord)

/-- The ways to write a text between its quotes. -/
inductive Escaped : List Char → List Char → Prop
  | nil : Escaped [] []
  | plain {c : Char} {cs text : List Char} (hquote : c ≠ '"') (hbackslash : c ≠ '\\')
      (hcontrol : ¬ c.toNat < 0x20) (h : Escaped cs text) : Escaped (c :: cs) (c :: text)
  | short {e c : Char} {cs text : List Char} (hc : shortEscape? e = some c)
      (h : Escaped cs text) : Escaped ('\\' :: e :: cs) (c :: text)
  | code {a b c d : Char} {n : Nat} {cs text : List Char} (hn : hexNumber? [a, b, c, d] = some n)
      (hlow : isLowSurrogate n = false) (hhigh : isHighSurrogate n = false)
      (h : Escaped cs text) :
      Escaped ('\\' :: 'u' :: a :: b :: c :: d :: cs) (Char.ofNat n :: text)
  | pair {a b c d a' b' c' d' : Char} {high low : Nat} {cs text : List Char}
      (hn : hexNumber? [a, b, c, d] = some high) (hn' : hexNumber? [a', b', c', d'] = some low)
      (hhigh : isHighSurrogate high = true) (hlow : isLowSurrogate low = true)
      (h : Escaped cs text) :
      Escaped ('\\' :: 'u' :: a :: b :: c :: d :: '\\' :: 'u' :: a' :: b' :: c' :: d' :: cs)
        (pairChar high low :: text)

/-- A first half of a pair is no second half. -/
theorem isLowSurrogate_of_isHighSurrogate {n : Nat} (h : isHighSurrogate n = true) :
    isLowSurrogate n = false := by
  simp only [isHighSurrogate, Bool.and_eq_true, decide_eq_true_eq] at h
  simp only [isLowSurrogate, Bool.and_eq_false_iff, decide_eq_false_iff_not]
  omega

/-- The letter of a short escape does not announce a code. -/
theorem ne_u_of_shortEscape? {e c : Char} (h : shortEscape? e = some c) : e ≠ 'u' := by
  rintro rfl
  exact absurd h (by simp [shortEscape?])

/-- Every way to write a text is read as the text, up to the closing quote. -/
theorem Escaped.readTextChars {cs text : List Char} (h : Escaped cs text) (rest : List Char) :
    readTextChars (cs ++ '"' :: rest) = .ok (text, rest) := by
  induction h with
  | nil => rfl
  | @plain c cs text hquote hbackslash hcontrol _ ih =>
      rw [List.cons_append, Json.readTextChars, if_neg hcontrol, ih]
      · rfl
      all_goals simp [hquote, hbackslash]
  | @short e c cs text hc _ ih =>
      have hu := ne_u_of_shortEscape? hc
      rw [List.cons_append, List.cons_append, Json.readTextChars, hc]
      · simp only [ih]
        rfl
      all_goals simp [hu]
  | code hn hlow hhigh _ ih =>
      simp only [List.cons_append, Json.readTextChars, hn, hlow, hhigh, ih]
      rfl
  | pair hn hn' hhigh hlow _ ih =>
      simp only [List.cons_append, Json.readTextChars, hn, hn', hhigh, hlow,
        isLowSurrogate_of_isHighSurrogate hhigh, ih]
      rfl

/-- Every way to write a text is passed over, up to the closing quote. -/
theorem Escaped.passTextChars {cs text : List Char} (h : Escaped cs text) (rest : List Char) :
    passTextChars (cs ++ '"' :: rest) = .ok rest := by
  induction h with
  | nil => rfl
  | @plain c cs text hquote hbackslash hcontrol _ ih =>
      rw [List.cons_append, Json.passTextChars, if_neg hcontrol, ih]
      all_goals simp [hquote, hbackslash]
  | @short e c cs text hc _ ih =>
      have hu := ne_u_of_shortEscape? hc
      rw [List.cons_append, List.cons_append, Json.passTextChars, hc]
      · exact ih
      all_goals simp [hu]
  | code hn _ _ _ ih =>
      simp only [List.cons_append, Json.passTextChars, hn]
      exact ih
  | pair hn hn' _ _ _ ih =>
      simp only [List.cons_append, Json.passTextChars, hn, hn']
      exact ih

/-! ### Printing -/

/-- The codes of controls are read back. -/
theorem hexNumber?_hexWord : ∀ n < 0x20, hexNumber? (hexWord 4 n) = some n := by
  decide

theorem escaped_quoteChar (c : Char) {cs text : List Char} (h : Escaped cs text) :
    Escaped (quoteChar c ++ cs) (c :: text) := by
  unfold quoteChar
  split
  · exact .short rfl h
  · exact .short rfl h
  · exact .short rfl h
  · exact .short rfl h
  · exact .short rfl h
  · exact .short rfl h
  · exact .short rfl h
  case h_8 hquote hbackslash _ _ _ _ _ =>
    split
    case isTrue hcontrol =>
      have hn := hexNumber?_hexWord c.toNat hcontrol
      have hcode := Escaped.code hn (by simp [isLowSurrogate]; omega)
        (by simp [isHighSurrogate]; omega) h
      rwa [Char.ofNat_toNat] at hcode
    case isFalse hcontrol => exact .plain hquote hbackslash hcontrol h

/-- The printer writes a text in one of the ways it may be written in. -/
theorem escaped_quoteChars (text : List Char) : Escaped (quoteChars text) text := by
  induction text with
  | nil => exact .nil
  | cons c text ih => exact escaped_quoteChar c ih

end PanelSketch.Json
