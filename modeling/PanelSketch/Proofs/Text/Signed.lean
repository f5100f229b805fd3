import PanelSketch.Text.Blank
import PanelSketch.Text.Numeral

/-!
# Integers in Text

An integer is written with digits and with at most one sign before them. It need not be the
shortest such text: zeros may stand in front, and so may a plus sign. A reader that narrows
its result to a word accepts exactly the texts of the integers that fit the word, because
the value is exact before it is narrowed.

Printed integers are texts of this kind, and there are no blanks in them to trim.

## Main definitions

* `Text.Digits`: A run of digits that is not empty, and its value.
* `Text.WritesInteger`: A text that writes an integer.

## Theorems

* `Text.integer?_eq_some_iff`: What is read is what has been written.
* `Text.pixels?_eq_some_iff`: So it is for a word, within its range.
* `Text.writesInteger_repr`, `Text.trim_repr`: Printed integers.
-/

namespace PanelSketch.Text

/-- A run of ASCII digits that is not empty, and its value. -/
structure Digits (cs : List Char) (n : Nat) : Prop where
  ne_nil : cs ≠ []
  isDigit : ∀ c ∈ cs, c.isDigit = true
  value : n = Nat.ofDigitChars 10 cs 0

/-- A text that writes an integer: digits with at most one sign before them. -/
inductive WritesInteger : List Char → Int → Prop
  | plain {cs : List Char} {n : Nat} (hdigits : Digits cs n) : WritesInteger cs n
  | plus {cs : List Char} {n : Nat} (hdigits : Digits cs n) : WritesInteger ('+' :: cs) n
  | minus {cs : List Char} {n : Nat} (hdigits : Digits cs n) : WritesInteger ('-' :: cs) (-n)

/-! ### Reading -/

theorem natural?_eq_some_iff {cs : List Char} {n : Nat} :
    natural? cs = some n ↔ Digits cs n := by
  rw [natural?]
  constructor
  · intro h
    split at h
    case isTrue hcs => exact ⟨hcs.1, List.all_eq_true.mp hcs.2, (Option.some.inj h).symm⟩
    case isFalse => exact absurd h (by simp only [reduceCtorEq, not_false_eq_true])
  · intro h
    rw [if_pos ⟨h.ne_nil, List.all_eq_true.mpr h.isDigit⟩, h.value]

/-- Signs are no digits, so a run of digits is read as one. -/
theorem Digits.integer?_eq {cs : List Char} {n : Nat} (h : Digits cs n) :
    integer? cs = some (n : Int) := by
  unfold integer?
  split
  · exact absurd (h.isDigit '-' List.mem_cons_self) (by decide)
  · exact absurd (h.isDigit '+' List.mem_cons_self) (by decide)
  · rw [natural?_eq_some_iff.mpr h]
    rfl

/-- What is read is what has been written. -/
theorem integer?_eq_some_iff {cs : List Char} {n : Int} :
    integer? cs = some n ↔ WritesInteger cs n := by
  constructor
  · intro h
    unfold integer? at h
    split at h
    · rcases Option.map_eq_some_iff.mp h with ⟨m, hm, rfl⟩
      rcases Option.bind_eq_some_iff.mp hm with ⟨k, hk, hcast⟩
      rw [← Option.some.inj hcast]
      exact .minus (natural?_eq_some_iff.mp hk)
    · rcases Option.map_eq_some_iff.mp h with ⟨m, hm, rfl⟩
      exact .plus (natural?_eq_some_iff.mp hm)
    · rcases Option.map_eq_some_iff.mp h with ⟨m, hm, rfl⟩
      exact .plain (natural?_eq_some_iff.mp hm)
  · rintro (hdigits | hdigits | hdigits)
    · exact hdigits.integer?_eq
    · rw [integer?, natural?_eq_some_iff.mpr hdigits]
      rfl
    · rw [integer?, natural?_eq_some_iff.mpr hdigits]
      rfl

/-- Every word is in the range of words. -/
theorem pixelsOfInt?_toInt (x : Int32) : pixelsOfInt? x.toInt = some x := by
  -- A word is in range because it is one, so narrowing its value gives it back.
  have hleast := x.le_toInt
  have hgreatest := x.toInt_lt
  rw [pixelsOfInt?, if_pos ⟨by rw [leastPixels]; omega, by rw [greatestPixels]; omega⟩,
    Int32.ofInt_toInt]

/-- A word is read from exactly the texts that write its value. -/
theorem pixels?_eq_some_iff {s : String} {x : Int32} :
    pixels? s = some x ↔ WritesInteger s.toList x.toInt := by
  rw [pixels?, Option.bind_eq_some_iff, ← integer?_eq_some_iff]
  constructor
  · rintro ⟨n, hn, hx⟩
    rw [hn, toInt_of_pixelsOfInt? hx]
  · exact fun h => ⟨x.toInt, h, pixelsOfInt?_toInt x⟩

/-! ### Printing -/

theorem digits_repr (n : Nat) : Digits n.repr.toList n :=
  natural?_eq_some_iff.mp (natural?_repr n)

theorem writesInteger_repr (n : Int) : WritesInteger n.repr.toList n := by
  cases n with
  | ofNat n => exact .plain (digits_repr n)
  | negSucc n =>
      have hchars : (Int.negSucc n).repr.toList = '-' :: (n + 1).repr.toList := by
        rw [Int.repr, String.toList_append]
        rfl
      rw [hchars, Int.negSucc_eq]
      exact .minus (digits_repr (n + 1))

theorem isBlank_of_isDigit {c : Char} (h : c.isDigit = true) : isBlank c = false := by
  have hcode : 48 ≤ c.toNat ∧ c.toNat ≤ 57 := by
    rw [Char.isDigit, Bool.and_eq_true, decide_eq_true_eq, decide_eq_true_eq] at h
    exact h
  simp only [isBlank, blankRanges, List.any_cons, List.any_nil, Bool.or_false, Bool.or_eq_false_iff,
    Bool.and_eq_false_iff, decide_eq_false_iff_not]
  omega

theorem WritesInteger.isBlank {cs : List Char} {n : Int} (h : WritesInteger cs n) :
    ∀ c ∈ cs, isBlank c = false := by
  -- Neither the digits nor the sign is blank.
  have hdigits {cs : List Char} {n : Nat} (h : Digits cs n) : ∀ c ∈ cs, Text.isBlank c = false :=
    fun c hc => isBlank_of_isDigit (h.isDigit c hc)
  cases h with
  | plain h => exact hdigits h
  | plus h => exact List.forall_mem_cons.mpr ⟨by decide, hdigits h⟩
  | minus h => exact List.forall_mem_cons.mpr ⟨by decide, hdigits h⟩

/-- Without blanks there is nothing to trim. -/
theorem trim_eq_self {s : String} (h : ∀ c ∈ s.toList, isBlank c = false) : trim s = s := by
  have hdrop {cs : List Char} (hcs : ∀ c ∈ cs, isBlank c = false) : cs.dropWhile isBlank = cs := by
    rcases cs with _ | ⟨c, cs⟩
    · rfl
    · rw [List.dropWhile_cons, hcs c List.mem_cons_self, if_neg Bool.false_ne_true]
  rw [trim, trimChars, hdrop h, hdrop fun c hc => h c (List.mem_reverse.mp hc), List.reverse_reverse,
    String.ofList_toList]

theorem trim_repr (n : Int) : trim n.repr = n.repr :=
  trim_eq_self (writesInteger_repr n).isBlank

end PanelSketch.Text
