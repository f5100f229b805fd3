import Mathlib.Tactic.Linarith
import Mathlib.Tactic.NormNum
import PanelSketch.Proofs.Json.Numeral
import PanelSketch.Proofs.Number.Rounding

/-!
# The Range of Numerals

The grammar of numerals says nothing about size, and not every numeral that is within
the range of 64 bits is read. Digits are cut off where a significand is full, then the
significand and a power of ten are rounded apart, and their product is rounded again;
just below the greatest finite number that leads beyond it.

`sizeLimit` is where this starts. Every numeral below it is read, whatever its digits
and wherever its point: cutting off digits only makes a number smaller, and rounding
keeps the order, so it is enough to compute the greatest significand that may come with
each power of ten.

A numeral at or above the limit is said to mean an infinity. Where numbers are only
passed over, such a numeral is as good as any other.

## Main definitions

* `Numeral.magnitude`: The number that is written, without its sign.
* `Numeral.Moderate`: The numerals that are always read.
* `Numeral.meaning`: The number that a numeral means.
* `Value.Finite`: A value without infinities.

## Theorems

* `exists_floatNumber`: A significand is scaled without harm below the limit.
* `significand_le`: Cutting off digits makes a number smaller.
* `Numeral.Moderate.exists_number`: A moderate numeral stands for a finite number.
* `Numeral.isFinite_meaning_iff`: Moderate numerals are those that mean a finite number.
* `Numeral.meaning_ofInt`: Printed integers of 64 bits mean themselves.
-/

namespace PanelSketch.Json

open Binary64 (greatestExponent ofNat? powerOfTen scaleDecimal?)

/-! ### Magnitudes -/

/-- The power of ten that an exponent stands for. -/
def Exponent.power (e : Exponent) : Int :=
  if e.sign = ['-'] then -(Nat.ofDigitChars 10 e.digits 0 : Int)
  else Nat.ofDigitChars 10 e.digits 0

namespace Numeral

/-- The power of ten behind the digits of a numeral. -/
def power (n : Numeral) : Int :=
  n.exponent.elim 0 Exponent.power

/-- All digits of a numeral as one number, without the point. -/
def digits (n : Numeral) : Nat :=
  Nat.ofDigitChars 10 (n.whole ++ n.fraction) 0

/-- The number that is written, without its sign. -/
def magnitude (n : Numeral) : ℚ :=
  n.digits * 10 ^ (n.power - n.fraction.length)

end Numeral

/-- The least magnitude that some numeral is too large at. It is below the greatest
    finite number of 64 bits. -/
def sizeLimit : Nat :=
  17976931348623156225 * 10 ^ 289

/-- Whether a numeral is below the limit, and its exponent is one of 32 bits unless it
    is zero anyway. -/
structure Numeral.Moderate (n : Numeral) : Prop where
  size : n.magnitude < sizeLimit
  power : n.power ≤ exponentLimit ∨ n.magnitude = 0

instance : DecidablePred Numeral.Moderate := fun n =>
  decidable_of_iff (n.magnitude < sizeLimit ∧ (n.power ≤ exponentLimit ∨ n.magnitude = 0))
    ⟨fun h => ⟨h.1, h.2⟩, fun h => ⟨h.size, h.power⟩⟩

/-! ### Infinities -/

/-- What lies beyond the finite numbers: the first power of two that is not one of
    them. -/
def infinite (negative : Bool) : Number :=
  .float negative ⟨powerOf 2 53, greatestExponent⟩

/-- Whether a number is no infinity. -/
def IsFinite (x : Number) : Prop :=
  ∀ negative, x ≠ infinite negative

theorem isFinite_integer (n : Int) : IsFinite (.integer n) := by
  intro negative h
  exact absurd h (by simp [infinite])

theorem isFinite_float {x : Binary64} (h : x.mantissa ≠ powerOf 2 53) (negative : Bool) :
    IsFinite (.float negative x) := by
  intro negative' heq
  obtain ⟨-, rfl⟩ := Number.float.inj heq
  exact h rfl

/-- Whether all numbers of a value are finite. -/
inductive Value.Finite : Value → Prop
  | null : Finite .null
  | boolean (b : Bool) : Finite (.boolean b)
  | number {x : Number} (h : IsFinite x) : Finite (.number x)
  | text (s : String) : Finite (.text s)
  | list {items : List Value} (h : ∀ v ∈ items, Finite v) : Finite (.list items)
  | object {members : List (String × Value)} (h : ∀ m ∈ members, Finite m.2) :
      Finite (.object members)

theorem Value.Finite.isFinite {x : Number} (h : (Value.number x).Finite) : IsFinite x := by
  cases h with
  | number h => exact h

/-! ### Scaling -/

/-- The greatest significand that stays below the limit with a power of ten. -/
def largestAt (power : Nat) : Nat :=
  min significandLimit ((sizeLimit - 1) / powerOf 10 power)

/-- The greatest significands are scaled without harm. Up to the first of these powers
    every significand stays below the limit. -/
theorem isSome_largestAt :
    ∀ j < 21, ((ofNat? (largestAt (288 + j))).bind (·.mul? (powerOfTen (288 + j)))).isSome := by
  decide +kernel

theorem le_largestAt {s k : Nat} (hs : s ≤ significandLimit) (h : s * powerOf 10 k < sizeLimit) :
    s ≤ largestAt (max k 288) := by
  rcases Nat.le_total k 288 with hk | hk
  · rw [Nat.max_eq_right hk]
    exact Nat.le_trans hs (by decide +kernel)
  · have hpos : 0 < powerOf 10 k := Nat.pow_pos (by decide)
    rw [Nat.max_eq_left hk]
    refine Nat.le_min.mpr ⟨hs, ?_⟩
    rw [Nat.le_div_iff_mul_le hpos]
    omega

theorem exists_product {s k : Nat} (hs : s ≤ significandLimit)
    (h : s * powerOf 10 k < sizeLimit) (hk : k ≤ 308) :
    ∃ y, (ofNat? s).bind (·.mul? (powerOfTen k)) = some y := by
  have hsome := isSome_largestAt (max k 288 - 288) (by omega)
  rw [Nat.add_sub_cancel' (Nat.le_max_right k 288)] at hsome
  obtain ⟨y, hy⟩ := Option.isSome_iff_exists.mp hsome
  obtain ⟨x', hx', hmul⟩ := Option.bind_eq_some_iff.mp hy
  -- Neither the significand nor the power is greater than in a product that was computed.
  obtain ⟨x, hx, hvalue⟩ := Binary64.exists_ofNat?_of_le (le_largestAt hs h) hx'
  have hpower := Binary64.value_powerOfTen_mono (Nat.le_max_left k 288) (by omega)
  obtain ⟨z, hz⟩ := Binary64.exists_mul?_of_le hvalue hpower hmul
  exact ⟨z, Option.bind_eq_some_iff.mpr ⟨x, hx, hz⟩⟩

/-- Scaling up never fails below the limit. -/
theorem exists_scaled_up {s : Nat} (hs : s ≤ significandLimit) {e : Int} (he : 0 ≤ e)
    (h : (s : ℚ) * 10 ^ e < sizeLimit) : ∃ y, (ofNat? s).bind (·.scaleDecimal? e) = some y := by
  rcases Nat.eq_zero_or_pos s with rfl | hpos
  · refine ⟨Binary64.zero, ?_⟩
    change Binary64.zero.scaleDecimal? e = _
    rw [scaleDecimal?]
    exact if_pos rfl
  have hlt : s * powerOf 10 e.toNat < sizeLimit := by
    rw [← Nat.cast_lt (α := ℚ), Nat.cast_mul, Binary64.cast_powerOf 10 he, Nat.cast_ofNat]
    exact h
  -- A power beyond 308 is too large by itself.
  have hsmall : e ≤ 308 := by
    by_contra hlarge
    have hpow : powerOf 10 309 ≤ powerOf 10 e.toNat := Binary64.powerOf_ten_mono (by omega)
    have hmul := Nat.le_mul_of_pos_left (powerOf 10 e.toNat) hpos
    have hlimit : sizeLimit ≤ powerOf 10 309 := by decide +kernel
    omega
  obtain ⟨y, hy⟩ := exists_product hs hlt (k := e.toNat) (by omega)
  obtain ⟨x, hx, hmul⟩ := Option.bind_eq_some_iff.mp hy
  rw [hx, Option.bind_some, scaleDecimal?]
  split_ifs with hzero
  · exact ⟨x, rfl⟩
  · omega
  · exact ⟨y, hmul⟩

/-- Scaling down never fails. -/
theorem exists_scaled_down {s : Nat} (hs : s ≤ significandLimit) {e : Int} (he : e < 0) :
    ∃ y, (ofNat? s).bind (·.scaleDecimal? e) = some y := by
  -- No significand is above this power of two, which rounding keeps.
  have hkept : ofNat? UInt64.size = some ⟨powerOf 2 52, 12⟩ := by decide +kernel
  have hle : s ≤ UInt64.size := Nat.le_trans hs (by decide)
  obtain ⟨x, hx, hvalue⟩ := Binary64.exists_ofNat?_of_le hle hkept
  obtain ⟨y, hy⟩ := Binary64.exists_scaleDecimal?_of_neg (by decide +kernel) hvalue he
  exact ⟨y, Option.bind_eq_some_iff.mpr ⟨x, hx, hy⟩⟩

/-- A significand is scaled without harm below the limit. -/
theorem exists_floatNumber (negative : Bool) {s : Nat} (hs : s ≤ significandLimit) {e : Int}
    (h : (s : ℚ) * 10 ^ e < sizeLimit) :
    ∃ x, floatNumber negative s e = .ok x ∧ IsFinite x := by
  have hexists : ∃ y, (ofNat? s).bind (·.scaleDecimal? e) = some y := by
    rcases Int.lt_or_le e 0 with he | he
    · exact exists_scaled_down hs he
    · exact exists_scaled_up hs he h
  obtain ⟨y, hy⟩ := hexists
  obtain ⟨x, hx, hscale⟩ := Option.bind_eq_some_iff.mp hy
  refine ⟨.float negative y, by rw [floatNumber, hy], isFinite_float ?_ negative⟩
  exact Binary64.mantissa_ne_of_scaleDecimal? (Binary64.mantissa_ne_of_ofRatio? hx) hscale

/-! ### Digits that are cut off -/

/-- Digits are appended from the front until the significand is full. -/
theorem exists_split_appendDigits (s : Nat) (ds : List Char) :
    ∃ kept dropped, ds = kept ++ dropped
      ∧ appendDigits s ds = (Nat.ofDigitChars 10 kept s, dropped.length)
      ∧ ∀ c ∈ dropped.head?,
        significandLimit < Nat.ofDigitChars 10 kept s * 10 + (c.toNat - '0'.toNat) := by
  induction ds generalizing s with
  | nil => exact ⟨[], [], rfl, rfl, by simp⟩
  | cons c ds ih =>
      rw [appendDigits]
      split_ifs with h
      · obtain ⟨kept, dropped, rfl, heq, hfull⟩ := ih (s * 10 + (c.toNat - '0'.toNat))
        have hkept : Nat.ofDigitChars 10 (c :: kept) s
            = Nat.ofDigitChars 10 kept (s * 10 + (c.toNat - '0'.toNat)) := by
          rw [Nat.ofDigitChars_cons, Nat.mul_comm]
        refine ⟨c :: kept, dropped, rfl, ?_, ?_⟩
        · rw [heq, hkept]
        · rwa [hkept]
      · refine ⟨[], c :: ds, rfl, rfl, ?_⟩
        intro d hd
        obtain rfl : c = d := by simpa using hd
        simpa using h

theorem appendDigits_le {s : Nat} (hs : s ≤ significandLimit) (ds : List Char) :
    (appendDigits s ds).1 ≤ significandLimit := by
  induction ds generalizing s with
  | nil => exact hs
  | cons c ds ih =>
      rw [appendDigits]
      split_ifs with h
      · exact ih h
      · exact hs

/-- Cutting off digits makes a number smaller. -/
theorem appendDigits_mul_le (s : Nat) (ds : List Char) :
    (appendDigits s ds).1 * 10 ^ (appendDigits s ds).2 ≤ Nat.ofDigitChars 10 ds s := by
  obtain ⟨kept, dropped, rfl, heq, -⟩ := exists_split_appendDigits s ds
  rw [heq, Nat.ofDigitChars_append, Nat.ofDigitChars_eq_ofDigitChars_zero (l := dropped),
    Nat.mul_comm]
  exact Nat.le_add_right _ _

/-- A number of which digits are cut off has as many digits more than a full
    significand. -/
theorem limit_mul_lt {s : Nat} {ds : List Char} (h : 0 < (appendDigits s ds).2) :
    significandLimit * 10 ^ ((appendDigits s ds).2 - 1) < Nat.ofDigitChars 10 ds s := by
  obtain ⟨kept, dropped, rfl, heq, hfull⟩ := exists_split_appendDigits s ds
  rw [heq] at h ⊢
  rcases dropped with _ | ⟨c, dropped⟩
  · exact absurd h (by simp)
  have hpos : 0 < 10 ^ dropped.length := Nat.pow_pos (by decide)
  have hmul := Nat.mul_lt_mul_of_pos_left (hfull c rfl) hpos
  rw [Nat.ofDigitChars_append, Nat.ofDigitChars_cons,
    Nat.ofDigitChars_eq_ofDigitChars_zero (l := dropped), Nat.mul_comm 10]
  simp only [List.length_cons, Nat.add_sub_cancel]
  rw [Nat.mul_comm significandLimit]
  exact Nat.lt_of_lt_of_le hmul (Nat.le_add_right _ _)

/-- No more digits are cut off than there are, and if all are, none was appended. -/
theorem length_appendDigits (s : Nat) (ds : List Char) :
    (appendDigits s ds).2 ≤ ds.length
      ∧ (ds.length ≤ (appendDigits s ds).2 → (appendDigits s ds).1 = s)
      ∧ ((appendDigits s ds).2 = 0 → (appendDigits s ds).1 = Nat.ofDigitChars 10 ds s) := by
  obtain ⟨kept, dropped, rfl, heq, -⟩ := exists_split_appendDigits s ds
  rw [heq, List.length_append]
  refine ⟨Nat.le_add_left _ _, fun hle => ?_, fun hzero => ?_⟩
  · obtain rfl : kept = [] := List.length_eq_zero_iff.mp (by omega)
    rfl
  · obtain rfl : dropped = [] := List.length_eq_zero_iff.mp hzero
    rw [List.append_nil]

/-- The whole digits are worth no more than all digits. -/
theorem whole_le_digits (whole fraction : List Char) :
    (Nat.ofDigitChars 10 whole 0 : ℚ)
      ≤ Nat.ofDigitChars 10 (whole ++ fraction) 0 * 10 ^ (-(fraction.length : Int)) := by
  rw [zpow_neg, ← div_eq_mul_inv, le_div_iff₀ (by positivity), zpow_natCast,
    Nat.ofDigitChars_append, Nat.ofDigitChars_eq_ofDigitChars_zero (l := fraction)]
  push_cast
  linarith [Nat.cast_nonneg (α := ℚ) (Nat.ofDigitChars 10 fraction 0)]

/-- Cutting off digits makes a number smaller, also where digits behind the point are
    appended to a significand of which digits in front of it were cut off. -/
theorem significand_le (whole fraction : List Char) :
    ((appendDigits (appendDigits 0 whole).1 fraction).1 : ℚ)
        * 10 ^ (((appendDigits 0 whole).2 : Int)
          - (fraction.length - (appendDigits (appendDigits 0 whole).1 fraction).2 : Nat))
      ≤ Nat.ofDigitChars 10 (whole ++ fraction) 0 * 10 ^ (-(fraction.length : Int)) := by
  have hwhole := whole_le_digits whole fraction
  have hcut := appendDigits_mul_le 0 whole
  have hcut' := appendDigits_mul_le (appendDigits 0 whole).1 fraction
  have hlimit := appendDigits_le (appendDigits_le (Nat.zero_le _) whole) fraction
  obtain ⟨hlength, hnone, -⟩ := length_appendDigits (appendDigits 0 whole).1 fraction
  rcases Nat.eq_zero_or_pos (appendDigits 0 whole).2 with hzero | hpos
  · -- All whole digits are there.
    have hdigits : Nat.ofDigitChars 10 fraction (appendDigits 0 whole).1
        = Nat.ofDigitChars 10 (whole ++ fraction) 0 := by
      rw [(length_appendDigits 0 whole).2.2 hzero, Nat.ofDigitChars_append]
    rw [hdigits] at hcut'
    generalize (appendDigits (appendDigits 0 whole).1 fraction).2 = dropped at *
    rw [hzero, show ((0 : Nat) : Int) - (fraction.length - dropped : Nat)
      = dropped + -(fraction.length : Int) by omega, zpow_add₀ (by norm_num), ← mul_assoc,
      zpow_natCast]
    gcongr
    exact_mod_cast hcut'
  rcases Nat.eq_zero_or_pos
    (fraction.length - (appendDigits (appendDigits 0 whole).1 fraction).2) with hk | hk
  · -- No digit behind the point fits.
    rw [hk, hnone (by omega), Nat.cast_zero, sub_zero, zpow_natCast]
    exact le_trans (by exact_mod_cast hcut) hwhole
  · -- A digit that still fits does not make up for the one that was cut off.
    refine le_trans ?_ hwhole
    calc ((appendDigits (appendDigits 0 whole).1 fraction).1 : ℚ)
          * 10 ^ (((appendDigits 0 whole).2 : Int)
            - (fraction.length - (appendDigits (appendDigits 0 whole).1 fraction).2 : Nat))
        ≤ significandLimit * 10 ^ (((appendDigits 0 whole).2 - 1 : Nat) : Int) := by
          gcongr
          · norm_num
          · omega
      _ ≤ Nat.ofDigitChars 10 whole 0 := by
          rw [zpow_natCast]
          exact_mod_cast (limit_mul_lt hpos).le

/-! ### Meaning -/

/-- An exponent scales what can be scaled by its power, unless it has more than 32
    bits. -/
theorem exists_scaled {negative : Bool} {s : Nat} {e : Int} (exp : Exponent)
    (hpower : exp.power ≤ exponentLimit ∨ s = 0)
    (hfloat : ∃ x, floatNumber negative s (e + exp.power) = .ok x ∧ IsFinite x) :
    ∃ x, scaled negative s e (exp.sign == ['-']) exp.digits = .ok x ∧ IsFinite x := by
  have hzero : IsFinite (.float negative .zero) := isFinite_float (by decide) negative
  unfold Exponent.power at hpower hfloat
  unfold scaled
  simp only [beq_iff_eq]
  by_cases hsign : exp.sign = ['-']
  · simp only [hsign, if_true] at hpower hfloat ⊢
    split_ifs with hlarge htrue
    · exact ⟨_, rfl, hzero⟩
    · exact absurd (Or.inl trivial) htrue
    · rwa [sub_eq_add_neg]
  · simp only [hsign, if_false] at hpower hfloat ⊢
    split_ifs with hlarge hor
    · exact ⟨_, rfl, hzero⟩
    · exact absurd (Or.inr (hpower.resolve_left (by omega))) hor
    · exact hfloat

theorem exists_integerNumber (negative : Bool) {s : Nat} (hs : s ≤ significandLimit) :
    ∃ x, integerNumber negative s = .ok x ∧ IsFinite x := by
  unfold integerNumber
  split_ifs
  · refine exists_floatNumber true hs ?_
    rw [zpow_zero, mul_one]
    exact_mod_cast Nat.lt_of_le_of_lt hs (by decide +kernel)
  · exact ⟨_, rfl, isFinite_integer _⟩
  · exact ⟨_, rfl, isFinite_integer _⟩

namespace Numeral

variable {n : Numeral}

theorem magnitude_eq (n : Numeral) :
    n.magnitude = n.digits * 10 ^ (-(n.fraction.length : Int)) * 10 ^ n.power := by
  rw [magnitude, mul_assoc, ← zpow_add₀ (by norm_num), neg_add_eq_sub]

/-- A significand that is not greater than the digits of a moderate numeral is scaled
    by its exponent. -/
theorem Moderate.exists_scale (h : n.Moderate) {s : Nat} (hs : s ≤ significandLimit) {e : Int}
    (hle : (s : ℚ) * 10 ^ e ≤ n.digits * 10 ^ (-(n.fraction.length : Int))) :
    ∃ x, n.scale s e = .ok x ∧ IsFinite x := by
  have hmag : (s : ℚ) * 10 ^ (e + n.power) ≤ n.magnitude := by
    rw [magnitude_eq, zpow_add₀ (by norm_num), ← mul_assoc]
    gcongr
  have hfloat := exists_floatNumber n.negative hs (lt_of_le_of_lt hmag h.size)
  -- A numeral that is zero leaves no significand.
  have hpower : n.power ≤ exponentLimit ∨ s = 0 := by
    refine h.power.imp_right fun hzero => ?_
    rw [hzero] at hmag
    by_contra hne
    have hpos : (0 : ℚ) < s * 10 ^ (e + n.power) := by positivity
    exact absurd hmag (not_le.mpr hpos)
  unfold Numeral.power at hpower hfloat
  unfold scale
  cases hexp : n.exponent with
  | none =>
      rw [hexp, Option.elim_none, add_zero] at hfloat
      exact hfloat
  | some exp =>
      rw [hexp, Option.elim_some] at hpower hfloat
      exact exists_scaled exp hpower hfloat

/-- A moderate numeral stands for a finite number. -/
theorem Moderate.exists_number (h : n.Moderate) : ∃ x, n.number = .ok x ∧ IsFinite x := by
  have hwhole := appendDigits_le (Nat.zero_le significandLimit) n.whole
  unfold number
  simp only
  split_ifs with hfraction hinteger
  · exact exists_integerNumber n.negative hwhole
  · refine h.exists_scale hwhole ?_
    have hcut := appendDigits_mul_le 0 n.whole
    rw [digits, hfraction, List.append_nil, List.length_nil, Nat.cast_zero, neg_zero, zpow_zero,
      mul_one, zpow_natCast]
    exact_mod_cast hcut
  · exact h.exists_scale (appendDigits_le hwhole n.fraction) (significand_le n.whole n.fraction)

/-- The number that a numeral means: what it stands for if it is moderate, and an
    infinity if not. -/
def meaning (n : Numeral) : Number :=
  match n.number with
  | .ok x => if n.Moderate then x else infinite n.negative
  | .error _ => infinite n.negative

theorem Moderate.number_eq (h : n.Moderate) : n.number = .ok n.meaning := by
  obtain ⟨x, hx, -⟩ := h.exists_number
  simp only [meaning, hx, if_pos h]

/-- Moderate numerals are those that mean a finite number. -/
theorem isFinite_meaning_iff : IsFinite n.meaning ↔ n.Moderate := by
  constructor
  · intro h
    by_contra hlarge
    refine h n.negative ?_
    rw [meaning]
    split
    · exact if_neg hlarge
    · rfl
  · intro h
    obtain ⟨x, hx, hfinite⟩ := h.exists_number
    simp only [meaning, hx, if_pos h]
    exact hfinite

/-- Printed integers of 64 bits mean themselves. -/
theorem meaning_ofInt {n : Int} (hleast : -(negativeLimit : Int) ≤ n)
    (hgreatest : n ≤ significandLimit) : (Numeral.ofInt n).meaning = .integer n := by
  have hlimit : negativeLimit ≤ significandLimit := by decide
  have hdigits : (ofInt n).digits = n.natAbs := by
    rw [digits, ofInt, List.append_nil, Nat.ofDigitChars_ten_toDigits]
  have hmoderate : (ofInt n).Moderate := by
    refine ⟨?_, Or.inl (by decide : (0 : Int) ≤ exponentLimit)⟩
    rw [magnitude, hdigits]
    change (n.natAbs : ℚ) * 10 ^ ((0 : Int) - 0) < sizeLimit
    rw [sub_zero, zpow_zero, mul_one, Nat.cast_lt]
    exact Nat.lt_of_le_of_lt (by omega) (by decide +kernel : significandLimit < sizeLimit)
  have hnumber := hmoderate.number_eq
  rw [number_ofInt hleast hgreatest] at hnumber
  exact (Except.ok.inj hnumber).symm

end Numeral

end PanelSketch.Json
