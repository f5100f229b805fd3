import Mathlib.Algebra.Order.Field.Power
import Mathlib.Data.Rat.Cast.Order
import Mathlib.Tactic.FieldSimp
import Mathlib.Tactic.Positivity
import Mathlib.Tactic.Ring
import PanelSketch.Number.Binary64

/-!
# Rounding Is Monotone

Rounding to 64 bits keeps the order: of two quotients the lesser one rounds to the
lesser magnitude, and it is not too large when the greater one is not. Everything that
is known about which results are too large follows from this and from a few of them
that are computed.

A quotient is rounded at an exponent that is chosen from it, so two quotients may be
rounded at different ones. `Fits` says what the choice comes to. Of two exponents that
fit, the greater one belongs to the greater quotient, and then a power of two stands
between the two mantissas, where they are no longer comparable digit by digit.

## Main definitions

* `Binary64.value`: The number that a magnitude is.
* `Binary64.Fits`: A quotient has 53 bits at an exponent, or the exponent is the least.

## Theorems

* `roundHalfEven_mono`: Rounding to whole numbers keeps the order.
* `Binary64.fits_fittingExponent`: The exponent that is chosen fits.
* `Binary64.exists_ofRatio?_of_le`: Rounding to 64 bits keeps the order.
-/

namespace PanelSketch

/-- Rounding to whole numbers keeps the order. -/
theorem roundHalfEven_mono {n d n' d' : Nat} (hd : 0 < d) (hd' : 0 < d')
    (h : n * d' ≤ n' * d) : roundHalfEven n d ≤ roundHalfEven n' d' := by
  have hquot : n / d ≤ n' / d' := by
    rw [Nat.le_div_iff_mul_le hd']
    refine Nat.le_of_mul_le_mul_right ?_ hd
    calc n / d * d' * d = n / d * d * d' := Nat.mul_right_comm _ _ _
      _ ≤ n * d' := Nat.mul_le_mul_right _ (Nat.div_mul_le_self n d)
      _ ≤ n' * d := h
  unfold roundHalfEven
  simp only
  rcases Nat.lt_or_eq_of_le hquot with hlt | heq
  · -- Rounding goes up by one at most.
    split_ifs <;> omega
  -- Between the same whole numbers it is the remainders that are compared.
  have hrem : n % d * d' ≤ n' % d' * d := by
    have hn := Nat.div_add_mod' n d
    have hn' := Nat.div_add_mod' n' d'
    have hmul : n / d * d * d' = n' / d' * d' * d := by
      rw [heq, Nat.mul_right_comm]
    rw [← hn, ← hn', Nat.add_mul, Nat.add_mul, hmul] at h
    exact Nat.le_of_add_le_add_left h
  have hdouble : 2 * (n % d) * d' ≤ 2 * (n' % d') * d := by
    rw [Nat.mul_assoc, Nat.mul_assoc]
    exact Nat.mul_le_mul_left 2 hrem
  have hup : d < 2 * (n % d) → d' < 2 * (n' % d') := by
    intro hlt
    refine Nat.lt_of_mul_lt_mul_right (a := d) (Nat.lt_of_lt_of_le ?_ hdouble)
    rw [Nat.mul_comm d' d]
    exact Nat.mul_lt_mul_of_pos_right hlt hd'
  have hhalf : d ≤ 2 * (n % d) → d' ≤ 2 * (n' % d') := by
    intro hle
    refine Nat.le_of_mul_le_mul_right (Nat.le_trans ?_ hdouble) hd
    rw [Nat.mul_comm d' d]
    exact Nat.mul_le_mul_right d' hle
  rw [heq]
  split_ifs <;> omega

theorem roundHalfEven_le {n d k : Nat} (hd : 0 < d) (h : n ≤ k * d) : roundHalfEven n d ≤ k := by
  rw [← roundHalfEven_exact hd k]
  exact roundHalfEven_mono hd hd (Nat.mul_le_mul_right d h)

theorem le_roundHalfEven {n d k : Nat} (hd : 0 < d) (h : k * d ≤ n) : k ≤ roundHalfEven n d := by
  rw [← roundHalfEven_exact hd k]
  exact roundHalfEven_mono hd hd (Nat.mul_le_mul_right d h)

namespace Binary64

/-! ### Values -/

/-- The number that a magnitude is. -/
def value (x : Binary64) : ℚ :=
  x.mantissa * 2 ^ x.exponent

theorem value_nonneg (x : Binary64) : 0 ≤ x.value := by
  unfold value
  positivity

theorem cast_powerOf (base : Nat) {e : Int} (h : 0 ≤ e) :
    ((powerOf base e.toNat : Nat) : ℚ) = (base : ℚ) ^ e := by
  rw [powerOf, Nat.pow_eq, Nat.cast_pow, ← zpow_natCast, Int.toNat_of_nonneg h]

theorem powerOf_toNat {e : Int} (h : 0 ≤ e) : ((powerOf 2 e.toNat : Nat) : ℚ) = 2 ^ e := by
  rw [cast_powerOf 2 h, Nat.cast_ofNat]

theorem ratio_pos (x : Binary64) : 0 < x.ratio.2 := by
  unfold ratio
  split_ifs
  · exact Nat.one_pos
  · exact Nat.pow_pos (by decide)

/-- The ratio of a magnitude is its value. -/
theorem ratio_eq (x : Binary64) : (x.ratio.1 : ℚ) / x.ratio.2 = x.value := by
  unfold ratio value
  split_ifs with h
  · rw [Nat.cast_mul, powerOf_toNat h, Nat.cast_one, div_one]
  · rw [powerOf_toNat (by omega), zpow_neg, div_inv_eq_mul]

theorem shiftRatio_pos {n d : Nat} (hd : 0 < d) (e : Int) : 0 < (shiftRatio n d e).2 := by
  unfold shiftRatio
  split_ifs
  · exact Nat.mul_pos hd (Nat.pow_pos (by decide))
  · exact hd

/-- A shifted quotient is divided by a power of two. -/
theorem shiftRatio_eq (n d : Nat) (e : Int) :
    ((shiftRatio n d e).1 : ℚ) / (shiftRatio n d e).2 = n / d / 2 ^ e := by
  unfold shiftRatio
  split_ifs with h
  · rw [Nat.cast_mul, powerOf_toNat h, div_div]
  · rw [Nat.cast_mul, powerOf_toNat (by omega), zpow_neg, mul_div_right_comm,
      ← div_eq_mul_inv (_ / _)]

/-! ### Exponents -/

/-- Whether a quotient has 53 bits at an exponent, or fewer where no lesser exponent is
    left. -/
structure Fits (q : ℚ) (e : Int) : Prop where
  least : leastExponent ≤ e
  upper : q < 2 ^ (e + 53)
  lower : e = leastExponent ∨ 2 ^ (e + 52) ≤ q

/-- Of two exponents that fit, the lesser one belongs to the lesser quotient. -/
theorem Fits.le {q q' : ℚ} {e e' : Int} (h : Fits q e) (h' : Fits q' e') (hle : q ≤ q') :
    e ≤ e' := by
  rcases h.lower with heq | hlower
  · exact heq ▸ h'.least
  have hlt : (2 : ℚ) ^ (e + 52) < 2 ^ (e' + 53) :=
    lt_of_le_of_lt hlower (lt_of_le_of_lt hle h'.upper)
  have hexp := (zpow_lt_zpow_iff_right₀ one_lt_two).mp hlt
  omega

/-- A quotient lies within a factor of two of the power that the bits of its parts
    suggest. -/
theorem quotient_bounds {n d : Nat} (hn : 0 < n) (hd : 0 < d) :
    (2 : ℚ) ^ ((Nat.log2 n : Int) - Nat.log2 d - 1) < n / d
      ∧ (n : ℚ) / d < 2 ^ ((Nat.log2 n : Int) - Nat.log2 d + 1) := by
  have hnlow : (2 : ℚ) ^ (Nat.log2 n : Int) ≤ n := by
    exact_mod_cast Nat.log2_self_le hn.ne'
  have hnhigh : (n : ℚ) < 2 ^ ((Nat.log2 n : Int) + 1) := by
    exact_mod_cast Nat.lt_log2_self
  have hdlow : (2 : ℚ) ^ (Nat.log2 d : Int) ≤ d := by
    exact_mod_cast Nat.log2_self_le hd.ne'
  have hdhigh : (d : ℚ) < 2 ^ ((Nat.log2 d : Int) + 1) := by
    exact_mod_cast Nat.lt_log2_self
  have hdpos : (0 : ℚ) < d := by exact_mod_cast hd
  constructor
  · rw [lt_div_iff₀ hdpos]
    calc (2 : ℚ) ^ ((Nat.log2 n : Int) - Nat.log2 d - 1) * d
        < 2 ^ ((Nat.log2 n : Int) - Nat.log2 d - 1) * 2 ^ ((Nat.log2 d : Int) + 1) := by gcongr
      _ = 2 ^ (Nat.log2 n : Int) := by
          rw [← zpow_add₀ two_ne_zero]
          congr 1
          ring
      _ ≤ n := hnlow
  · rw [div_lt_iff₀ hdpos]
    calc (n : ℚ) < 2 ^ ((Nat.log2 n : Int) + 1) := hnhigh
      _ = 2 ^ ((Nat.log2 n : Int) - Nat.log2 d + 1) * 2 ^ (Nat.log2 d : Int) := by
          rw [← zpow_add₀ two_ne_zero]
          congr 1
          ring
      _ ≤ 2 ^ ((Nat.log2 n : Int) - Nat.log2 d + 1) * d := by gcongr

theorem powerOf_two_mul (k : Nat) (e : Int) :
    ((powerOf 2 k : Nat) : ℚ) * 2 ^ e = 2 ^ (e + k) := by
  rw [powerOf, Nat.pow_eq, Nat.cast_pow, Nat.cast_ofNat, ← zpow_natCast, ← zpow_add₀ two_ne_zero,
    add_comm]

/-- A shifted quotient is compared with a whole number by comparing the quotient with
    that number at the exponent. -/
theorem le_shiftRatio_iff {n d : Nat} (hd : 0 < d) (e : Int) (k : Nat) :
    k * (shiftRatio n d e).2 ≤ (shiftRatio n d e).1 ↔ (k : ℚ) * 2 ^ e ≤ n / d := by
  have hpos : (0 : ℚ) < (shiftRatio n d e).2 := by exact_mod_cast shiftRatio_pos hd e
  rw [← Nat.cast_le (α := ℚ), Nat.cast_mul, ← le_div_iff₀ hpos, shiftRatio_eq,
    le_div_iff₀ (by positivity)]

/-- Whether a shifted quotient has fewer than 53 bits is seen from its whole part. -/
theorem shiftRatio_div_lt {n d : Nat} (hd : 0 < d) (e : Int) :
    (shiftRatio n d e).1 / (shiftRatio n d e).2 < powerOf 2 52 ↔ (n : ℚ) / d < 2 ^ (e + 52) := by
  rw [Nat.div_lt_iff_lt_mul (shiftRatio_pos hd e), ← not_le, le_shiftRatio_iff hd,
    powerOf_two_mul, not_le]
  rfl

/-- The exponent that is chosen fits. -/
theorem fits_fittingExponent {n d : Nat} (hn : 0 < n) (hd : 0 < d) :
    Fits ((n : ℚ) / d) (fittingExponent n d) := by
  obtain ⟨hlow, hhigh⟩ := quotient_bounds hn hd
  unfold fittingExponent
  simp only [shiftRatio_div_lt hd]
  generalize (Nat.log2 n : Int) - Nat.log2 d = bits at hlow hhigh ⊢
  -- Before the least exponent is looked at there are 53 bits exactly.
  have hexact : ∀ e : Int, (2 : ℚ) ^ (e + 52) ≤ n / d → (n : ℚ) / d < 2 ^ (e + 53) →
      Fits ((n : ℚ) / d) (max e leastExponent) := by
    intro e hlower hupper
    refine ⟨le_max_right _ _, lt_of_lt_of_le hupper ?_, ?_⟩
    · exact zpow_le_zpow_right₀ one_le_two (by omega)
    · rcases le_total e leastExponent with hle | hle
      · exact Or.inl (max_eq_right hle)
      · rw [max_eq_left hle]
        exact Or.inr hlower
  split_ifs with h
  · refine hexact _ ?_ ?_
    · rw [show bits - 52 - 1 + 52 = bits - 1 by ring]
      exact hlow.le
    · rwa [show bits - 52 - 1 + 53 = bits - 52 + 52 by ring]
  · refine hexact _ (not_lt.mp h) ?_
    rwa [show bits - 52 + 53 = bits + 1 by ring]

/-! ### Mantissas -/

/-- The mantissa of a quotient at an exponent. -/
def mantissaAt (n d : Nat) (e : Int) : Nat :=
  roundHalfEven (shiftRatio n d e).1 (shiftRatio n d e).2

theorem ofRatio?_eq {n : Nat} (hn : 0 < n) (d : Nat) :
    ofRatio? n d = pack (mantissaAt n d (fittingExponent n d)) (fittingExponent n d) :=
  if_neg hn.ne'

theorem mantissaAt_mono {n d n' d' : Nat} (hd : 0 < d) (hd' : 0 < d') (e : Int)
    (h : (n : ℚ) / d ≤ n' / d') : mantissaAt n d e ≤ mantissaAt n' d' e := by
  have hpos : (0 : ℚ) < (shiftRatio n d e).2 := by exact_mod_cast shiftRatio_pos hd e
  have hpos' : (0 : ℚ) < (shiftRatio n' d' e).2 := by exact_mod_cast shiftRatio_pos hd' e
  refine roundHalfEven_mono (shiftRatio_pos hd e) (shiftRatio_pos hd' e) ?_
  have hle : (n : ℚ) / d / 2 ^ e ≤ n' / d' / 2 ^ e := by gcongr
  rw [← shiftRatio_eq, ← shiftRatio_eq, div_le_div_iff₀ hpos hpos'] at hle
  exact_mod_cast hle

theorem mantissaAt_le {n d : Nat} (hd : 0 < d) {e : Int} (h : (n : ℚ) / d < 2 ^ (e + 53)) :
    mantissaAt n d e ≤ powerOf 2 53 := by
  refine roundHalfEven_le (shiftRatio_pos hd e) (Nat.le_of_lt (not_le.mp ?_))
  rw [le_shiftRatio_iff hd, powerOf_two_mul]
  exact not_le.mpr h

theorem le_mantissaAt {n d : Nat} (hd : 0 < d) {e : Int} (h : (2 : ℚ) ^ (e + 52) ≤ n / d) :
    powerOf 2 52 ≤ mantissaAt n d e := by
  refine le_roundHalfEven (shiftRatio_pos hd e) ?_
  rw [le_shiftRatio_iff hd, powerOf_two_mul]
  exact h

/-! ### Packing -/

theorem pack_carry (e : Int) :
    pack (powerOf 2 53) e
      = if greatestExponent < e + 1 then none else some ⟨powerOf 2 52, e + 1⟩ := by
  rw [pack, if_pos rfl]
  exact if_neg (by decide)

theorem pack_of_ne {mantissa : Nat} (hne : mantissa ≠ powerOf 2 53) (e : Int) :
    pack mantissa e
      = if mantissa = 0 then some zero
        else if greatestExponent < e then none else some ⟨mantissa, e⟩ := by
  rw [pack, if_neg hne]

/-- Packing keeps the value. -/
theorem value_of_pack {mantissa : Nat} {e : Int} {x : Binary64} (h : pack mantissa e = some x) :
    x.value = mantissa * 2 ^ e := by
  by_cases hcarry : mantissa = powerOf 2 53
  · rw [hcarry, pack_carry] at h
    split_ifs at h
    obtain rfl := Option.some.inj h
    rw [hcarry, value, zpow_add₀ two_ne_zero]
    norm_num [powerOf]
    ring
  · rw [pack_of_ne hcarry] at h
    split_ifs at h with hzero
    · obtain rfl := Option.some.inj h
      simp [value, zero, hzero]
    · obtain rfl := Option.some.inj h
      rfl

/-- What is packed is too large exactly when the exponent is, once a mantissa with one
    bit more has given it away. -/
theorem pack_eq_none_iff {mantissa : Nat} {e : Int} :
    pack mantissa e = none
      ↔ mantissa ≠ 0 ∧ greatestExponent < if mantissa = powerOf 2 53 then e + 1 else e := by
  by_cases hcarry : mantissa = powerOf 2 53
  · rw [hcarry, pack_carry, if_pos rfl, and_iff_right (by decide)]
    simp only [ite_eq_left_iff, reduceCtorEq, imp_false, not_not]
  · rw [pack_of_ne hcarry, if_neg hcarry]
    split_ifs with hzero hlarge
    · simp [hzero]
    · simp [hzero, hlarge]
    · simp [hlarge]

/-- Packing keeps the order, as long as a greater exponent comes with a mantissa of 53
    bits. -/
theorem exists_pack_of_le {m m' : Nat} {e e' : Int} (hm : m ≤ powerOf 2 53)
    (hm' : m' ≤ powerOf 2 53) (h : e = e' ∧ m ≤ m' ∨ e < e' ∧ powerOf 2 52 ≤ m') {y : Binary64}
    (hy : pack m' e' = some y) : ∃ x, pack m e = some x ∧ x.value ≤ y.value := by
  have hpow : powerOf 2 53 = 2 * powerOf 2 52 := by decide
  have hpos : 0 < powerOf 2 52 := by decide
  have hsome : pack m e ≠ none := by
    rw [Ne, pack_eq_none_iff]
    rintro ⟨hzero, hlarge⟩
    refine Option.some_ne_none y (hy.symm.trans (pack_eq_none_iff.mpr ⟨?_, ?_⟩))
    · omega
    · split_ifs at hlarge ⊢ <;> omega
  obtain ⟨x, hx⟩ := Option.ne_none_iff_exists'.mp hsome
  refine ⟨x, hx, ?_⟩
  rw [value_of_pack hx, value_of_pack hy]
  rcases h with ⟨rfl, hle⟩ | ⟨hlt, hle⟩
  · gcongr
  · -- A power of two stands between the two.
    calc (m : ℚ) * 2 ^ e ≤ powerOf 2 53 * 2 ^ e := by gcongr
      _ = powerOf 2 52 * 2 ^ (e + 1) := by
          rw [hpow, zpow_add₀ two_ne_zero, Nat.cast_mul]
          ring
      _ ≤ m' * 2 ^ e' := by
          gcongr
          · exact one_le_two
          · exact hlt

/-- Rounding to 64 bits keeps the order: what is no greater than a quotient that is not
    too large is not too large either. -/
theorem exists_ofRatio?_of_le {n d n' d' : Nat} (hd : 0 < d) (hd' : 0 < d')
    (h : (n : ℚ) / d ≤ n' / d') {y : Binary64} (hy : ofRatio? n' d' = some y) :
    ∃ x, ofRatio? n d = some x ∧ x.value ≤ y.value := by
  rcases Nat.eq_zero_or_pos n with rfl | hn
  · exact ⟨zero, if_pos rfl, by simpa [value, zero] using y.value_nonneg⟩
  have hn' : 0 < n' := by
    have hpos : (0 : ℚ) < n' / d' := lt_of_lt_of_le (by positivity) h
    rw [div_pos_iff_of_pos_right (by exact_mod_cast hd')] at hpos
    exact_mod_cast hpos
  have hfits := fits_fittingExponent hn hd
  have hfits' := fits_fittingExponent hn' hd'
  rw [ofRatio?_eq hn'] at hy
  rw [ofRatio?_eq hn]
  refine exists_pack_of_le (mantissaAt_le hd hfits.upper) (mantissaAt_le hd' hfits'.upper) ?_ hy
  rcases (hfits.le hfits' h).eq_or_lt with heq | hlt
  · refine Or.inl ⟨heq, ?_⟩
    rw [heq]
    exact mantissaAt_mono hd hd' _ h
  · -- The greater exponent is not the least one.
    have hleast := hfits.least
    exact Or.inr ⟨hlt, le_mantissaAt hd' (hfits'.lower.resolve_left (by omega))⟩

theorem exists_ofNat?_of_le {s t : Nat} (h : s ≤ t) {y : Binary64} (hy : ofNat? t = some y) :
    ∃ x, ofNat? s = some x ∧ x.value ≤ y.value := by
  have hle : (s : ℚ) / (1 : Nat) ≤ t / (1 : Nat) := by gcongr
  exact exists_ofRatio?_of_le Nat.one_pos Nat.one_pos hle hy

/-! ### Products and quotients -/

/-- A product is not too large when one of greater magnitudes is not. -/
theorem exists_mul?_of_le {x x' p p' y : Binary64} (hx : x.value ≤ x'.value)
    (hp : p.value ≤ p'.value) (hy : x'.mul? p' = some y) : ∃ z, x.mul? p = some z := by
  have hratio : ∀ x p : Binary64,
      ((x.ratio.1 * p.ratio.1 : Nat) : ℚ) / (x.ratio.2 * p.ratio.2 : Nat) = x.value * p.value := by
    intro x p
    rw [Nat.cast_mul, Nat.cast_mul, mul_div_mul_comm, x.ratio_eq, p.ratio_eq]
  have hle : x.value * p.value ≤ x'.value * p'.value :=
    mul_le_mul hx hp p.value_nonneg x'.value_nonneg
  rw [← hratio, ← hratio] at hle
  obtain ⟨z, hz, -⟩ := exists_ofRatio?_of_le (Nat.mul_pos x.ratio_pos p.ratio_pos)
    (Nat.mul_pos x'.ratio_pos p'.ratio_pos) hle hy
  exact ⟨z, hz⟩

/-- Dividing by what is not below one does not lead beyond a magnitude that rounding
    keeps. -/
theorem exists_div?_of_le {x b p : Binary64} (hb : ofRatio? b.ratio.1 b.ratio.2 = some b)
    (h : x.value ≤ b.value) (hp : 1 ≤ p.value) :
    ∃ z, x.div? p = some z ∧ z.value ≤ b.value := by
  have hpos : 0 < p.ratio.1 := by
    have hquot : (0 : ℚ) < p.ratio.1 / p.ratio.2 := by
      rw [p.ratio_eq]
      exact lt_of_lt_of_le one_pos hp
    rw [div_pos_iff_of_pos_right (by exact_mod_cast p.ratio_pos)] at hquot
    exact_mod_cast hquot
  refine exists_ofRatio?_of_le (Nat.mul_pos x.ratio_pos hpos) b.ratio_pos ?_ hb
  calc ((x.ratio.1 * p.ratio.2 : Nat) : ℚ) / (x.ratio.2 * p.ratio.1 : Nat)
      = x.value / p.value := by
        rw [Nat.cast_mul, Nat.cast_mul, ← x.ratio_eq, ← p.ratio_eq, div_div_div_eq]
    _ ≤ x.value := div_le_self x.value_nonneg hp
    _ ≤ b.ratio.1 / b.ratio.2 := by rwa [b.ratio_eq]

/-! ### Powers of ten -/

theorem powerOf_ten_mono {i j : Nat} (h : i ≤ j) : powerOf 10 i ≤ powerOf 10 j :=
  Nat.pow_le_pow_right (by decide) h

/-- Powers of ten keep their order when they are rounded. -/
theorem value_powerOfTen_mono {i j : Nat} (h : i ≤ j) (hj : j ≤ 308) :
    (powerOfTen i).value ≤ (powerOfTen j).value := by
  -- The greatest one is not too large, so none is.
  have hgreatest : (ofNat? (powerOf 10 308)).isSome = true := by decide +kernel
  obtain ⟨y, hy⟩ := Option.isSome_iff_exists.mp hgreatest
  obtain ⟨x', hx', -⟩ := exists_ofNat?_of_le (powerOf_ten_mono hj) hy
  obtain ⟨x, hx, hle⟩ := exists_ofNat?_of_le (powerOf_ten_mono h) hx'
  rw [ofNat?] at hx hx'
  rw [powerOfTen, powerOfTen, hx, hx', Option.getD_some, Option.getD_some]
  exact hle

theorem one_le_powerOfTen {k : Nat} (hk : k ≤ 308) : 1 ≤ (powerOfTen k).value := by
  have hone : powerOfTen 0 = ⟨powerOf 2 52, -52⟩ := by decide +kernel
  refine le_trans (le_of_eq ?_) (value_powerOfTen_mono (Nat.zero_le k) hk)
  rw [hone]
  norm_num [value, powerOf]

/-- Scaling down never fails. -/
theorem exists_scaleDecimal?_of_neg {b : Binary64}
    (hb : ofRatio? b.ratio.1 b.ratio.2 = some b) {x : Binary64} (hx : x.value ≤ b.value)
    {e : Int} (he : e < 0) : ∃ y, x.scaleDecimal? e = some y := by
  -- Every step divides and leaves less of the exponent.
  induction hsize : e.natAbs using Nat.strongRecOn generalizing x e with
  | ind size ih =>
    rw [scaleDecimal?]
    split_ifs with hzero hlarge hnonneg hstep
    · exact ⟨x, rfl⟩
    · omega
    · omega
    · obtain ⟨y, hy, -⟩ := exists_div?_of_le hb hx
        (one_le_powerOfTen (k := (-e).toNat) (by omega))
      exact ⟨y, hy⟩
    · obtain ⟨y, hy, hle⟩ := exists_div?_of_le hb hx (one_le_powerOfTen (le_refl 308))
      rw [hy, Option.bind_some]
      exact ih (e + 308).natAbs (by omega) hle (by omega) rfl

/-! ### Carries -/

/-- No mantissa has more than 53 bits once it is packed. -/
theorem mantissa_ne_of_pack {mantissa : Nat} {e : Int} {x : Binary64}
    (h : pack mantissa e = some x) : x.mantissa ≠ powerOf 2 53 := by
  by_cases hcarry : mantissa = powerOf 2 53
  · rw [hcarry, pack_carry] at h
    split_ifs at h
    obtain rfl := Option.some.inj h
    exact (by decide : powerOf 2 52 ≠ powerOf 2 53)
  · rw [pack_of_ne hcarry] at h
    split_ifs at h
    · obtain rfl := Option.some.inj h
      decide
    · obtain rfl := Option.some.inj h
      exact hcarry

theorem mantissa_ne_of_ofRatio? {n d : Nat} {x : Binary64} (h : ofRatio? n d = some x) :
    x.mantissa ≠ powerOf 2 53 := by
  rcases Nat.eq_zero_or_pos n with rfl | hn
  · obtain rfl := Option.some.inj h
    decide
  · rw [ofRatio?_eq hn] at h
    exact mantissa_ne_of_pack h

theorem mantissa_ne_of_div? {x p y : Binary64} (h : x.div? p = some y) :
    y.mantissa ≠ powerOf 2 53 :=
  mantissa_ne_of_ofRatio? h

theorem mantissa_ne_of_scaleDecimal? {x y : Binary64} (hx : x.mantissa ≠ powerOf 2 53) {e : Int}
    (h : x.scaleDecimal? e = some y) : y.mantissa ≠ powerOf 2 53 := by
  induction hsize : e.natAbs using Nat.strongRecOn generalizing x e with
  | ind size ih =>
    rw [scaleDecimal?] at h
    split_ifs at h with hzero hlarge hnonneg hstep
    · obtain rfl := Option.some.inj h
      exact hx
    · exact mantissa_ne_of_ofRatio? h
    · exact mantissa_ne_of_div? h
    · obtain ⟨z, hz, hscale⟩ := Option.bind_eq_some_iff.mp h
      exact ih (e + 308).natAbs (by omega) (mantissa_ne_of_div? hz) hscale rfl

end Binary64

end PanelSketch
