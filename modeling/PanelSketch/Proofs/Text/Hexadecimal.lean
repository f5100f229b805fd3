import PanelSketch.Text.Hexadecimal

/-!
# Hexadecimal Digits, Read

There are sixteen digits, and six of them are letters, which have two forms. Reading
knows both forms of every digit and no other character. All of them are ASCII, so
each takes one byte, and putting a text into small letters changes no value.

## Main definitions

* `SpellsDigit`: The digits of a value.
* `SpellsByte`: The pairs of digits of a value of eight bits.

## Theorems

* `hexValue?_eq_some_iff`: The characters that are read.
* `hexValue?_toLower`: The case of a letter does not matter.
* `hexNumber?_pair_eq_some_iff`: Two digits are read as one value.
-/

namespace PanelSketch.Text

/-- A character is the digit of a value, in small or in capital letters. -/
def SpellsDigit (c : Char) (v : Nat) : Prop :=
  "0123456789abcdef".toList[v]? = some c ∨ "0123456789ABCDEF".toList[v]? = some c

instance (c : Char) (v : Nat) : Decidable (SpellsDigit c v) :=
  inferInstanceAs (Decidable (_ ∨ _))

/-- Two characters are the digits of a value of eight bits, the greater part first. -/
def SpellsByte (c d : Char) (v : Nat) : Prop :=
  ∃ high low, SpellsDigit c high ∧ SpellsDigit d low ∧ v = high * 16 + low

/-! ### ASCII characters -/

/-- What holds of all numbers below 128 holds of the ASCII characters. -/
theorem forall_ascii {P : Char → Prop} (h : ∀ n < 128, P (Char.ofNat n)) {c : Char}
    (hc : c.toNat < 128) : P c := by
  have hn := h c.toNat hc
  rwa [Char.ofNat_toNat] at hn

theorem toNat_lt_of_hexValue? {c : Char} {v : Nat} (h : hexValue? c = some v) :
    c.toNat < 128 := by
  unfold hexValue? at h
  split at h
  case isTrue hc =>
    have hlast : c.toNat ≤ 57 := hc.2
    omega
  split at h
  case isTrue hc =>
    have hlast : c.toNat ≤ 102 := hc.2
    omega
  split at h
  case isTrue hc =>
    have hlast : c.toNat ≤ 70 := hc.2
    omega
  case isFalse => exact absurd h.symm (Option.some_ne_none v)

/-- Beyond ASCII no character has a small form of its own. -/
theorem toLower_of_le {c : Char} (h : 128 ≤ c.toNat) : c.toLower = c := by
  have hlarge : ¬(c.val ≥ 'A'.val ∧ c.val ≤ 'Z'.val) := by
    intro hc
    have hlast : c.toNat ≤ 90 := hc.2
    omega
  exact dif_neg hlarge

/-! ### Digits -/

theorem lt_of_spellsDigit {c : Char} {v : Nat} (h : SpellsDigit c v) : v < 16 := by
  rcases h with h | h
  · exact (List.getElem?_eq_some_iff.mp h).1
  · exact (List.getElem?_eq_some_iff.mp h).1

/-- The characters that are read as digits, with their values. -/
theorem hexValue?_eq_some_iff {c : Char} {v : Nat} : hexValue? c = some v ↔ SpellsDigit c v := by
  constructor
  · intro h
    have hall : ∀ n < 128, (hexValue? (Char.ofNat n)).all
        (fun v => decide (SpellsDigit (Char.ofNat n) v)) = true := by
      decide +kernel
    have hc := forall_ascii (P := fun c => (hexValue? c).all
      (fun v => decide (SpellsDigit c v)) = true) hall (toNat_lt_of_hexValue? h)
    rw [h, Option.all_some] at hc
    exact of_decide_eq_true hc
  · intro h
    have hsmall : ∀ v < 16, "0123456789abcdef".toList[v]?.bind hexValue? = some v := by
      decide +kernel
    have hcapital : ∀ v < 16, "0123456789ABCDEF".toList[v]?.bind hexValue? = some v := by
      decide +kernel
    rcases h with h | h
    · have hv := hsmall v (lt_of_spellsDigit (Or.inl h))
      rwa [h, Option.bind_some] at hv
    · have hv := hcapital v (lt_of_spellsDigit (Or.inr h))
      rwa [h, Option.bind_some] at hv

theorem hexValue?_toLower (c : Char) : hexValue? c.toLower = hexValue? c := by
  by_cases hc : c.toNat < 128
  · exact forall_ascii (P := fun c => hexValue? c.toLower = hexValue? c) (by decide +kernel) hc
  · rw [toLower_of_le (Nat.le_of_not_lt hc)]

/-- A digit takes one byte. -/
theorem utf8Size_of_spellsDigit {c : Char} {v : Nat} (h : SpellsDigit c v) : c.utf8Size = 1 := by
  have hc := toNat_lt_of_hexValue? (hexValue?_eq_some_iff.mpr h)
  exact Char.utf8Size_eq_one_iff.mpr (UInt32.le_iff_toNat_le.mpr (Nat.le_of_lt_succ hc))

/-! ### Pairs of digits -/

theorem lt_of_spellsByte {c d : Char} {v : Nat} (h : SpellsByte c d v) : v < 256 := by
  rcases h with ⟨high, low, hhigh, hlow, rfl⟩
  have := lt_of_spellsDigit hhigh
  have := lt_of_spellsDigit hlow
  omega

/-- Two digits are read as one value, and nothing else of two characters is. -/
theorem hexNumber?_pair_eq_some_iff {c d : Char} {v : Nat} :
    hexNumber? [c, d] = some v ↔ SpellsByte c d v := by
  simp only [hexNumber?, hexNumberFrom?, Option.bind_eq_some_iff, hexValue?_eq_some_iff,
    Nat.zero_mul, Nat.zero_add, Option.some.injEq]
  constructor
  · rintro ⟨high, hhigh, low, hlow, rfl⟩
    exact ⟨high, low, hhigh, hlow, rfl⟩
  · rintro ⟨high, low, hhigh, hlow, rfl⟩
    exact ⟨high, hhigh, low, hlow, rfl⟩

theorem hexNumberFrom?_map_toLower (value : Nat) (cs : List Char) :
    hexNumberFrom? value (cs.map Char.toLower) = hexNumberFrom? value cs := by
  induction cs generalizing value with
  | nil => rfl
  | cons c cs ih => simp only [List.map_cons, hexNumberFrom?, hexValue?_toLower, ih]

end PanelSketch.Text
