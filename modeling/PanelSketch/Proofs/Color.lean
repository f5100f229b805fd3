import PanelSketch.Color
import PanelSketch.Proofs.Text.Hexadecimal

/-!
# Colours Are Read Exactly

The texts that write a colour are given by a grammar: a sharp and three pairs of
hexadecimal digits, one for each channel, or a sharp and three digits that stand for
a pair of themselves each. Reading agrees with the grammar. A text that is in it has
the colour of its channels, scaled down by quotients that fit the bits they have, so
that each of them can be read off the word again; and a text that is not in it is
black.

A text is a row of bytes, and the digits of a colour can be counted and cut out as
bytes. That is safe only because they have been looked at as characters before. All
of them are digits then, one byte each: the count is that of the characters, no cut
goes through a character or behind the end, and there is no sign that a numeral might
start with. So this way of reading never fails, and it reads the same colour.

## Main definitions

* `Rgb565.red`, `green`, `blue`: The bits of the channels.
* `Rgb565.Writes`: The texts that write a colour.
* `Rgb565.packed`: A colour put together with shifts of words.
* `Rgb565.cut`: A colour cut out of the bytes of a text.

## Theorems

* `Rgb565.toNat_ofChannels`, `Rgb565.packed_eq`: The word of a colour.
* `Rgb565.parse?_eq_some_iff`: Reading agrees with the grammar.
* `Rgb565.ofText_congr`: The case of letters does not matter.
* `Rgb565.cut_eq`: Cutting never fails.
* `Rgb565.ofText_exact`: All of it, for every text.
-/

namespace PanelSketch

namespace Rgb565

open Text (SpellsDigit SpellsByte hexValue? hexNumber? hexNumberFrom?)

/-- The five bits of red. -/
def red (color : Rgb565) : UInt16 :=
  color.bits >>> 11

/-- The six bits of green. -/
def green (color : Rgb565) : UInt16 :=
  color.bits >>> 5 &&& 63

/-- The five bits of blue. -/
def blue (color : Rgb565) : UInt16 :=
  color.bits &&& 31

/-- A text writes the channels of a colour, each with two digits or with one that stands for
    two. -/
inductive Writes : String → Nat → Nat → Nat → Prop
  | pairs {r₁ r₂ g₁ g₂ b₁ b₂ : Char} {r g b : Nat} (hr : SpellsByte r₁ r₂ r)
      (hg : SpellsByte g₁ g₂ g) (hb : SpellsByte b₁ b₂ b) :
      Writes (String.ofList ['#', r₁, r₂, g₁, g₂, b₁, b₂]) r g b
  | single {r₁ g₁ b₁ : Char} {r g b : Nat} (hr : SpellsByte r₁ r₁ r) (hg : SpellsByte g₁ g₁ g)
      (hb : SpellsByte b₁ b₁ b) : Writes (String.ofList ['#', r₁, g₁, b₁]) r g b

/-! ### The word of a colour -/

/-- A channel that is scaled down fits the bits it has on a panel. -/
theorem scaled_le {v : Nat} (hv : v < 256) (greatest : Nat) : v * greatest / 255 ≤ greatest :=
  Nat.div_le_of_le_mul (Nat.mul_le_mul_right greatest (Nat.le_of_lt_succ hv))

theorem toNat_ofChannels {r g b : Nat} (hr : r < 256) (hg : g < 256) (hb : b < 256) :
    (ofChannels r g b).bits.toNat = r * 31 / 255 * 2048 + g * 63 / 255 * 32 + b * 31 / 255 := by
  have hred := scaled_le hr 31
  have hgreen := scaled_le hg 63
  have hblue := scaled_le hb 31
  rw [ofChannels, UInt16.toNat_ofNat']
  omega

/-- The three channels can be read off the word of a colour. -/
theorem channels_ofChannels {r g b : Nat} (hr : r < 256) (hg : g < 256) (hb : b < 256) :
    (ofChannels r g b).red.toNat = r * 31 / 255 ∧ (ofChannels r g b).green.toNat = g * 63 / 255
      ∧ (ofChannels r g b).blue.toNat = b * 31 / 255 := by
  have hred := scaled_le hr 31
  have hgreen := scaled_le hg 63
  have hblue := scaled_le hb 31
  have hsix (n : Nat) : n &&& 63 = n % 64 := Nat.and_two_pow_sub_one_eq_mod n 6
  have hfive (n : Nat) : n &&& 31 = n % 32 := Nat.and_two_pow_sub_one_eq_mod n 5
  simp only [red, green, blue, UInt16.toNat_and, UInt16.toNat_shiftRight, Nat.shiftRight_eq_div_pow,
    toNat_ofChannels hr hg hb, UInt16.reduceToNat, Nat.reduceMod, Nat.reducePow, hsix, hfive]
  -- What is left is about the quotients, whatever they are quotients of.
  generalize r * 31 / 255 = i at *
  generalize g * 63 / 255 = j at *
  generalize b * 31 / 255 = k at *
  omega

/-- A colour put together from words, with shifts that make room for the lower channels. -/
def packed (r g b : UInt8) : Rgb565 :=
  ⟨(r.toUInt16 * 31 / 255) <<< 11 ||| (g.toUInt16 * 63 / 255) <<< 5 ||| b.toUInt16 * 31 / 255⟩

/-- The product of a channel does not leave its word. -/
theorem toNat_scaled (v : UInt8) (greatest : UInt16) (h : greatest.toNat ≤ 255) :
    (v.toUInt16 * greatest / 255).toNat = v.toNat * greatest.toNat / 255 := by
  have hproduct : v.toNat * greatest.toNat ≤ 255 * 255 :=
    Nat.mul_le_mul (Nat.le_of_lt_succ v.toNat_lt) h
  rw [UInt16.toNat_div, UInt16.toNat_mul, UInt8.toNat_toUInt16, Nat.mod_eq_of_lt (by omega)]
  rfl

/-- Shifted numbers are put together like digits, as long as none reaches into the next. -/
theorem shifted_or (i : Nat) {j k : Nat} (hj : j < 64) (hk : k < 32) :
    i <<< 11 ||| j <<< 5 ||| k = i * 2048 + j * 32 + k := by
  have hupper : i <<< 11 ||| j <<< 5 = (i * 64 + j) <<< 5 := by
    rw [← Nat.shiftLeft_add_eq_or_of_lt (by rw [Nat.shiftLeft_eq]; omega)]
    simp only [Nat.shiftLeft_eq, Nat.reducePow]
    omega
  rw [hupper, ← Nat.shiftLeft_add_eq_or_of_lt hk, Nat.shiftLeft_eq]
  omega

/-- No channel reaches into the bits of another. -/
theorem packed_eq (r g b : UInt8) : packed r g b = ofChannels r.toNat g.toNat b.toNat := by
  have hred := scaled_le r.toNat_lt 31
  have hgreen := scaled_le g.toNat_lt 63
  have hblue := scaled_le b.toNat_lt 31
  have hword : (packed r g b).bits = (ofChannels r.toNat g.toNat b.toNat).bits := by
    rw [← UInt16.toNat_inj, toNat_ofChannels r.toNat_lt g.toNat_lt b.toNat_lt,
      ← shifted_or _ (by omega) (by omega)]
    simp only [packed, UInt16.toNat_or, UInt16.toNat_shiftLeft, toNat_scaled r 31 (by decide),
      toNat_scaled g 63 (by decide), toNat_scaled b 31 (by decide), UInt16.reduceToNat,
      Nat.reduceMod]
    rw [Nat.mod_eq_of_lt (by rw [Nat.shiftLeft_eq]; omega),
      Nat.mod_eq_of_lt (by rw [Nat.shiftLeft_eq]; omega)]
  exact congrArg Rgb565.mk hword

/-! ### The grammar -/

theorem ofDigits?_eq_some_iff {cs : List Char} {color : Rgb565} :
    ofDigits? cs = some color ↔ ∃ r₁ r₂ g₁ g₂ b₁ b₂ r g b, cs = [r₁, r₂, g₁, g₂, b₁, b₂]
      ∧ SpellsByte r₁ r₂ r ∧ SpellsByte g₁ g₂ g ∧ SpellsByte b₁ b₂ b
      ∧ color = ofChannels r g b := by
  constructor
  · intro h
    unfold ofDigits? at h
    split at h
    · rename_i r₁ r₂ g₁ g₂ b₁ b₂
      simp only [Option.bind_eq_bind, Option.bind_eq_some_iff, Option.pure_def,
        Option.some.injEq] at h
      rcases h with ⟨r, hr, g, hg, b, hb, rfl⟩
      exact ⟨r₁, r₂, g₁, g₂, b₁, b₂, r, g, b, rfl, Text.hexNumber?_pair_eq_some_iff.mp hr,
        Text.hexNumber?_pair_eq_some_iff.mp hg, Text.hexNumber?_pair_eq_some_iff.mp hb, rfl⟩
    · exact absurd h.symm (Option.some_ne_none color)
  · rintro ⟨r₁, r₂, g₁, g₂, b₁, b₂, r, g, b, rfl, hr, hg, hb, rfl⟩
    simp only [ofDigits?, Text.hexNumber?_pair_eq_some_iff.mpr hr,
      Text.hexNumber?_pair_eq_some_iff.mpr hg, Text.hexNumber?_pair_eq_some_iff.mpr hb,
      Option.bind_eq_bind, Option.bind_some, Option.pure_def]

/-- Reading agrees with the grammar. -/
theorem parse?_eq_some_iff {text : String} {color : Rgb565} :
    parse? text = some color ↔ ∃ r g b, Writes text r g b ∧ color = ofChannels r g b := by
  constructor
  · intro h
    unfold parse? at h
    split at h
    · -- A single digit is read as a pair of itself.
      rename_i r₁ g₁ b₁ htext
      rcases ofDigits?_eq_some_iff.mp h with ⟨_, _, _, _, _, _, r, g, b, hcs, hr, hg, hb, rfl⟩
      simp only [List.cons.injEq, and_true] at hcs
      rcases hcs with ⟨rfl, rfl, rfl, rfl, rfl, rfl⟩
      rw [← String.ofList_toList (s := text), htext]
      exact ⟨r, g, b, Writes.single hr hg hb, rfl⟩
    · rename_i digits _ htext
      rcases ofDigits?_eq_some_iff.mp h with ⟨_, _, _, _, _, _, r, g, b, rfl, hr, hg, hb, rfl⟩
      rw [← String.ofList_toList (s := text), htext]
      exact ⟨r, g, b, Writes.pairs hr hg hb, rfl⟩
    · exact absurd h.symm (Option.some_ne_none color)
  · rintro ⟨r, g, b, hwrites, rfl⟩
    cases hwrites with
    | pairs hr hg hb =>
        rw [parse?, String.toList_ofList]
        exact ofDigits?_eq_some_iff.mpr ⟨_, _, _, _, _, _, r, g, b, rfl, hr, hg, hb, rfl⟩
    | single hr hg hb =>
        rw [parse?, String.toList_ofList]
        exact ofDigits?_eq_some_iff.mpr ⟨_, _, _, _, _, _, r, g, b, rfl, hr, hg, hb, rfl⟩

theorem Writes.lt {text : String} {r g b : Nat} (h : Writes text r g b) :
    r < 256 ∧ g < 256 ∧ b < 256 := by
  cases h with
  | pairs hr hg hb =>
      exact ⟨Text.lt_of_spellsByte hr, Text.lt_of_spellsByte hg, Text.lt_of_spellsByte hb⟩
  | single hr hg hb =>
      exact ⟨Text.lt_of_spellsByte hr, Text.lt_of_spellsByte hg, Text.lt_of_spellsByte hb⟩

theorem ofText_of_writes {text : String} {r g b : Nat} (h : Writes text r g b) :
    ofText text = ofChannels r g b := by
  rw [ofText, parse?_eq_some_iff.mpr ⟨r, g, b, h, rfl⟩, Option.getD_some]

/-- A text that is not in the grammar is black. -/
theorem ofText_of_not_writes {text : String} (h : ∀ r g b, ¬Writes text r g b) :
    ofText text = black := by
  refine ofText_of_parse?_eq_none (Option.eq_none_iff_forall_not_mem.mpr fun color hcolor => ?_)
  rcases parse?_eq_some_iff.mp hcolor with ⟨r, g, b, hwrites, _⟩
  exact h r g b hwrites

/-! ### The case of letters -/

theorem ofDigits?_map_toLower (cs : List Char) :
    ofDigits? (cs.map Char.toLower) = ofDigits? cs := by
  rcases cs with _ | ⟨r₁, _ | ⟨r₂, _ | ⟨g₁, _ | ⟨g₂, _ | ⟨b₁, _ | ⟨b₂, _ | ⟨c, cs⟩⟩⟩⟩⟩⟩⟩
  case cons.cons.cons.cons.cons.cons.nil =>
    have hpair (c d : Char) : hexNumber? [c.toLower, d.toLower] = hexNumber? [c, d] :=
      Text.hexNumberFrom?_map_toLower 0 [c, d]
    simp only [List.map_cons, List.map_nil, ofDigits?, hpair]
  all_goals rfl

/-- Three digits behind the sharp are doubled, any others are read as they are. -/
theorem parse?_of_toList_eq {text : String} {digits : List Char}
    (h : text.toList = '#' :: digits) :
    parse? text
      = ofDigits? (if digits.length = 3 then digits.flatMap fun c => [c, c] else digits) := by
  unfold parse?
  rw [h]
  rcases digits with _ | ⟨r, _ | ⟨g, _ | ⟨b, _ | ⟨d, digits⟩⟩⟩⟩
  case cons.cons.cons.cons =>
    have hlength : (r :: g :: b :: d :: digits).length ≠ 3 := by
      simp only [List.length_cons]
      omega
    rw [if_neg hlength]
    rfl
  all_goals rfl

theorem parse?_of_head?_ne {text : String} (h : text.toList.head? ≠ some '#') :
    parse? text = none := by
  unfold parse?
  split
  · rename_i htext
    exact absurd (by rw [htext]; rfl) h
  · rename_i htext
    exact absurd (by rw [htext]; rfl) h
  · rfl

theorem toLower_eq_sharp_iff (c : Char) : c.toLower = '#' ↔ c = '#' := by
  by_cases hc : c.toNat < 128
  · exact Text.forall_ascii (P := fun c => c.toLower = '#' ↔ c = '#') (by decide +kernel) hc
  · rw [Text.toLower_of_le (Nat.le_of_not_lt hc)]

theorem parse?_toLower (text : String) : parse? text.toLower = parse? text := by
  have hlower : text.toLower.toList = text.toList.map Char.toLower := String.toList_map
  rcases htext : text.toList with _ | ⟨c, cs⟩
  · rw [htext] at hlower
    rw [parse?_of_head?_ne (by rw [hlower]; exact (Option.some_ne_none '#').symm),
      parse?_of_head?_ne (by rw [htext]; exact (Option.some_ne_none '#').symm)]
  rw [htext, List.map_cons] at hlower
  by_cases hc : c = '#'
  · subst hc
    -- The number of digits decides how they are read, and it stays.
    rw [parse?_of_toList_eq hlower, parse?_of_toList_eq htext, List.length_map, List.flatMap_map]
    split
    · rw [← ofDigits?_map_toLower (cs.flatMap fun c => [c, c]), List.map_flatMap]
      rfl
    · exact ofDigits?_map_toLower cs
  · have hne : c.toLower ≠ '#' := mt (toLower_eq_sharp_iff c).mp hc
    rw [parse?_of_head?_ne (by rw [hlower]; exact mt Option.some.inj hne),
      parse?_of_head?_ne (by rw [htext]; exact mt Option.some.inj hc)]

/-- Texts that differ in the case of letters only write the same colour. -/
theorem ofText_congr {text other : String} (h : other.toLower = text.toLower) :
    ofText other = ofText text := by
  rw [ofText, ofText, ← parse?_toLower other, h, parse?_toLower]

/-! ### Bytes -/

/-- What can go wrong when the channels are cut out of the bytes of a text. -/
inductive CutFault where
  /-- The bytes end before the cut, or the cut goes through a character. -/
  | boundary
  /-- What was cut out is not the number of a channel. -/
  | channel
  deriving DecidableEq, Repr

/-- The bytes of a text between two places, if these lie between characters. -/
def byteRange? (text : String) (first last : Nat) : Option String :=
  if h : first ≤ last ∧ String.Pos.Raw.IsValid text ⟨first⟩
      ∧ String.Pos.Raw.IsValid text ⟨last⟩ then
    some (text.extract (text.pos ⟨first⟩ h.2.1) (text.pos ⟨last⟩ h.2.2))
  else none

/-- A numeral of eight bits. It may have a sign, of which the colours know nothing. -/
def hexByte? (numeral : String) : Option UInt8 :=
  let digits := match numeral.toList with
    | '+' :: digits => digits
    | digits => digits
  if digits = [] then none
  else (hexNumber? digits).bind fun v => if v < 256 then some (UInt8.ofNat v) else none

/-- The channel that the two bytes behind a place write. -/
def cutChannel (digits : String) (place : Nat) : Except CutFault UInt8 :=
  match byteRange? digits place (place + 2) with
  | none => .error .boundary
  | some numeral =>
      match hexByte? numeral with
      | none => .error .channel
      | some v => .ok v

/-- The colour of three channels, cut out one after the other. -/
def cutDigits (digits : String) : Except CutFault Rgb565 := do
  return packed (← cutChannel digits 0) (← cutChannel digits 2) (← cutChannel digits 4)

/-- The colour that a text writes, or black, found by counting and cutting bytes. -/
def cut (text : String) : Except CutFault Rgb565 :=
  match text.toList with
  | '#' :: digits =>
      if digits.all fun c => (hexValue? c).isSome then
        match (String.ofList digits).utf8ByteSize with
        | 3 => cutDigits (String.ofList (digits.flatMap fun c => [c, c]))
        | 6 => cutDigits (String.ofList digits)
        | _ => .ok black
      else .ok black
  | _ => .ok black

/-- What stands between two other texts can be cut out of all three. -/
theorem byteRange?_append (front middle back : String) :
    byteRange? (front ++ middle ++ back) front.utf8ByteSize
      (front.utf8ByteSize + middle.utf8ByteSize) = some middle := by
  have hfirst : String.Pos.Raw.IsValid (front ++ middle ++ back) ⟨front.utf8ByteSize⟩ :=
    String.Pos.Raw.isValid_iff_exists_append.mpr
      ⟨front, middle ++ back, String.append_assoc .., rfl⟩
  have hlast : String.Pos.Raw.IsValid (front ++ middle ++ back)
      ⟨front.utf8ByteSize + middle.utf8ByteSize⟩ := by
    rw [← String.utf8ByteSize_append]
    exact String.Pos.Raw.isValid_iff_exists_append.mpr ⟨front ++ middle, back, rfl, rfl⟩
  rw [byteRange?, dif_pos ⟨Nat.le_add_right .., hfirst, hlast⟩]
  refine congrArg some (String.toByteArray_inj.mp ?_)
  rw [String.toByteArray_extract, String.toByteArray_append, String.toByteArray_append,
    ByteArray.append_assoc]
  show (front.toByteArray ++ (middle.toByteArray ++ back.toByteArray)).extract
    (front.toByteArray.size + 0) (front.toByteArray.size + middle.toByteArray.size) = _
  rw [ByteArray.extract_append_size_add, ByteArray.extract_append_eq_left rfl]

/-- A row of digits takes one byte for each. -/
theorem utf8ByteSize_ofList_of_digits {cs : List Char}
    (h : ∀ c ∈ cs, (hexValue? c).isSome = true) : (String.ofList cs).utf8ByteSize = cs.length := by
  induction cs with
  | nil => rfl
  | cons c cs ih =>
      rcases Option.isSome_iff_exists.mp (h c List.mem_cons_self) with ⟨v, hv⟩
      have hc := Text.utf8Size_of_spellsDigit (Text.hexValue?_eq_some_iff.mp hv)
      have hcs := ih fun d hd => h d (List.mem_cons_of_mem c hd)
      rw [← List.singleton_append, String.ofList_append, String.utf8ByteSize_append, hcs,
        ← String.singleton_eq_ofList, String.utf8ByteSize_singleton, hc, List.length_append,
        List.length_singleton]

theorem digits_of_spellsByte {c d : Char} {v : Nat} (h : SpellsByte c d v) :
    ∀ x ∈ [c, d], (hexValue? x).isSome = true := by
  rcases h with ⟨high, low, hhigh, hlow, _⟩
  simp only [List.forall_mem_cons, List.not_mem_nil, false_imp_iff, implies_true,
    Text.hexValue?_eq_some_iff.mpr hhigh, Text.hexValue?_eq_some_iff.mpr hlow,
    Option.isSome_some, and_self]

theorem spellsByte_of_digits {c d : Char} (hc : (hexValue? c).isSome = true)
    (hd : (hexValue? d).isSome = true) : ∃ v, SpellsByte c d v := by
  rcases Option.isSome_iff_exists.mp hc with ⟨high, hhigh⟩
  rcases Option.isSome_iff_exists.mp hd with ⟨low, hlow⟩
  exact ⟨_, high, low, Text.hexValue?_eq_some_iff.mp hhigh, Text.hexValue?_eq_some_iff.mp hlow, rfl⟩

/-- A pair of digits has no sign, and its value has eight bits. -/
theorem hexByte?_of_spellsByte {c d : Char} {v : Nat} (h : SpellsByte c d v) :
    hexByte? (String.ofList [c, d]) = some (UInt8.ofNat v) := by
  have hsign : c ≠ '+' := by
    rintro rfl
    rcases h with ⟨high, _, hhigh, _⟩
    have hplus : some high = hexValue? '+' := (Text.hexValue?_eq_some_iff.mpr hhigh).symm
    exact absurd hplus (Option.some_ne_none high)
  have hdigits : (match (String.ofList [c, d]).toList with
      | '+' :: digits => digits
      | digits => digits) = [c, d] := by
    rw [String.toList_ofList]
    split
    · rename_i digits hcons
      exact absurd (List.cons.inj hcons).1 hsign
    · rfl
  rw [hexByte?, hdigits, if_neg (List.cons_ne_nil c [d]),
    Text.hexNumber?_pair_eq_some_iff.mpr h, Option.bind_some, if_pos (Text.lt_of_spellsByte h)]

/-- Behind nothing but digits, a channel is where counting bytes finds it. -/
theorem cutChannel_eq {front : List Char} (back : List Char) {c d : Char} {v : Nat}
    (hfront : ∀ x ∈ front, (hexValue? x).isSome = true) (h : SpellsByte c d v) :
    cutChannel (String.ofList (front ++ [c, d] ++ back)) front.length = .ok (UInt8.ofNat v) := by
  have hplace := utf8ByteSize_ofList_of_digits hfront
  have hwidth : (String.ofList [c, d]).utf8ByteSize = 2 :=
    utf8ByteSize_ofList_of_digits (digits_of_spellsByte h)
  have hrange := byteRange?_append (String.ofList front) (String.ofList [c, d]) (String.ofList back)
  rw [hplace, hwidth, ← String.ofList_append, ← String.ofList_append] at hrange
  rw [cutChannel, hrange]
  dsimp only
  rw [hexByte?_of_spellsByte h]

theorem cutDigits_eq {r₁ r₂ g₁ g₂ b₁ b₂ : Char} {r g b : Nat} (hr : SpellsByte r₁ r₂ r)
    (hg : SpellsByte g₁ g₂ g) (hb : SpellsByte b₁ b₂ b) :
    cutDigits (String.ofList [r₁, r₂, g₁, g₂, b₁, b₂]) = .ok (ofChannels r g b) := by
  have hfront : ∀ x ∈ [r₁, r₂, g₁, g₂], (hexValue? x).isSome = true :=
    List.forall_mem_append.mpr ⟨digits_of_spellsByte hr, digits_of_spellsByte hg⟩
  have hred : cutChannel (String.ofList [r₁, r₂, g₁, g₂, b₁, b₂]) 0 = .ok (UInt8.ofNat r) :=
    cutChannel_eq [g₁, g₂, b₁, b₂] (List.forall_mem_nil _) hr
  have hgreen : cutChannel (String.ofList [r₁, r₂, g₁, g₂, b₁, b₂]) 2 = .ok (UInt8.ofNat g) :=
    cutChannel_eq [b₁, b₂] (digits_of_spellsByte hr) hg
  have hblue : cutChannel (String.ofList [r₁, r₂, g₁, g₂, b₁, b₂]) 4 = .ok (UInt8.ofNat b) :=
    cutChannel_eq [] hfront hb
  simp only [cutDigits, hred, hgreen, hblue, bind, Except.bind, pure, Except.pure, packed_eq,
    UInt8.toNat_ofNat_of_lt' (Text.lt_of_spellsByte hr),
    UInt8.toNat_ofNat_of_lt' (Text.lt_of_spellsByte hg),
    UInt8.toNat_ofNat_of_lt' (Text.lt_of_spellsByte hb)]

theorem cutDigits_of_length_three {digits : List Char}
    (h : ∀ c ∈ digits, (hexValue? c).isSome = true) (hlength : digits.length = 3) :
    ∃ r g b, Writes (String.ofList ('#' :: digits)) r g b
      ∧ cutDigits (String.ofList (digits.flatMap fun c => [c, c])) = .ok (ofChannels r g b) := by
  rcases digits with _ | ⟨r₁, _ | ⟨g₁, _ | ⟨b₁, _ | ⟨d, digits⟩⟩⟩⟩
  case cons.cons.cons.nil =>
    simp only [List.forall_mem_cons] at h
    rcases h with ⟨hr₁, hg₁, hb₁, _⟩
    rcases spellsByte_of_digits hr₁ hr₁ with ⟨r, hr⟩
    rcases spellsByte_of_digits hg₁ hg₁ with ⟨g, hg⟩
    rcases spellsByte_of_digits hb₁ hb₁ with ⟨b, hb⟩
    exact ⟨r, g, b, Writes.single hr hg hb, cutDigits_eq hr hg hb⟩
  all_goals
    simp only [List.length_cons, List.length_nil] at hlength
    omega

theorem cutDigits_of_length_six {digits : List Char}
    (h : ∀ c ∈ digits, (hexValue? c).isSome = true) (hlength : digits.length = 6) :
    ∃ r g b, Writes (String.ofList ('#' :: digits)) r g b
      ∧ cutDigits (String.ofList digits) = .ok (ofChannels r g b) := by
  rcases digits with
    _ | ⟨r₁, _ | ⟨r₂, _ | ⟨g₁, _ | ⟨g₂, _ | ⟨b₁, _ | ⟨b₂, _ | ⟨d, digits⟩⟩⟩⟩⟩⟩⟩
  case cons.cons.cons.cons.cons.cons.nil =>
    simp only [List.forall_mem_cons] at h
    rcases h with ⟨hr₁, hr₂, hg₁, hg₂, hb₁, hb₂, _⟩
    rcases spellsByte_of_digits hr₁ hr₂ with ⟨r, hr⟩
    rcases spellsByte_of_digits hg₁ hg₂ with ⟨g, hg⟩
    rcases spellsByte_of_digits hb₁ hb₂ with ⟨b, hb⟩
    exact ⟨r, g, b, Writes.pairs hr hg hb, cutDigits_eq hr hg hb⟩
  all_goals
    simp only [List.length_cons, List.length_nil] at hlength
    omega

/-- What writes a colour is a sharp and digits, three or six of them. -/
theorem Writes.digits {text : String} {r g b : Nat} (h : Writes text r g b) :
    ∃ cs, text.toList = '#' :: cs ∧ (cs.all fun c => (hexValue? c).isSome) = true
      ∧ (cs.length = 3 ∨ cs.length = 6) := by
  cases h with
  | pairs hr hg hb =>
      refine ⟨_, String.toList_ofList, List.all_eq_true.mpr ?_, Or.inr rfl⟩
      exact List.forall_mem_append.mpr ⟨digits_of_spellsByte hr, List.forall_mem_append.mpr
        ⟨digits_of_spellsByte hg, digits_of_spellsByte hb⟩⟩
  | @single r₁ g₁ b₁ _ _ _ hr hg hb =>
      refine ⟨_, String.toList_ofList, List.all_eq_true.mpr ?_, Or.inl rfl⟩
      have hred := digits_of_spellsByte hr r₁ List.mem_cons_self
      have hgreen := digits_of_spellsByte hg g₁ List.mem_cons_self
      have hblue := digits_of_spellsByte hb b₁ List.mem_cons_self
      exact List.forall_mem_cons.mpr ⟨hred, List.forall_mem_cons.mpr
        ⟨hgreen, List.forall_mem_singleton.mpr hblue⟩⟩

/-- Counting and cutting bytes never fails, and it finds the colour. -/
theorem cut_eq (text : String) : cut text = .ok (ofText text) := by
  unfold cut
  split
  · rename_i digits htext
    split
    · rename_i hdigits
      rw [List.all_eq_true] at hdigits
      rw [utf8ByteSize_ofList_of_digits hdigits]
      split
      · rename_i hthree
        rcases cutDigits_of_length_three hdigits hthree with ⟨r, g, b, hwrites, hcut⟩
        rw [hcut, ← String.ofList_toList (s := text), htext, ofText_of_writes hwrites]
      · rename_i hsix
        rcases cutDigits_of_length_six hdigits hsix with ⟨r, g, b, hwrites, hcut⟩
        rw [hcut, ← String.ofList_toList (s := text), htext, ofText_of_writes hwrites]
      · rename_i hthree hsix
        rw [ofText_of_not_writes fun r g b hwrites => ?_]
        rcases hwrites.digits with ⟨cs, hcs, _, hlength⟩
        rw [htext, List.cons.injEq] at hcs
        exact hlength.elim (hcs.2 ▸ hthree) (hcs.2 ▸ hsix)
    · rename_i hdigits
      rw [ofText_of_not_writes fun r g b hwrites => ?_]
      rcases hwrites.digits with ⟨cs, hcs, hall, _⟩
      rw [htext, List.cons.injEq] at hcs
      exact hdigits (hcs.2 ▸ hall)
  · rename_i hsharp
    rw [ofText_of_not_writes fun r g b hwrites => ?_]
    rcases hwrites.digits with ⟨cs, hcs, _⟩
    exact hsharp cs hcs

/-- Reading is exact for every text. A text of the grammar has the colour of its channels, and
    they can be read off the word; every other text is black; three digits stand for six; the
    case of letters does not matter; and cutting the channels out of the bytes never fails and
    finds the same colour. -/
theorem ofText_exact (text : String) :
    (∀ r g b, Writes text r g b →
        (ofText text).bits.toNat = r * 31 / 255 * 2048 + g * 63 / 255 * 32 + b * 31 / 255
        ∧ (ofText text).red.toNat = r * 31 / 255 ∧ (ofText text).green.toNat = g * 63 / 255
        ∧ (ofText text).blue.toNat = b * 31 / 255)
      ∧ ((∀ r g b, ¬Writes text r g b) → (ofText text).bits = 0)
      ∧ (∀ r g b, text.toList = ['#', r, g, b] →
          ofText text = ofText (String.ofList ['#', r, r, g, g, b, b]))
      ∧ (∀ other : String, other.toLower = text.toLower → ofText other = ofText text)
      ∧ cut text = .ok (ofText text) := by
  refine ⟨fun r g b h => ?_, fun h => ?_, fun r g b h => ?_, fun other => ofText_congr,
    cut_eq text⟩
  · rcases h.lt with ⟨hr, hg, hb⟩
    rw [ofText_of_writes h]
    exact ⟨toNat_ofChannels hr hg hb, channels_ofChannels hr hg hb⟩
  · rw [ofText_of_not_writes h]
    rfl
  · rw [ofText, ofText, parse?_of_toList_eq h, parse?_of_toList_eq String.toList_ofList]
    rfl

end Rgb565

end PanelSketch
