import PanelSketch.Payload
import PanelSketch.Proofs.Text.Trimming

/-!
# Base64 Read and Written

Base64 goes group by group. The bytes of a group are put together from the values of its characters,
and a last group that is not whole has values with bits to spare, which have to be zero. `Groups`
says that much about bytes and a text, and no more. All bytes have such a text, which is the one
that is written for them, and the bytes of such a text are the ones that are read from it. Reading
fails on all other texts, so it undoes writing and accepts nothing else.

None of the characters is a blank or a comma. So whatever stands in front of the first comma of a
data URL, and whatever blanks stand around the payload, the payload is found, and it is the only
thing that can stand there.

## Main definitions

* `Groups`: The bytes and the characters of groups.
* `IsPart`: What stands behind the first comma of a text, or all of it.

## Theorems

* `sixBits?_eq_some_iff`: The alphabet, read and written.
* `groups_encode`, `groups_of_decode?`: Writing and reading keep to the groups.
* `decode?_eq_some_iff`: The texts that can be read are those that are written.
* `isPart_iff`: Every text has one part that counts.
* `ofDataUrl?_eq_some_iff`: The texts that hold some bytes.
* `reads_exactly_written`: What is written is found, and nothing else is.
-/

namespace PanelSketch.Payload

open Text (isBlank TrimsTo trimsTo_iff)

/-! ### The alphabet -/

theorem sixBits?_sixBitChar {v : Nat} (hv : v < 64) : sixBits? (sixBitChar v) = some v := by
  have hall : ∀ v < 64, sixBits? (sixBitChar v) = some v := by
    decide +kernel
  exact hall v hv

/-- A character behind the first one of a run of the alphabet, by its distance. -/
theorem ofNat_distance {c first : Char} (h : first ≤ c) :
    Char.ofNat (c.toNat - first.toNat + first.toNat) = c := by
  have hle : first.toNat ≤ c.toNat := h
  rw [Nat.sub_add_cancel hle, Char.ofNat_toNat]

/-- The characters of the alphabet are those with a value. -/
theorem sixBitChar_of_sixBits? {c : Char} {v : Nat} (h : sixBits? c = some v) :
    v < 64 ∧ sixBitChar v = c := by
  have hA : 'A'.toNat = 65 := rfl
  have ha : 'a'.toNat = 97 := rfl
  have h0 : '0'.toNat = 48 := rfl
  unfold sixBits? at h
  split at h
  case isTrue hc =>
    have hlast : c.toNat ≤ 90 := hc.2
    rw [← Option.some.inj h, sixBitChar, if_pos (by omega)]
    exact ⟨by omega, ofNat_distance hc.1⟩
  split at h
  case isTrue hc =>
    have hlast : c.toNat ≤ 122 := hc.2
    rw [← Option.some.inj h, sixBitChar, if_neg (by omega), if_pos (by omega), Nat.add_sub_cancel]
    exact ⟨by omega, ofNat_distance hc.1⟩
  split at h
  case isTrue hc =>
    have hlast : c.toNat ≤ 57 := hc.2
    rw [← Option.some.inj h, sixBitChar, if_neg (by omega), if_neg (by omega), if_pos (by omega),
      Nat.add_sub_cancel]
    exact ⟨by omega, ofNat_distance hc.1⟩
  split at h
  case isTrue hc =>
    rw [← Option.some.inj h, hc]
    decide
  split at h
  case isTrue hc =>
    rw [← Option.some.inj h, hc]
    decide
  case isFalse => exact absurd h.symm (Option.some_ne_none v)

/-- The alphabet, read and written. -/
theorem sixBits?_eq_some_iff {c : Char} {v : Nat} :
    sixBits? c = some v ↔ v < 64 ∧ sixBitChar v = c := by
  constructor
  · exact sixBitChar_of_sixBits?
  · rintro ⟨hv, rfl⟩
    exact sixBits?_sixBitChar hv

/-- A character that is no blank, no comma and no padding. -/
structure IsPlain (c : Char) : Prop where
  blank : isBlank c = false
  comma : c ≠ ','
  padding : c ≠ '='

instance (c : Char) : Decidable (IsPlain c) :=
  decidable_of_iff (isBlank c = false ∧ c ≠ ',' ∧ c ≠ '=')
    ⟨fun h => ⟨h.1, h.2.1, h.2.2⟩, fun h => ⟨h.blank, h.comma, h.padding⟩⟩

theorem isPlain_sixBitChar {v : Nat} (hv : v < 64) : IsPlain (sixBitChar v) := by
  have hall : ∀ v < 64, IsPlain (sixBitChar v) := by
    decide +kernel
  exact hall v hv

/-! ### Groups -/

/-- The bytes and the characters of groups, which come from the same values. All groups but the
    last one are whole. -/
inductive Groups : List UInt8 → List Char → Prop
  | none : Groups [] []
  | one {v₁ v₂ : Nat} (h₁ : v₁ < 64) (h₂ : v₂ < 64) (spare : v₂ % 16 = 0) :
      Groups [byte (v₁ * 4 + v₂ / 16)] [sixBitChar v₁, sixBitChar v₂, '=', '=']
  | two {v₁ v₂ v₃ : Nat} (h₁ : v₁ < 64) (h₂ : v₂ < 64) (h₃ : v₃ < 64) (spare : v₃ % 4 = 0) :
      Groups [byte (v₁ * 4 + v₂ / 16), byte (v₂ * 16 + v₃ / 4)]
        [sixBitChar v₁, sixBitChar v₂, sixBitChar v₃, '=']
  | three {v₁ v₂ v₃ v₄ : Nat} {bytes : List UInt8} {cs : List Char} (h₁ : v₁ < 64) (h₂ : v₂ < 64)
      (h₃ : v₃ < 64) (h₄ : v₄ < 64) (rest : Groups bytes cs) :
      Groups (byte (v₁ * 4 + v₂ / 16) :: byte (v₂ * 16 + v₃ / 4) :: byte (v₃ * 64 + v₄) :: bytes)
        (sixBitChar v₁ :: sixBitChar v₂ :: sixBitChar v₃ :: sixBitChar v₄ :: cs)

theorem toNat_byte (n : Nat) : (byte n).toNat = n % 256 :=
  UInt8.toNat_ofNat'

theorem byte_eq {n : Nat} {a : UInt8} (h : n % 256 = a.toNat) : byte n = a :=
  UInt8.toNat_inj.mp ((toNat_byte n).trans h)

/-- What is written for bytes keeps to the groups. -/
theorem groups_encode (bytes : List UInt8) : Groups bytes (encode bytes) := by
  induction bytes using encode.induct with
  | case1 => exact Groups.none
  | case2 a =>
      have ha := a.toNat_lt
      have hbyte : byte (a.toNat * 16 / 64 * 4 + a.toNat * 16 % 64 / 16) = a := byte_eq (by omega)
      have h := @Groups.one (a.toNat * 16 / 64) (a.toNat * 16 % 64) (by omega) (by omega) (by omega)
      rwa [hbyte] at h
  | case3 a b =>
      have ha := a.toNat_lt
      have hb := b.toNat_lt
      let n := (a.toNat * 256 + b.toNat) * 4
      have hfirst : byte (n / 4096 * 4 + n / 64 % 64 / 16) = a := byte_eq (by omega)
      have hsecond : byte (n / 64 % 64 * 16 + n % 64 / 4) = b := byte_eq (by omega)
      have h := @Groups.two (n / 4096) (n / 64 % 64) (n % 64) (by omega) (by omega) (by omega)
        (by omega)
      rwa [hfirst, hsecond] at h
  | case4 a b c rest ih =>
      have ha := a.toNat_lt
      have hb := b.toNat_lt
      have hc := c.toNat_lt
      let n := (a.toNat * 256 + b.toNat) * 256 + c.toNat
      have hfirst : byte (n / 262144 * 4 + n / 4096 % 64 / 16) = a := byte_eq (by omega)
      have hsecond : byte (n / 4096 % 64 * 16 + n / 64 % 64 / 4) = b := byte_eq (by omega)
      have hthird : byte (n / 64 % 64 * 64 + n % 64) = c := byte_eq (by omega)
      have h := @Groups.three (n / 262144) (n / 4096 % 64) (n / 64 % 64) (n % 64) rest _
        (by omega) (by omega) (by omega) (by omega) ih
      rwa [hfirst, hsecond, hthird] at h

/-- Texts that keep to the groups are those that are written. -/
theorem Groups.encode_eq {bytes : List UInt8} {cs : List Char} (h : Groups bytes cs) :
    encode bytes = cs := by
  induction h with
  | none => rfl
  | @one v₁ v₂ h₁ h₂ spare =>
      have hfirst : (v₁ * 4 + v₂ / 16) % 256 * 16 / 64 = v₁ := by omega
      have hsecond : (v₁ * 4 + v₂ / 16) % 256 * 16 % 64 = v₂ := by omega
      simp only [encode, toNat_byte, hfirst, hsecond]
  | @two v₁ v₂ v₃ h₁ h₂ h₃ spare =>
      have hbits : ((v₁ * 4 + v₂ / 16) % 256 * 256 + (v₂ * 16 + v₃ / 4) % 256) * 4
          = (v₁ * 64 + v₂) * 64 + v₃ := by omega
      have hfirst : ((v₁ * 64 + v₂) * 64 + v₃) / 4096 = v₁ := by omega
      have hsecond : ((v₁ * 64 + v₂) * 64 + v₃) / 64 % 64 = v₂ := by omega
      have hthird : ((v₁ * 64 + v₂) * 64 + v₃) % 64 = v₃ := by omega
      simp only [encode, toNat_byte, hbits, hfirst, hsecond, hthird]
  | @three v₁ v₂ v₃ v₄ bytes cs h₁ h₂ h₃ h₄ rest ih =>
      have hbits : ((v₁ * 4 + v₂ / 16) % 256 * 256 + (v₂ * 16 + v₃ / 4) % 256) * 256
          + (v₃ * 64 + v₄) % 256 = ((v₁ * 64 + v₂) * 64 + v₃) * 64 + v₄ := by omega
      have hfirst : (((v₁ * 64 + v₂) * 64 + v₃) * 64 + v₄) / 262144 = v₁ := by omega
      have hsecond : (((v₁ * 64 + v₂) * 64 + v₃) * 64 + v₄) / 4096 % 64 = v₂ := by omega
      have hthird : (((v₁ * 64 + v₂) * 64 + v₃) * 64 + v₄) / 64 % 64 = v₃ := by omega
      have hfourth : (((v₁ * 64 + v₂) * 64 + v₃) * 64 + v₄) % 64 = v₄ := by omega
      simp only [encode, toNat_byte, hbits, hfirst, hsecond, hthird, hfourth, ih]

/-- Texts that keep to the groups are read. -/
theorem Groups.decode?_eq {bytes : List UInt8} {cs : List Char} (h : Groups bytes cs) :
    decode? cs = some bytes := by
  induction h with
  | none => rfl
  | one h₁ h₂ spare =>
      rw [decode?, sixBits?_sixBitChar h₁, sixBits?_sixBitChar h₂]
      exact if_pos spare
  | two h₁ h₂ h₃ spare =>
      rw [decode?, sixBits?_sixBitChar h₁, sixBits?_sixBitChar h₂, sixBits?_sixBitChar h₃]
      · exact if_pos spare
      · exact (isPlain_sixBitChar h₃).padding
  | three h₁ h₂ h₃ h₄ rest ih =>
      rw [decode?, sixBits?_sixBitChar h₁, sixBits?_sixBitChar h₂, sixBits?_sixBitChar h₃,
        sixBits?_sixBitChar h₄, ih]
      · rfl
      · exact fun _ hc => absurd hc (isPlain_sixBitChar h₄).padding
      · exact fun hc => absurd hc (isPlain_sixBitChar h₄).padding

/-- Texts that are read keep to the groups. -/
theorem groups_of_decode? {cs : List Char} {bytes : List UInt8} (h : decode? cs = some bytes) :
    Groups bytes cs := by
  induction cs using decode?.induct generalizing bytes with
  | case1 =>
      rw [← Option.some.inj h]
      exact Groups.none
  | case2 c₁ c₂ =>
      simp only [decode?, Option.bind_eq_bind, Option.bind_eq_some_iff, sixBits?_eq_some_iff,
        Option.ite_none_right_eq_some, Option.some.injEq] at h
      rcases h with ⟨v₁, ⟨h₁, rfl⟩, v₂, ⟨h₂, rfl⟩, spare, rfl⟩
      exact Groups.one h₁ h₂ spare
  | case3 c₁ c₂ c₃ hc₃ =>
      simp only [decode?.eq_3 _ _ _ hc₃, Option.bind_eq_bind, Option.bind_eq_some_iff,
        sixBits?_eq_some_iff, Option.ite_none_right_eq_some, Option.some.injEq] at h
      rcases h with ⟨v₁, ⟨h₁, rfl⟩, v₂, ⟨h₂, rfl⟩, v₃, ⟨h₃, rfl⟩, spare, rfl⟩
      exact Groups.two h₁ h₂ h₃ spare
  | case4 c₁ c₂ c₃ c₄ rest hc₃ hc₄ ih =>
      simp only [decode?.eq_4 _ _ _ _ _ hc₃ hc₄, Option.bind_eq_bind, Option.bind_eq_some_iff,
        sixBits?_eq_some_iff, Option.pure_def, Option.some.injEq] at h
      rcases h with ⟨v₁, ⟨h₁, rfl⟩, v₂, ⟨h₂, rfl⟩, v₃, ⟨h₃, rfl⟩, v₄, ⟨h₄, rfl⟩, bytes, hrest, rfl⟩
      exact Groups.three h₁ h₂ h₃ h₄ (ih hrest)
  | case5 cs hnil hone htwo hthree =>
      rw [decode?] at h
      · exact absurd h.symm (Option.some_ne_none bytes)
      · exact hnil
      · exact hone
      · exact htwo
      · exact hthree

/-- The texts that can be read are those that are written. -/
theorem decode?_eq_some_iff {cs : List Char} {bytes : List UInt8} :
    decode? cs = some bytes ↔ cs = encode bytes := by
  constructor
  · exact fun h => (groups_of_decode? h).encode_eq.symm
  · rintro rfl
    exact (groups_encode bytes).decode?_eq

theorem Groups.blank_comma {bytes : List UInt8} {cs : List Char} (h : Groups bytes cs) :
    ∀ c ∈ cs, isBlank c = false ∧ c ≠ ',' := by
  have hvalue : ∀ {v : Nat}, v < 64 → isBlank (sixBitChar v) = false ∧ sixBitChar v ≠ ',' :=
    fun hv => ⟨(isPlain_sixBitChar hv).blank, (isPlain_sixBitChar hv).comma⟩
  have hpadding : isBlank '=' = false ∧ '=' ≠ ',' := by
    decide
  induction h with
  | none => exact List.forall_mem_nil _
  | one h₁ h₂ spare =>
      exact List.forall_mem_cons.mpr ⟨hvalue h₁, List.forall_mem_cons.mpr ⟨hvalue h₂,
        List.forall_mem_cons.mpr ⟨hpadding, List.forall_mem_singleton.mpr hpadding⟩⟩⟩
  | two h₁ h₂ h₃ spare =>
      exact List.forall_mem_cons.mpr ⟨hvalue h₁, List.forall_mem_cons.mpr ⟨hvalue h₂,
        List.forall_mem_cons.mpr ⟨hvalue h₃, List.forall_mem_singleton.mpr hpadding⟩⟩⟩
  | three h₁ h₂ h₃ h₄ rest ih =>
      exact List.forall_mem_cons.mpr ⟨hvalue h₁, List.forall_mem_cons.mpr ⟨hvalue h₂,
        List.forall_mem_cons.mpr ⟨hvalue h₃, List.forall_mem_cons.mpr ⟨hvalue h₄, ih⟩⟩⟩⟩

/-! ### Data URLs -/

/-- What stands behind the first comma of a text, or all of it when there is no comma. -/
inductive IsPart : List Char → List Char → Prop
  | bare {cs : List Char} (h : ',' ∉ cs) : IsPart cs cs
  | behind {front part : List Char} (h : ',' ∉ front) : IsPart (front ++ ',' :: part) part

theorem IsPart.afterComma_eq {cs part : List Char} (h : IsPart cs part) : afterComma cs = part := by
  cases h with
  | bare h =>
      have hdrop : cs.dropWhile (· ≠ ',') = [] :=
        List.dropWhile_eq_nil_iff.mpr fun c hc => decide_eq_true fun heq => h (heq ▸ hc)
      rw [afterComma, hdrop]
  | @behind front _ h =>
      have hdrop : (front ++ ',' :: part).dropWhile (· ≠ ',') = ',' :: part :=
        Text.dropWhile_append_of_stop (fun c hc => decide_eq_true fun heq => h (heq ▸ hc))
          (by simp)
      rw [afterComma, hdrop]

/-- Every text has one part that counts. -/
theorem isPart_iff {cs part : List Char} : IsPart cs part ↔ afterComma cs = part := by
  refine ⟨IsPart.afterComma_eq, ?_⟩
  rintro rfl
  by_cases hcomma : ',' ∈ cs
  · -- The first comma is the one with no other in front of it.
    rcases List.eq_append_cons_of_mem hcomma with ⟨front, part, rfl, hfront⟩
    have hpart := @IsPart.behind front part hfront
    rwa [hpart.afterComma_eq]
  · have hpart := IsPart.bare hcomma
    rwa [hpart.afterComma_eq]

/-- The texts that hold some bytes. -/
theorem ofDataUrl?_eq_some_iff {url : String} {bytes : List UInt8} :
    ofDataUrl? url = some bytes
      ↔ bytes ≠ [] ∧ ∃ part, IsPart url.toList part ∧ TrimsTo part (encode bytes) := by
  have hfilled : (!bytes.isEmpty) = true ↔ bytes ≠ [] := by
    rw [Bool.not_eq_true', List.isEmpty_eq_false_iff]
  rw [ofDataUrl?, Option.filter_eq_some_iff, decode?_eq_some_iff, hfilled, and_comm, payloadText]
  simp only [isPart_iff, trimsTo_iff, exists_eq_left']

/-- What is written for some bytes is found in a data URL and on its own, with any blanks around
    it, and where bytes are found, nothing else stands there. -/
theorem reads_exactly_written :
    (∀ bytes : List UInt8, bytes ≠ [] → ∀ before after : String,
      (∀ c ∈ before.toList, isBlank c = true) → (∀ c ∈ after.toList, isBlank c = true) →
      (∀ front : String, ',' ∉ front.toList →
        ofDataUrl? (front ++ "," ++ before ++ String.ofList (encode bytes) ++ after) = some bytes)
      ∧ ofDataUrl? (before ++ String.ofList (encode bytes) ++ after) = some bytes)
    ∧ ∀ (url : String) (bytes : List UInt8), ofDataUrl? url = some bytes →
      bytes ≠ [] ∧ ∃ part, IsPart url.toList part ∧ TrimsTo part (encode bytes) := by
  refine ⟨fun bytes hne before after hbefore hafter => ?_,
    fun url bytes h => ofDataUrl?_eq_some_iff.mp h⟩
  let part := before.toList ++ (encode bytes ++ after.toList)
  have hplain := (groups_encode bytes).blank_comma
  have htrim : TrimsTo part (encode bytes) := trimsTo_iff.mpr
    (Text.trimChars_append hbefore hafter fun c hc => (hplain c hc).1)
  have hblank : ∀ c, isBlank c = true → c ≠ ',' := by
    rintro c hc rfl
    exact absurd hc (by decide)
  refine ⟨fun front hfront => ?_, ?_⟩
  · refine ofDataUrl?_eq_some_iff.mpr ⟨hne, part, ?_, htrim⟩
    have hlist : (front ++ "," ++ before ++ String.ofList (encode bytes) ++ after).toList
        = front.toList ++ ',' :: part := by
      simp only [String.toList_append, String.toList_ofList, List.append_assoc, part]
      rfl
    rw [hlist]
    exact IsPart.behind hfront
  · refine ofDataUrl?_eq_some_iff.mpr ⟨hne, part, ?_, htrim⟩
    have hlist : (before ++ String.ofList (encode bytes) ++ after).toList = part := by
      simp only [String.toList_append, String.toList_ofList, List.append_assoc, part]
    rw [hlist]
    refine IsPart.bare fun hmem => ?_
    -- A comma would be a blank or one of the characters that are written.
    rcases List.mem_append.mp hmem with hmem | hmem
    · exact hblank _ (hbefore _ hmem) rfl
    · rcases List.mem_append.mp hmem with hmem | hmem
      · exact (hplain _ hmem).2 rfl
      · exact hblank _ (hafter _ hmem) rfl

/-- Two bytes in an image URL, with blanks around them and a padding. -/
theorem reads_exactly_written_image :
    ofDataUrl? ("data:image/png;base64" ++ "," ++ " " ++ String.ofList (encode [1, 254]) ++ "\r\n")
        = some [1, 254]
      ∧ String.ofList (encode [1, 254]) = "Af4="
      ∧ ∃ part, IsPart "data:image/png;base64, Af4=\r\n".toList part
        ∧ TrimsTo part (encode [1, 254]) := by
  have hbefore : " ".toList.all isBlank = true := by
    decide
  have hafter : "\r\n".toList.all isBlank = true := by
    decide
  have hread := (reads_exactly_written.1 [1, 254] (by decide) " " "\r\n"
    (List.all_eq_true.mp hbefore) (List.all_eq_true.mp hafter)).1 "data:image/png;base64"
    (by decide +kernel)
  have htext : String.ofList (encode [1, 254]) = "Af4=" := by
    decide +kernel
  exact ⟨hread, htext, (reads_exactly_written.2 _ _ (by decide +kernel)).2⟩

end PanelSketch.Payload
