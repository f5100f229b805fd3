/-!
# The Order of Bytes

Keys are sorted by their bytes, and a text is compared character by character. The two
orders are the same. That is what the encoding was made for: a greater code point has a
greater first byte, or an equal one and then a greater second byte, and so on; and no
character's bytes go on where those of another end.

So two texts are told apart by the first character in which they differ, whichever of the
two one looks at.

## Theorems

* `Text.toList_utf8`: The bytes of a text are those of its characters.
* `Text.utf8EncodeChar_lt`: A greater character has greater bytes, whatever follows.
* `Text.utf8_lt_iff`, `Text.utf8_le_iff`: Bytes are in the order of the texts.
-/

namespace PanelSketch.Text

/-- The bytes of an array are read off one after the other. -/
theorem toList_loop_eq (bytes : ByteArray) (i : Nat) (taken : List UInt8) :
    ByteArray.toList.loop bytes i taken = taken.reverse ++ bytes.data.toList.drop i := by
  fun_induction ByteArray.toList.loop bytes i taken with
  | case1 i taken hi ih =>
      have hlength : i < bytes.data.toList.length := hi
      have hbyte : bytes.get! i = bytes.data.toList[i] := getElem!_pos bytes.data i hi
      rw [ih, List.reverse_cons, List.append_assoc, List.singleton_append,
        List.drop_eq_getElem_cons hlength, hbyte]
  | case2 i taken hi =>
      have hlength : bytes.data.toList.length ≤ i := Nat.le_of_not_lt hi
      rw [List.drop_eq_nil_of_le hlength, List.append_nil]

theorem toList_utf8 (s : String) : s.toUTF8.toList = s.toList.flatMap String.utf8EncodeChar := by
  have hchars : s.toByteArray = s.toList.utf8Encode := by
    rw [← String.toByteArray_ofList, String.ofList_toList]
  rw [String.toUTF8_eq_toByteArray, hchars, ByteArray.toList, toList_loop_eq, List.reverse_nil,
    List.nil_append, List.drop_zero, List.utf8Encode, List.toList_data_toByteArray]

/-- A greater character has greater bytes, and what follows does not matter. -/
theorem utf8EncodeChar_lt {c d : Char} (h : c < d) (rest rest' : List UInt8) :
    String.utf8EncodeChar c ++ rest < String.utf8EncodeChar d ++ rest' := by
  have hlt : c.val.toNat < d.val.toNat := h
  have hvalid : d.val.toNat < 0x110000 := by
    have hd := d.valid
    simp only [UInt32.isValidChar, Nat.isValidChar] at hd
    omega
  unfold String.utf8EncodeChar
  dsimp only
  generalize c.val.toNat = m at *
  generalize d.val.toNat = n at *
  by_cases hlong : m ≤ 0xffff
  · -- The first character has one to three bytes, and the second at least as many.
    repeat' split
    all_goals simp only [List.cons_append, List.nil_append, List.cons_lt_cons_iff,
      UInt8.lt_iff_toNat_lt, ← UInt8.toNat_inj, UInt8.toNat_ofNat', Nat.reducePow]
    all_goals omega
  · -- Both have four bytes, and the first byte in which they differ tells.
    rw [if_neg (by omega), if_neg (by omega), if_neg hlong, if_neg (by omega), if_neg (by omega),
      if_neg (by omega)]
    simp only [List.cons_append, List.nil_append, List.cons_lt_cons_iff,
      UInt8.lt_iff_toNat_lt, ← UInt8.toNat_inj, UInt8.toNat_ofNat', Nat.reducePow]
    rcases Nat.lt_or_ge (m / 262144) (n / 262144) with hfirst | hfirst
    · omega
    · rcases Nat.lt_or_ge (m / 4096) (n / 4096) with hsecond | hsecond
      · omega
      · rcases Nat.lt_or_ge (m / 64) (n / 64) with hthird | hthird
        · omega
        · omega

theorem flatMap_utf8EncodeChar_lt {cs ds : List Char} (h : cs < ds) :
    cs.flatMap String.utf8EncodeChar < ds.flatMap String.utf8EncodeChar := by
  induction h with
  | nil =>
      rename_i d ds
      rw [List.flatMap_cons, List.flatMap_nil]
      rcases hbytes : String.utf8EncodeChar d with _ | ⟨byte, bytes⟩
      · exact absurd hbytes String.utf8EncodeChar_ne_nil
      · exact List.nil_lt_cons _ _
  | rel hcd =>
      rw [List.flatMap_cons, List.flatMap_cons]
      exact utf8EncodeChar_lt hcd _ _
  | cons _ ih =>
      rw [List.flatMap_cons, List.flatMap_cons]
      exact List.append_left_lt ih

/-- Bytes are in the order of the texts. -/
theorem utf8_lt_iff {s t : String} : s.toUTF8.toList < t.toUTF8.toList ↔ s < t := by
  rw [toList_utf8, toList_utf8, String.lt_iff]
  refine ⟨fun hbytes => Classical.byContradiction fun hst => ?_, flatMap_utf8EncodeChar_lt⟩
  -- Otherwise the texts are equal or in the other order, and so are the bytes.
  rcases List.le_iff_lt_or_eq.mp (List.not_lt.mp hst) with hts | hts
  · exact List.lt_asymm hbytes (flatMap_utf8EncodeChar_lt hts)
  · rw [hts] at hbytes
    exact List.lt_irrefl _ hbytes

theorem utf8_le_iff {s t : String} : s.toUTF8.toList ≤ t.toUTF8.toList ↔ s ≤ t := by
  rw [← List.not_lt, utf8_lt_iff, String.not_lt]

end PanelSketch.Text
