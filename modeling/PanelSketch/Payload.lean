import PanelSketch.Text.Blank

/-!
# Image Payloads

An image asset is stored as a data URL: a header, a comma, and the bytes in
base64. Only the bytes matter here. Everything up to the first comma is
dropped, a text without a comma is taken as bare base64, and blanks around the
payload are trimmed.

Base64 is read strictly: the standard alphabet, whole groups of four, padding
exactly where it is due, and no stray bits in the last group. With that every
byte string has exactly one written form, the one `encode` gives.

## Main definitions

* `sixBits?`, `sixBitChar`: The alphabet, read and written.
* `decode?`, `encode`: Base64 read and written.
* `payloadText`, `ofDataUrl?`: The bytes of a data URL.

## Theorems

* `ofDataUrl?_ne_nil`: A payload is never empty.
-/

namespace PanelSketch.Payload

open Text (trimChars)

/-- The value of a character of the standard alphabet. -/
def sixBits? (c : Char) : Option Nat :=
  if 'A' ≤ c ∧ c ≤ 'Z' then some (c.toNat - 'A'.toNat)
  else if 'a' ≤ c ∧ c ≤ 'z' then some (c.toNat - 'a'.toNat + 26)
  else if '0' ≤ c ∧ c ≤ '9' then some (c.toNat - '0'.toNat + 52)
  else if c = '+' then some 62
  else if c = '/' then some 63
  else none

/-- The character of the standard alphabet for a value below sixty-four. -/
def sixBitChar (n : Nat) : Char :=
  if n < 26 then Char.ofNat (n + 'A'.toNat)
  else if n < 52 then Char.ofNat (n - 26 + 'a'.toNat)
  else if n < 62 then Char.ofNat (n - 52 + '0'.toNat)
  else if n = 62 then '+'
  else '/'

/-- The byte of a value, which is taken modulo 256. -/
def byte (n : Nat) : UInt8 :=
  UInt8.ofNat n

/-- The bytes of a base64 text. The last group may end in one or two padding
    characters, and the bits that padding leaves unused have to be zero. -/
def decode? : List Char → Option (List UInt8)
  | [] => some []
  | [c₁, c₂, '=', '='] => do
    let v₁ ← sixBits? c₁
    let v₂ ← sixBits? c₂
    -- The second character has four bits too many for a byte.
    if v₂ % 16 = 0 then some [byte (v₁ * 4 + v₂ / 16)] else none
  | [c₁, c₂, c₃, '='] => do
    let v₁ ← sixBits? c₁
    let v₂ ← sixBits? c₂
    let v₃ ← sixBits? c₃
    -- The third one has two bits too many for two bytes.
    if v₃ % 4 = 0 then some [byte (v₁ * 4 + v₂ / 16), byte (v₂ * 16 + v₃ / 4)] else none
  | c₁ :: c₂ :: c₃ :: c₄ :: rest => do
    let v₁ ← sixBits? c₁
    let v₂ ← sixBits? c₂
    let v₃ ← sixBits? c₃
    let v₄ ← sixBits? c₄
    let bytes ← decode? rest
    return byte (v₁ * 4 + v₂ / 16) :: byte (v₂ * 16 + v₃ / 4) :: byte (v₃ * 64 + v₄) :: bytes
  | _ => none

/-- The base64 text of bytes, padded to whole groups. -/
def encode : List UInt8 → List Char
  | [] => []
  | [a] =>
    let n := a.toNat * 16
    [sixBitChar (n / 64), sixBitChar (n % 64), '=', '=']
  | [a, b] =>
    let n := (a.toNat * 256 + b.toNat) * 4
    [sixBitChar (n / 4096), sixBitChar (n / 64 % 64), sixBitChar (n % 64), '=']
  | a :: b :: c :: rest =>
    let n := (a.toNat * 256 + b.toNat) * 256 + c.toNat
    sixBitChar (n / 262144) :: sixBitChar (n / 4096 % 64) :: sixBitChar (n / 64 % 64)
      :: sixBitChar (n % 64) :: encode rest

/-- What stands after the first comma, or everything when there is none. -/
def afterComma (cs : List Char) : List Char :=
  match cs.dropWhile (· ≠ ',') with
  | _ :: rest => rest
  | [] => cs

/-- The base64 text in a data URL. -/
def payloadText (url : String) : List Char :=
  trimChars (afterComma url.toList)

/-- The bytes in a data URL; `none` when there are none or they do not decode. -/
def ofDataUrl? (url : String) : Option (List UInt8) :=
  (decode? (payloadText url)).filter (! ·.isEmpty)

theorem ofDataUrl?_ne_nil {url : String} {bytes : List UInt8} (h : ofDataUrl? url = some bytes) :
    bytes ≠ [] := by
  rintro rfl
  simp [ofDataUrl?, Option.filter_eq_some_iff] at h

end PanelSketch.Payload
