import PanelSketch.Text.Hexadecimal

/-!
# Digests

A generated file is recognised by its SHA-256 digest. The digest is computed
here in 32-bit words: the message is padded to whole blocks, each block is
expanded to sixty-four words, and sixty-four rounds stir them into eight words
of state.

A digest is kept as its eight words. Two digests are equal exactly when their
texts are, and the short form that reports print is the first twelve digits.

## Main definitions

* `Digest`: The eight words of a digest.
* `Digest.ofBytes`, `Digest.ofText`: The digest of a message.
* `Digest.hex`, `Digest.short`: The written forms.

## Theorems

* `Digest.length_pad_mod`: A padded message is a whole number of blocks.
-/

namespace PanelSketch

open Text (hexWord)

/-- The eight words of a digest, or of the state on the way to one. -/
structure Digest where
  a : UInt32
  b : UInt32
  c : UInt32
  d : UInt32
  e : UInt32
  f : UInt32
  g : UInt32
  h : UInt32
  deriving DecidableEq, Repr

namespace Digest

/-- The state before the first block: the first 32 bits of the fractional parts
    of the square roots of the first eight primes. -/
def start : Digest :=
  ⟨0x6a09e667, 0xbb67ae85, 0x3c6ef372, 0xa54ff53a, 0x510e527f, 0x9b05688c, 0x1f83d9ab, 0x5be0cd19⟩

/-- The round constants: the first 32 bits of the fractional parts of the cube
    roots of the first sixty-four primes. -/
def roundConstants : List UInt32 :=
  [0x428a2f98, 0x71374491, 0xb5c0fbcf, 0xe9b5dba5, 0x3956c25b, 0x59f111f1, 0x923f82a4, 0xab1c5ed5,
   0xd807aa98, 0x12835b01, 0x243185be, 0x550c7dc3, 0x72be5d74, 0x80deb1fe, 0x9bdc06a7, 0xc19bf174,
   0xe49b69c1, 0xefbe4786, 0x0fc19dc6, 0x240ca1cc, 0x2de92c6f, 0x4a7484aa, 0x5cb0a9dc, 0x76f988da,
   0x983e5152, 0xa831c66d, 0xb00327c8, 0xbf597fc7, 0xc6e00bf3, 0xd5a79147, 0x06ca6351, 0x14292967,
   0x27b70a85, 0x2e1b2138, 0x4d2c6dfc, 0x53380d13, 0x650a7354, 0x766a0abb, 0x81c2c92e, 0x92722c85,
   0xa2bfe8a1, 0xa81a664b, 0xc24b8b70, 0xc76c51a3, 0xd192e819, 0xd6990624, 0xf40e3585, 0x106aa070,
   0x19a4c116, 0x1e376c08, 0x2748774c, 0x34b0bcb5, 0x391c0cb3, 0x4ed8aa4a, 0x5b9cca4f, 0x682e6ff3,
   0x748f82ee, 0x78a5636f, 0x84c87814, 0x8cc70208, 0x90befffa, 0xa4506ceb, 0xbef9a3f7, 0xc67178f2]

/-- Turn a word to the right by a number of bits between 1 and 31. -/
def rotate (x n : UInt32) : UInt32 :=
  (x >>> n) ||| (x <<< (32 - n))

/-- One round: stir a message word and a constant into the state. -/
def round (s : Digest) (word constant : UInt32) : Digest :=
  let s₁ := rotate s.e 6 ^^^ rotate s.e 11 ^^^ rotate s.e 25
  let choice := (s.e &&& s.f) ^^^ ((~~~ s.e) &&& s.g)
  let t₁ := s.h + s₁ + choice + constant + word
  let s₀ := rotate s.a 2 ^^^ rotate s.a 13 ^^^ rotate s.a 22
  let majority := (s.a &&& s.b) ^^^ (s.a &&& s.c) ^^^ (s.b &&& s.c)
  ⟨t₁ + s₀ + majority, s.a, s.b, s.c, s.d + t₁, s.e, s.f, s.g⟩

/-- The next word of the schedule, from the sixteen words before it. -/
def nextWord (window : List UInt32) : UInt32 :=
  match window with
  | [w₀, w₁, _, _, _, _, _, _, _, w₉, _, _, _, _, w₁₄, _] =>
    let s₀ := rotate w₁ 7 ^^^ rotate w₁ 18 ^^^ (w₁ >>> 3)
    let s₁ := rotate w₁₄ 17 ^^^ rotate w₁₄ 19 ^^^ (w₁₄ >>> 10)
    w₀ + s₀ + w₉ + s₁
  | _ => 0

/-- Run the rounds of one block; the window holds the current word and the
    fifteen that follow it. -/
def rounds (state : Digest) (window : List UInt32) : List UInt32 → Digest
  | [] => state
  | constant :: constants =>
    -- The word that has been used makes room for the next one of the schedule.
    rounds (round state (window.headD 0) constant) (window.tail ++ [nextWord window]) constants

/-- The state after one block of sixteen words. -/
def absorb (s : Digest) (block : List UInt32) : Digest :=
  let t := rounds s block roundConstants
  ⟨s.a + t.a, s.b + t.b, s.c + t.c, s.d + t.d, s.e + t.e, s.f + t.f, s.g + t.g, s.h + t.h⟩

/-- A number in eight bytes, the most significant first. -/
def lengthBytes (n : Nat) : List UInt8 :=
  [56, 48, 40, 32, 24, 16, 8, 0].map fun shift => UInt8.ofNat (n >>> shift)

/-- A message with a one bit, zeros and its length in bits behind it. -/
def pad (message : List UInt8) : List UInt8 :=
  let zeros := (119 - message.length % 64) % 64
  message ++ 0x80 :: (List.replicate zeros 0 ++ lengthBytes (8 * message.length))

/-- Bytes as words, the most significant byte first. -/
def words : List UInt8 → List UInt32
  | b₃ :: b₂ :: b₁ :: b₀ :: rest =>
    ((b₃.toUInt32 <<< 24) ||| (b₂.toUInt32 <<< 16) ||| (b₁.toUInt32 <<< 8) ||| b₀.toUInt32)
      :: words rest
  | _ => []

/-- Absorb as many whole blocks of sixteen words as there are, `count` at the
    most. -/
def absorbAll (state : Digest) : Nat → List UInt32 → Digest
  | 0, _ => state
  | count + 1, ws =>
    -- There are fewer blocks than words, so the count does not run out.
    if ws.isEmpty then state else absorbAll (absorb state (ws.take 16)) count (ws.drop 16)

/-- The digest of a message. -/
def ofBytes (message : List UInt8) : Digest :=
  let ws := words (pad message)
  absorbAll start ws.length ws

/-- The digest of a text in UTF-8. -/
def ofText (text : String) : Digest :=
  ofBytes text.toUTF8.toList

/-- The sixty-four small hexadecimal digits of a digest. -/
def hex (s : Digest) : String :=
  String.ofList ([s.a, s.b, s.c, s.d, s.e, s.f, s.g, s.h].flatMap fun w => hexWord 8 w.toNat)

/-- The first twelve digits, for reports that people read. -/
def short (s : Digest) : String :=
  String.ofList (s.hex.toList.take 12)

theorem length_pad_mod (message : List UInt8) : (pad message).length % 64 = 0 := by
  simp only [pad, lengthBytes, List.length_append, List.length_cons, List.length_replicate,
    List.length_map, List.length_nil]
  omega

end Digest

end PanelSketch
