/-!
# Cyclic Redundancy Checks

An archive stores a check of 32 bits beside every file. It is the remainder of
the file, read as a polynomial over two elements, by a fixed polynomial of
degree 32, with the lowest bit of every byte first and all bits turned over
before and after.

## Main definitions

* `Crc.ofBytes`: The check of a file.
-/

namespace PanelSketch.Crc

/-- The polynomial, its highest bit left out and its lowest degree first. -/
def polynomial : UInt32 := 0xEDB88320

/-- Divide by one bit more. -/
def shift (remainder : UInt32) : UInt32 :=
  let half := remainder >>> 1
  if remainder &&& 1 = 1 then half ^^^ polynomial else half

/-- Divide by so many bits more. -/
def shifts : Nat → UInt32 → UInt32
  | 0, remainder => remainder
  | n + 1, remainder => shifts n (shift remainder)

/-- Divide by one byte more. -/
def absorb (remainder : UInt32) (byte : UInt8) : UInt32 :=
  shifts 8 (remainder ^^^ byte.toUInt32)

/-- The check of a file. -/
def ofBytes (bytes : List UInt8) : UInt32 :=
  bytes.foldl absorb 0xFFFFFFFF ^^^ 0xFFFFFFFF

end PanelSketch.Crc
