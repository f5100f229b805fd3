import PanelSketch.Archive.Crc
import PanelSketch.Sketch.Bundle

/-!
# Zip Archives

A bundle is written to disk as a zip archive: every entry with a header of its
own, then a directory of all entries, then a record that says where the
directory is. Entries are stored as they are and carry the earliest date that
the format knows, so one bundle always gives the same bytes.

## Main definitions

* `Zip.number`: A number in a fixed count of bytes.
* `Zip.Place`: An entry and where it starts.
* `Bundle.toZip`: The archive of a bundle.

## Theorems

* `Zip.length_number`: The count of bytes is as asked.
-/

namespace PanelSketch

namespace Zip

/-- A number in so many bytes, the lowest first. -/
def number : Nat → Nat → List UInt8
  | 0, _ => []
  | width + 1, n => UInt8.ofNat n :: number width (n / 256)

theorem length_number (width n : Nat) : (number width n).length = width := by
  induction width generalizing n with
  | zero => rfl
  | succ width ih => simp [number, ih]

/-- The bytes of the name of an entry. -/
def nameBytes (entry : Entry) : List UInt8 :=
  entry.name.toUTF8.toList

/-- What the header of an entry and its line in the directory have in common:
    the version needed, names in UTF-8, no compression, the first of January
    1980, the check, both sizes and the length of the name. -/
def description (entry : Entry) : List UInt8 :=
  number 2 20 ++ number 2 0x800 ++ number 2 0 ++ number 2 0 ++ number 2 0x21
    ++ number 4 (Crc.ofBytes entry.bytes).toNat
    ++ number 4 entry.bytes.length ++ number 4 entry.bytes.length
    ++ number 2 (nameBytes entry).length ++ number 2 0

/-- An entry with its header. -/
def fileRecord (entry : Entry) : List UInt8 :=
  number 4 0x04034B50 ++ description entry ++ nameBytes entry ++ entry.bytes

/-- An entry and where it starts. -/
structure Place where
  entry : Entry
  start : Nat

/-- The places of entries, the first of which starts where it is told. -/
def places (start : Nat) : List Entry → List Place
  | [] => []
  | entry :: entries => ⟨entry, start⟩ :: places (start + (fileRecord entry).length) entries

/-- The line of an entry in the directory. -/
def directoryLine (place : Place) : List UInt8 :=
  number 4 0x02014B50 ++ number 2 20 ++ description place.entry ++ number 2 0 ++ number 2 0
    ++ number 2 0 ++ number 4 0 ++ number 4 place.start ++ nameBytes place.entry

/-- The record at the end of an archive. -/
def endRecord (count start size : Nat) : List UInt8 :=
  number 4 0x06054B50 ++ number 2 0 ++ number 2 0 ++ number 2 count ++ number 2 count
    ++ number 4 size ++ number 4 start ++ number 2 0

end Zip

/-- The archive of a bundle. -/
def Bundle.toZip (bundle : Bundle) : List UInt8 :=
  let files := bundle.entries.flatMap Zip.fileRecord
  let directory := (Zip.places 0 bundle.entries).flatMap Zip.directoryLine
  files ++ directory ++ Zip.endRecord bundle.entries.length files.length directory.length

end PanelSketch
