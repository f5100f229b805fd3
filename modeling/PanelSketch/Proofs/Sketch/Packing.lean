import PanelSketch.Proofs.Sketch.Bundle

/-!
# How Assets Are Packed

An archive sorts the assets of a project into three kinds. An image in program
memory is no business of the archive. An image of the file system goes into it as
a file of its own, and is reported by name instead when its payload does not
decode. Every asset is dealt with once, in the order of the project.

Symbols differ and the sketch ends like no image file, so among the names of an
archive only the header can come twice: it is the one name that a configuration
chooses freely. Packing fails exactly when it is chosen to be the name of the
sketch or of an image file that goes into the archive.

## Main definitions

* `Bundle.Sorts`: What becomes of assets, one after the other.
* `Bundle.HeaderClashes`: The header is called like another file.
* `Bundle.Packed`: An archive holds what it should and nothing else.

## Theorems

* `Bundle.sorts_inStorage`: The assets of a project are sorted.
* `Bundle.assemble_eq_error`: A name that is refused is one that comes twice.
* `Bundle.nodup_given_iff`: Only the header can come twice.
* `Bundle.packed_or_clash`: Packing fails on a clash and packs otherwise.
-/

namespace PanelSketch

namespace Bundle

/-- What becomes of assets with their symbols: the files that go into the archive, and
    the names that are reported. -/
inductive Sorts (files : FileNames) : List (Asset × String) → List Entry → List String → Prop
  | nil : Sorts files [] [] []
  /-- An image in program memory is neither in the archive nor reported. -/
  | flash {a : Asset} {s : String} {images : List (Asset × String)} {entries : List Entry}
      {skipped : List String} (storage : a.storage = .flash)
      (rest : Sorts files images entries skipped) :
      Sorts files ((a, s) :: images) entries skipped
  /-- A payload that decodes goes into a file named after the symbol. -/
  | file {a : Asset} {s : String} {bytes : List UInt8} {images : List (Asset × String)}
      {entries : List Entry} {skipped : List String} (storage : a.storage = .littleFs)
      (payload : Payload.ofDataUrl? a.dataUrl = some bytes)
      (rest : Sorts files images entries skipped) :
      Sorts files ((a, s) :: images) (⟨files.dataDir ++ "/" ++ s ++ ".jpg", bytes⟩ :: entries)
        skipped
  /-- A payload that does not decode leaves the name of its asset. -/
  | skipped {a : Asset} {s : String} {images : List (Asset × String)} {entries : List Entry}
      {skipped : List String} (storage : a.storage = .littleFs)
      (payload : Payload.ofDataUrl? a.dataUrl = none)
      (rest : Sorts files images entries skipped) :
      Sorts files ((a, s) :: images) entries (a.name :: skipped)

/-- The header is called like the sketch or like the file of an image. -/
def HeaderClashes (settings : Settings) (p : Project) : Prop :=
  settings.files.header = settings.files.sketch ++ ".ino"
    ∨ ∃ i a s bytes, p.assets[i]? = some a ∧ a.storage = .littleFs
      ∧ Payload.ofDataUrl? a.dataUrl = some bytes
      ∧ (AssetSymbols.ofAssets p.assets).at? i = some s
      ∧ settings.files.header = settings.files.dataDir ++ "/" ++ s ++ ".jpg"

/-- An archive holds the sketch, the header and the files of the images, in this order
    and under different names, and reports the images that have no payload. -/
structure Packed (settings : Settings) (p : Project) (bundle : Bundle) : Prop where
  sorted : ∃ files, bundle.entries
      = ⟨settings.files.sketch ++ ".ino", (Sketch.ofProject settings p).render.toUTF8.toList⟩
        :: ⟨settings.files.header, (Header.ofProject settings p).render.toUTF8.toList⟩ :: files
    ∧ Sorts settings.files (AssetSymbols.ofAssets p.assets).entries files bundle.skipped
  nodup : (bundle.entries.map (·.name)).Nodup

/-! ### Sorting -/

theorem sorts_filter (files : FileNames) (images : List (Asset × String)) :
    Sorts files images
      ((images.filter (·.1.storage == .littleFs)).filterMap
        fun image => imageFile? files image.1 image.2)
      ((images.filter (·.1.storage == .littleFs)).filterMap fun image =>
        if (imageFile? files image.1 image.2).isNone then some image.1.name else none) := by
  induction images with
  | nil => exact .nil
  | cons image images ih =>
      rcases image with ⟨a, s⟩
      cases hstorage : a.storage with
      | flash =>
          rw [List.filter_cons_of_neg (by simp [hstorage])]
          exact .flash hstorage ih
      | littleFs =>
          rw [List.filter_cons_of_pos (by simp [hstorage])]
          cases hpayload : Payload.ofDataUrl? a.dataUrl with
          | none =>
              have hfile : imageFile? files a s = none := by
                rw [imageFile?, hpayload, Option.map_none]
              simp only [List.filterMap_cons, hfile, Option.isNone_none, if_true]
              exact .skipped hstorage hpayload ih
          | some bytes =>
              have hfile : imageFile? files a s
                  = some ⟨files.dataDir ++ "/" ++ s ++ ".jpg", bytes⟩ := by
                rw [imageFile?, hpayload, Option.map_some]
                rfl
              simp only [List.filterMap_cons, hfile, Option.isNone_some, Bool.false_eq_true,
                if_false]
              exact .file hstorage hpayload ih

/-! ### Names that come twice -/

/-- A name that is refused comes twice. -/
theorem assemble_eq_error {taken : List String} {entries : List Entry} {name : String}
    (h : assemble taken entries = .error name) :
    2 ≤ (taken ++ entries.map (·.name)).count name := by
  induction entries generalizing taken with
  | nil => exact absurd h (by simp only [assemble, reduceCtorEq, not_false_eq_true])
  | cons entry entries ih =>
      rw [assemble] at h
      split at h
      case isTrue htaken =>
        rw [Except.error.injEq] at h
        have hcount := List.count_pos_iff.mpr htaken
        rw [List.map_cons, List.count_append, h, List.count_cons_self]
        rw [h] at hcount
        omega
      case isFalse =>
        rcases hrest : assemble (entry.name :: taken) entries with e | rest
        · rw [hrest] at h
          have hname : e = name := Except.error.inj h
          -- The name of the entry has only moved from the entries to the names taken.
          have hcount := ih (hname ▸ hrest)
          have hperm : (taken ++ (entry :: entries).map (·.name)).Perm
              (entry.name :: taken ++ entries.map (·.name)) := List.perm_middle
          rwa [hperm.count_eq]
        · rw [hrest] at h
          exact absurd h (by simp only [Except.map, reduceCtorEq, not_false_eq_true])

theorem imageName_injective (files : FileNames) : Function.Injective (imageName files) := by
  intro s t h
  have hlist := congrArg String.toList h
  simp only [imageName, String.toList_append, List.append_assoc, List.append_cancel_left_eq,
    List.append_cancel_right_eq] at hlist
  exact String.toList_injective hlist

/-- The sketch and the file of an image end differently. -/
theorem imageName_ne_sketchFile (files : FileNames) (s : String) :
    imageName files s ≠ files.sketchFile := by
  intro h
  have hlist := congrArg String.toList h
  rw [imageName, FileNames.sketchFile, String.toList_append, String.toList_append (s := files.sketch)]
    at hlist
  have hending : imageEnding.toList = ".ino".toList := (List.append_inj' hlist (by decide)).2
  exact absurd hending (by decide)

variable {settings : Settings} {p : Project}

/-- The names of the image files in the archive of a project. -/
def imageNames (settings : Settings) (p : Project) : List String :=
  (((AssetSymbols.ofAssets p.assets).inStorage .littleFs).filterMap
    fun image => imageFile? settings.files image.1 image.2).map (·.name)

theorem map_name_given (settings : Settings) (p : Project) : (given settings p).map (·.name)
    = settings.files.sketchFile :: settings.files.header :: imageNames settings p :=
  rfl

theorem names_sublist (files : FileNames) (images : List (Asset × String)) :
    ((images.filterMap fun image => imageFile? files image.1 image.2).map (·.name)).Sublist
      ((images.map (·.2)).map (imageName files)) := by
  induction images with
  | nil => exact List.Sublist.slnil
  | cons image images ih =>
      rw [List.filterMap_cons, imageFile?]
      cases Payload.ofDataUrl? image.1.dataUrl with
      | none => exact ih.cons _
      | some bytes => exact ih.cons_cons _

/-- Without the header, no name comes twice. -/
theorem nodup_cons_imageNames (settings : Settings) (p : Project) :
    (settings.files.sketchFile :: imageNames settings p).Nodup := by
  have hsub := names_sublist settings.files ((AssetSymbols.ofAssets p.assets).inStorage .littleFs)
  refine List.nodup_cons.mpr ⟨fun hmem => ?_, ?_⟩
  · rcases List.mem_map.mp (hsub.subset hmem) with ⟨s, _, hname⟩
    exact imageName_ne_sketchFile _ s hname
  · exact ((AssetSymbols.nodup_inStorage p.assets .littleFs).map
      (imageName_injective settings.files)).sublist hsub

theorem mem_imageNames {name : String} : name ∈ imageNames settings p
    ↔ ∃ i a s bytes, p.assets[i]? = some a ∧ a.storage = .littleFs
      ∧ Payload.ofDataUrl? a.dataUrl = some bytes
      ∧ (AssetSymbols.ofAssets p.assets).at? i = some s
      ∧ name = settings.files.dataDir ++ "/" ++ s ++ ".jpg" := by
  rw [imageNames, List.mem_map]
  constructor
  · rintro ⟨file, hfile, rfl⟩
    rcases List.mem_filterMap.mp hfile with ⟨⟨a, s⟩, himage, hfile⟩
    rcases AssetSymbols.mem_inStorage.mp himage with ⟨hentry, hstorage⟩
    rcases List.mem_iff_getElem?.mp hentry with ⟨i, hi⟩
    rcases Option.map_eq_some_iff.mp hfile with ⟨bytes, hbytes, rfl⟩
    have hs : (AssetSymbols.ofAssets p.assets).at? i = some s := by
      rw [AssetSymbols.at?_eq, hi, Option.map_some]
    exact ⟨i, a, s, bytes, AssetSymbols.asset_of_entry hi, hstorage, hbytes, hs, rfl⟩
  · rintro ⟨i, a, s, bytes, hi, hstorage, hbytes, hs, rfl⟩
    rcases AssetSymbols.exists_entry hi with ⟨t, hentry⟩
    rw [AssetSymbols.at?_eq, hentry, Option.map_some, Option.some.injEq] at hs
    rcases hs with rfl
    refine ⟨⟨imageName settings.files t, bytes⟩, List.mem_filterMap.mpr ⟨(a, t), ?_, ?_⟩, rfl⟩
    · exact AssetSymbols.mem_inStorage.mpr ⟨List.mem_of_getElem? hentry, hstorage⟩
    · rw [imageFile?, hbytes, Option.map_some]

theorem headerClashes_iff : HeaderClashes settings p ↔ settings.files.header
    ∈ settings.files.sketchFile :: imageNames settings p := by
  rw [List.mem_cons, mem_imageNames]
  rfl

/-- Only the header can be called like another file. -/
theorem nodup_given_iff :
    ((given settings p).map (·.name)).Nodup ↔ ¬HeaderClashes settings p := by
  have hothers := nodup_cons_imageNames settings p
  rw [map_name_given, headerClashes_iff, (List.Perm.swap _ _ _).nodup_iff, List.nodup_cons]
  exact ⟨fun h => h.1, fun h => ⟨h, hothers⟩⟩

theorem assemble_given_of_error {name : String} (h : ofProject settings p = .error name) :
    assemble [] (given settings p) = .error name := by
  rw [← map_entries_ofProject, h]
  rfl

/-- The name that is refused is the name of the header. -/
theorem eq_header_of_error {name : String} (h : ofProject settings p = .error name) :
    name = settings.files.header := by
  have hcount := assemble_eq_error (assemble_given_of_error h)
  by_contra hne
  -- Among the other files it would come once at the most.
  have hothers := List.nodup_iff_count_le_one.mp (nodup_cons_imageNames settings p) name
  rw [List.nil_append, map_name_given, (List.Perm.swap _ _ _).count_eq,
    List.count_cons_of_ne (Ne.symm hne)] at hcount
  omega

/-! ### Packing -/

/-- Packing a project fails exactly when the header is called like another file of the
    archive, which is then the name that is refused. Otherwise the archive holds the
    sketch, the header and the images that have a payload. -/
theorem packed_or_clash (settings : Settings) (p : Project) :
    (∀ name, ofProject settings p = .error name
      ↔ HeaderClashes settings p ∧ name = settings.files.header)
    ∧ (¬HeaderClashes settings p → ∃ bundle, ofProject settings p = .ok bundle)
    ∧ ∀ bundle, ofProject settings p = .ok bundle → Packed settings p bundle := by
  have hpacks (hclash : ¬HeaderClashes settings p) : ∃ bundle, ofProject settings p = .ok bundle :=
    exists_ofProject (nodup_given_iff.mpr hclash)
  refine ⟨fun name => ⟨fun h => ⟨by_contra fun hclash => ?_, eq_header_of_error h⟩, ?_⟩, hpacks,
    fun bundle h => ?_⟩
  · rcases hpacks hclash with ⟨bundle, hbundle⟩
    rw [h] at hbundle
    exact absurd hbundle (by simp only [reduceCtorEq, not_false_eq_true])
  · rintro ⟨hclash, rfl⟩
    rcases h : ofProject settings p with name | bundle
    · rw [eq_header_of_error h]
    · rcases entries_ofProject h with ⟨hentries, hnodup, _⟩
      rw [hentries] at hnodup
      exact absurd hclash (nodup_given_iff.mp hnodup)
  · rcases entries_ofProject h with ⟨hentries, hnodup, hskipped⟩
    refine ⟨⟨_, hentries, ?_⟩, hnodup⟩
    rw [hskipped, AssetSymbols.inStorage_eq_filter]
    exact sorts_filter settings.files (AssetSymbols.ofAssets p.assets).entries

/-- An archive with assets of all three kinds, and a header that is called like the file
    of an image. -/
theorem packed_or_clash_three_kinds :
    let p : Project :=
      { assets := [{ name := "icon", width := 8, height := 4 },
          { name := "my photo", dataUrl := "data:image/jpeg;base64,QUJD", storage := .littleFs },
          { name := "lost", storage := .littleFs }] }
    let header := String.join (["#ifndef IMAGES_H", "#define IMAGES_H", "#include <pgmspace.h>",
      "", "// Image: icon (8x4)", "const uint16_t icon[] PROGMEM = \x7b",
      "    // RGB565 data placeholder", "    0x0000", "\x7d;", "", "#endif"].map (· ++ "\n"))
    let clashing : Settings := { files := { header := "data/my_photo.jpg" } }
    (∃ bundle, ofProject {} p = .ok bundle ∧ Packed {} p bundle
      ∧ bundle.entries.drop 1
        = [⟨"images.h", header.toUTF8.toList⟩, ⟨"data/my_photo.jpg", [65, 66, 67]⟩]
      ∧ bundle.skipped = ["lost"])
    ∧ HeaderClashes clashing p ∧ ofProject clashing p = .error "data/my_photo.jpg" := by
  intro p header clashing
  have hnames : ((given {} p).map (·.name)).Nodup := by decide +kernel
  have hclash : HeaderClashes clashing p := headerClashes_iff.mpr (by decide +kernel)
  have hheader : (Header.ofProject {} p).render = header := by
    decide +kernel
  have hfiles : ((AssetSymbols.ofAssets p.assets).inStorage .littleFs).filterMap
      (fun image => imageFile? ({} : Settings).files image.1 image.2)
      = [⟨"data/my_photo.jpg", [65, 66, 67]⟩] := by
    decide +kernel
  rcases packed_or_clash {} p with ⟨-, hpacks, hpacked⟩
  rcases hpacks (nodup_given_iff.mp hnames) with ⟨bundle, hbundle⟩
  rcases entries_ofProject hbundle with ⟨hentries, -, hskipped⟩
  refine ⟨⟨bundle, hbundle, hpacked bundle hbundle, ?_, ?_⟩, hclash,
    ((packed_or_clash clashing p).1 _).mpr ⟨hclash, rfl⟩⟩
  · rw [hentries, given, hfiles, textEntry, textEntry, hheader]
    rfl
  · rw [hskipped]
    decide +kernel

end Bundle

end PanelSketch
