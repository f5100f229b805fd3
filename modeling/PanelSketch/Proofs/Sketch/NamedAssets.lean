import PanelSketch.Proofs.Project.Scanning
import PanelSketch.Proofs.Project.WellFormed
import PanelSketch.Proofs.Sketch.Packing

/-!
# Assets Under Their Own Names

Symbols are drawn anew for every export, one asset after the other, and a name that is
taken gets a number. So an asset that goes could change the symbols of all that come
behind it. It does not as long as the names are symbols already: names that are
identifiers and do not repeat are given out as they are, whichever of them there are.

What an export makes of assets then goes through the list asset by asset. One asset more
at the end adds something at the end, and an asset less takes away what was made of it.

## Theorems

* `AssetSymbols.symbol_eq_name`: The symbol of an asset is its name.
* `AssetSymbols.resolve?_append`, `AssetSymbols.resolve?_filter`: Other names lead where
  they led.
* `Header.arrays_append`, `Header.arrays_filter`: The arrays of a header.
* `Bundle.data_append`, `Bundle.data_filter`: The files of an archive and its report.
-/

namespace PanelSketch

theorem Project.WellFormed.wellNamed {p : Project} (h : p.WellFormed) : WellNamed p.assets :=
  ⟨h.assets_identifier, h.assetNames_nodup⟩

theorem WellNamed.ne_empty {assets : List Asset} (h : WellNamed assets) {n : String}
    (hn : n ∈ assets.map (·.name)) : n ≠ "" := by
  rcases List.mem_map.mp hn with ⟨a, ha, rfl⟩
  rw [← h.identifier a ha]
  exact (Text.isIdentifier_identifier a.name Text.isIdentifier_asset).ne_empty

/-- With names that do not repeat, removing the first asset of a name removes all. -/
theorem eraseP_eq_filter {assets : List Asset} (h : (assets.map (·.name)).Nodup) (n : String) :
    assets.eraseP (·.name == n) = assets.filter (·.name ≠ n) := by
  induction assets with
  | nil => rfl
  | cons a assets ih =>
      rw [List.map_cons, List.nodup_cons] at h
      by_cases hname : a.name = n
      · -- No asset behind it has the name.
        have hrest : assets.filter (·.name ≠ n) = assets := by
          refine List.filter_eq_self.mpr fun b hb => decide_eq_true fun hb' => h.1 ?_
          rw [hname, ← hb']
          exact List.mem_map_of_mem hb
        rw [List.eraseP_cons_of_pos (by simpa using hname),
          List.filter_cons_of_neg (by simpa using hname), hrest]
      · rw [List.eraseP_cons_of_neg (by simpa using hname),
          List.filter_cons_of_pos (by simpa using hname), ih h.2]

namespace AssetSymbols

variable {assets : List Asset}

theorem symbol_eq_name (h : WellNamed assets) :
    ∀ entry ∈ (ofAssets assets).entries, entry.2 = entry.1.name := by
  rw [entries_wellNamed h]
  intro entry hentry
  rcases List.mem_map.mp hentry with ⟨a, _, rfl⟩
  rfl

variable {assets' : List Asset}

/-- A further asset at the end leaves all other names alone. -/
theorem resolve?_append {entry : Asset × String}
    (h : (ofAssets assets').entries = (ofAssets assets).entries ++ [entry]) {name : String}
    (hname : name ≠ entry.1.name) :
    (ofAssets assets').resolve? name = (ofAssets assets).resolve? name := by
  have hother : [entry].find? (·.1.name == name) = none := by
    rw [List.find?_singleton, if_neg]
    exact fun hc => hname (beq_iff_eq.mp hc).symm
  rw [resolve?_eq_find?, h, List.find?_append, hother, Option.or_none, resolve?_eq_find?]

/-- So does taking an asset away. -/
theorem resolve?_filter {n : String}
    (h : (ofAssets assets').entries = (ofAssets assets).entries.filter (·.1.name ≠ n))
    {name : String} (hname : name ≠ n) :
    (ofAssets assets').resolve? name = (ofAssets assets).resolve? name := by
  rw [resolve?_eq_find?, h, List.find?_filter, resolve?_eq_find?]
  refine congrArg ((ofAssets assets).entries.find? ·) (funext fun entry => ?_)
  -- An asset with the name that is looked up is not the one that goes.
  by_cases hentry : entry.1.name = name
  · simp [hentry, hname]
  · simp [hentry]

end AssetSymbols

variable {settings : Settings} {p p' : Project}

/-! ### Headers -/

namespace Header

/-- The array of an image in program memory. -/
def arrayOf (entry : Asset × String) : ImageArray :=
  ⟨entry.2, entry.1.width, entry.1.height⟩

theorem arrays_eq (settings : Settings) (p : Project) : (ofProject settings p).arrays
    = ((AssetSymbols.ofAssets p.assets).entries.filter (·.1.storage == .flash)).map arrayOf := by
  rw [← AssetSymbols.inStorage_eq_filter]
  rfl

theorem arrays_append {entries : List (Asset × String)}
    (h : (AssetSymbols.ofAssets p'.assets).entries
      = (AssetSymbols.ofAssets p.assets).entries ++ entries) :
    (ofProject settings p').arrays = (ofProject settings p).arrays
      ++ (entries.filter (·.1.storage == .flash)).map arrayOf := by
  rw [arrays_eq, arrays_eq, h, List.filter_append, List.map_append]

/-- Removing an asset removes its array, when symbols are names. -/
theorem arrays_filter {n : String} (hnames : ∀ entry ∈ (AssetSymbols.ofAssets p.assets).entries,
      entry.2 = entry.1.name)
    (h : (AssetSymbols.ofAssets p'.assets).entries
      = (AssetSymbols.ofAssets p.assets).entries.filter (·.1.name ≠ n)) :
    (ofProject settings p').arrays = (ofProject settings p).arrays.filter (·.symbol ≠ n) := by
  rw [arrays_eq, arrays_eq, h, List.filter_map, List.filter_comm]
  refine congrArg _ (List.filter_congr fun entry hentry => ?_)
  rw [Function.comp_apply, arrayOf, hnames entry (List.mem_of_mem_filter hentry)]

end Header

/-! ### Archives -/

namespace Bundle

variable {bundle bundle' : Bundle}

/-- The entries of an archive behind the sketch and the header. -/
def data (bundle : Bundle) : List Entry :=
  bundle.entries.drop 2

/-- The files of images. -/
def imageFiles (files : FileNames) (images : List (Asset × String)) : List Entry :=
  (images.filter (·.1.storage == .littleFs)).filterMap fun image =>
    imageFile? files image.1 image.2

/-- The names of images without a payload. -/
def unpacked (files : FileNames) (images : List (Asset × String)) : List String :=
  (images.filter (·.1.storage == .littleFs)).filterMap fun image =>
    if (imageFile? files image.1 image.2).isNone then some image.1.name else none

theorem data_eq (h : ofProject settings p = .ok bundle) :
    bundle.data = imageFiles settings.files (AssetSymbols.ofAssets p.assets).entries
      ∧ bundle.skipped = unpacked settings.files (AssetSymbols.ofAssets p.assets).entries := by
  rcases entries_ofProject h with ⟨hentries, -, hskipped⟩
  rw [data, hentries, imageFiles, unpacked, ← AssetSymbols.inStorage_eq_filter]
  exact ⟨rfl, hskipped⟩

/-- Further assets are dealt with behind those that were there. -/
theorem data_append {entries : List (Asset × String)}
    (h : (AssetSymbols.ofAssets p'.assets).entries
      = (AssetSymbols.ofAssets p.assets).entries ++ entries)
    (hbundle : ofProject settings p = .ok bundle) (hbundle' : ofProject settings p' = .ok bundle') :
    ∃ files skipped, Sorts settings.files entries files skipped
      ∧ bundle'.data = bundle.data ++ files ∧ bundle'.skipped = bundle.skipped ++ skipped := by
  rcases data_eq hbundle with ⟨hdata, hskipped⟩
  rcases data_eq hbundle' with ⟨hdata', hskipped'⟩
  refine ⟨_, _, sorts_filter settings.files entries, ?_, ?_⟩
  · rw [hdata, hdata', h, imageFiles, List.filter_append, List.filterMap_append, imageFiles]
  · rw [hskipped, hskipped', h, unpacked, List.filter_append, List.filterMap_append, unpacked]

/-- The file of an image goes with the image. -/
theorem imageFile?_filter (files : FileNames) {n : String} {image : Asset × String}
    (hname : image.2 = image.1.name) :
    (if image.1.name ≠ n then imageFile? files image.1 image.2 else none)
      = (imageFile? files image.1 image.2).filter (·.name ≠ imageName files n) := by
  rw [imageFile?]
  rcases Payload.ofDataUrl? image.1.dataUrl with _ | bytes
  · rw [Option.map_none, Option.filter_none, ite_self]
  · rw [Option.map_some, Option.filter_some, hname]
    by_cases hn : image.1.name = n
    · rw [hn, if_neg (not_not_intro rfl), if_neg (by simp)]
    · have hfile : imageName files image.1.name ≠ imageName files n :=
        fun hc => hn (imageName_injective files hc)
      rw [if_pos hn, if_pos (decide_eq_true hfile)]

/-- So does its place in the report. -/
theorem unpacked?_filter (c : Prop) [Decidable c] (name n : String) :
    (if name ≠ n then if c then some name else none else none)
      = (if c then some name else none).filter (· ≠ n) := by
  by_cases hc : c
  · rw [if_pos hc, Option.filter_some]
    exact ite_congr (by simp) (fun _ => rfl) fun _ => rfl
  · rw [if_neg hc, ite_self, Option.filter_none]

/-- An asset that goes takes its file or its place in the report with it. -/
theorem data_filter {n : String} (hnames : ∀ entry ∈ (AssetSymbols.ofAssets p.assets).entries,
      entry.2 = entry.1.name)
    (h : (AssetSymbols.ofAssets p'.assets).entries
      = (AssetSymbols.ofAssets p.assets).entries.filter (·.1.name ≠ n))
    (hbundle : ofProject settings p = .ok bundle) (hbundle' : ofProject settings p' = .ok bundle') :
    bundle'.data = bundle.data.filter (·.name ≠ imageName settings.files n)
      ∧ bundle'.skipped = bundle.skipped.filter (· ≠ n) := by
  rcases data_eq hbundle with ⟨hdata, hskipped⟩
  rcases data_eq hbundle' with ⟨hdata', hskipped'⟩
  rw [hdata, hdata', hskipped, hskipped', h]
  constructor
  · rw [imageFiles, imageFiles, List.filter_comm, List.filterMap_filter, List.filter_filterMap]
    refine List.filterMap_congr fun image himage => ?_
    rw [← imageFile?_filter settings.files (hnames image (List.mem_of_mem_filter himage))]
    exact ite_congr (by simp) (fun _ => rfl) fun _ => rfl
  · rw [unpacked, unpacked, List.filter_comm, List.filterMap_filter, List.filter_filterMap]
    refine List.filterMap_congr fun image _ => ?_
    rw [← unpacked?_filter]
    exact ite_congr (by simp) (fun _ => rfl) fun _ => rfl

end Bundle

end PanelSketch
