import PanelSketch.Payload
import PanelSketch.Sketch.Header

/-!
# Export Bundles

A bundle is everything a project needs on the device, as an archive: the
sketch, the header, and one file for every asset in the device's file system.
An asset whose payload is empty or does not decode is left out and reported by
name.

Archives refuse two entries of one name. The entries are added in a fixed
order, and the first name that is already there ends the attempt.

## Main definitions

* `Entry`, `Bundle`: An archive in parts.
* `Bundle.ofProject`: The bundle of a project, or the name that clashes.

## Theorems

* `Bundle.assemble_of_nodup`: Names that differ never clash.
-/

namespace PanelSketch

/-- A file of an archive. -/
structure Entry where
  name : String
  bytes : List UInt8
  deriving DecidableEq, Repr

/-- An archive and the names of the assets left out of it. -/
structure Bundle where
  entries : List Entry
  skipped : List String
  deriving DecidableEq, Repr

namespace Bundle

/-- An entry that holds a text. -/
def textEntry (name text : String) : Entry :=
  ⟨name, text.toUTF8.toList⟩

/-- The name of the file that holds the image of a symbol. -/
def imageName (files : FileNames) (symbol : String) : String :=
  files.dataDir ++ "/" ++ symbol ++ imageEnding

/-- The file of an asset, unless its payload does not decode. -/
def imageFile? (files : FileNames) (asset : Asset) (symbol : String) : Option Entry :=
  (Payload.ofDataUrl? asset.dataUrl).map fun bytes => ⟨imageName files symbol, bytes⟩

/-- Add entries in order to names that are taken; the first clash is the error. -/
def assemble (taken : List String) : List Entry → Except String (List Entry)
  | [] => .ok []
  | entry :: entries =>
    if entry.name ∈ taken then .error entry.name
    else (assemble (entry.name :: taken) entries).map (entry :: ·)

/-- The bundle of a project, or the name that two entries would share. -/
def ofProject (settings : Settings) (p : Project) : Except String Bundle := do
  let images := (AssetSymbols.ofAssets p.assets).inStorage .littleFs
  let sketch := textEntry settings.files.sketchFile (Sketch.ofProject settings p).render
  let header := textEntry settings.files.header (Header.ofProject settings p).render
  let entries ← assemble [] (sketch :: header
    :: images.filterMap fun (asset, symbol) => imageFile? settings.files asset symbol)
  return { entries
           skipped := images.filterMap fun (asset, symbol) =>
             if (imageFile? settings.files asset symbol).isNone then some asset.name else none }

/-- Why an archive refuses a name that two entries would share. -/
def clashCause (name : String) : String :=
  "invalid Zip archive: Duplicate filename: " ++ name

/-- The complaint about a name that two entries would share. -/
def clashMessage (name : String) : String :=
  "Archive error: " ++ clashCause name

theorem assemble_of_nodup {entries : List Entry} (taken : List String)
    (h : (taken ++ entries.map (·.name)).Nodup) : assemble taken entries = .ok entries := by
  induction entries generalizing taken with
  | nil => rfl
  | cons entry entries ih =>
    rw [List.nodup_append] at h
    obtain ⟨ht, he, hd⟩ := h
    rw [List.map_cons, List.nodup_cons] at he
    have hn : entry.name ∉ taken := fun hm => hd _ hm _ (by simp) rfl
    have hrest : (entry.name :: taken ++ entries.map (·.name)).Nodup := by
      rw [List.cons_append, List.nodup_cons, List.nodup_append]
      refine ⟨by simp [hn, he.1], ht, he.2, fun a ha b hb => hd a ha b (by simp [hb])⟩
    rw [assemble, if_neg hn, ih _ hrest]
    rfl

end Bundle

end PanelSketch
