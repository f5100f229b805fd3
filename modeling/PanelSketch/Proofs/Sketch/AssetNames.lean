import PanelSketch.Proofs.Sketch.Renamed
import PanelSketch.Proofs.Workspace.Agreement

/-!
# Three Ways to Name Assets

An asset gets its name on one of three ways. A file that is loaded names all of its
assets, an asset that is added is named on its own, and an export draws symbols for
the assets of any project, loaded or not. Each way keeps book of the names given so
far in a manner of its own: loading in the list it builds, adding in the assets there
are, an export in a pool.

All three give the same names. Adding one asset to a workspace is what loading does
with one more asset of a file, so by induction on the assets still to come the answers
of adding them all are the assets that loading stores. That an export gives them the
same symbols has been shown for loading.

## Theorems

* `Renaming.add_eq_addAsset`: Loading one more asset is adding it.
* `Workspace.answers_addAsset`: The answers of adding assets one after the other.
* `Workspace.names_agree`: All three ways, and what an export makes of the names.
-/

namespace PanelSketch

/-- Loading one more asset stores what adding it to the same assets answers. -/
theorem Renaming.add_eq_addAsset {r : Renaming} {w : Workspace} (h : w.assets = r.assets)
    (a : Asset) :
    (r.add a).assets = r.assets ++ [(w.addAsset a).1]
      ∧ (w.addAsset a).2.assets = (r.add a).assets := by
  have hstored : (w.addAsset a).2.assets = w.assets ++ [(w.addAsset a).1] := rfl
  have hloaded : (r.add a).assets = r.assets ++ [(w.addAsset a).1] := by
    rw [Workspace.addAsset, h]
    rfl
  exact ⟨hloaded, by rw [hstored, hloaded, h]⟩

/-- An export finds the name of every asset that is named well at its position. -/
theorem AssetSymbols.at?_renamed (assets : List Asset) (i : Nat) :
    (ofAssets (Renaming.ofAssets assets).assets).at? i
      = ((Renaming.ofAssets assets).assets.map (·.name))[i]? := by
  rw [at?_eq, ← List.getElem?_map, entries_ofAssets_renamed, List.map_map,
    Renaming.names_ofAssets]
  rfl

namespace Workspace

/-- Whatever has been loaded so far, the answers of adding further assets are those that
    loading would store behind it. -/
theorem answers_addAsset {r : Renaming} {w : Workspace} (h : w.assets = r.assets)
    (assets : List Asset) :
    r.assets.map Answer.asset ++ w.answers (assets.map .addAsset)
      = (assets.foldl Renaming.add r).assets.map .asset := by
  induction assets generalizing r w with
  | nil => exact List.append_nil _
  | cons a assets ih =>
      rcases Renaming.add_eq_addAsset h a with ⟨hadd, hstored⟩
      have hanswers : w.answers ((a :: assets).map .addAsset)
          = .asset (w.addAsset a).1 :: (w.addAsset a).2.answers (assets.map .addAsset) := rfl
      -- The first answer joins the assets that have been loaded.
      rw [hanswers, List.foldl_cons, ← ih hstored, hadd, List.map_append, List.append_assoc]
      rfl

/-- The assets of a file are named alike when they are loaded, when they are added one
    after the other to a workspace without assets, and when the file is exported as it
    is. An export of the names that have been given gives each of them again. -/
theorem names_agree (p : Project) {w : Workspace} (h : w.assets = []) :
    w.answers (p.assets.map .addAsset) = (load p).assets.map .asset
      ∧ (∀ i, (AssetSymbols.ofAssets p.assets).at? i = ((load p).assets.map (·.name))[i]?)
      ∧ ∀ i, (AssetSymbols.ofAssets (load p).assets).at? i
        = ((load p).assets.map (·.name))[i]? := by
  have hload : (load p).assets = (Renaming.ofAssets p.assets).assets := rfl
  rw [hload]
  refine ⟨?_, fun i => ?_, AssetSymbols.at?_renamed p.assets⟩
  · exact answers_addAsset (r := {}) h p.assets
  · rw [Renaming.names_ofAssets, List.getElem?_map, AssetSymbols.at?_eq]

/-- A number behind one name makes another, labels lead to a name that is in use, and
    two of them have nothing to make a name of. -/
theorem names_agree_clashing_labels :
    let p : Project :=
      { assets := [{ name := "Home" }, { name := "Home" }, { name := "Home_1" },
          { name := "Home!" }, { name := "?" }, { name := "" }] }
    (load {}).assets = []
      ∧ (load {}).answers (p.assets.map .addAsset) = (load p).assets.map .asset
      ∧ (load p).assets.map (·.name)
        = ["Home", "Home_1", "Home_1_1", "Home_2", "asset", "asset_1"] := by
  intro p
  have hempty : (load {}).assets = [] := rfl
  exact ⟨hempty, (names_agree p hempty).1, by decide +kernel⟩

end Workspace

end PanelSketch
