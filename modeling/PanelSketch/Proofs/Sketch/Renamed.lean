import PanelSketch.Proofs.Project.Keyed
import PanelSketch.Proofs.Sketch.Symbols
import PanelSketch.Proofs.Workspace.Renaming

/-!
# Assets Are Loaded Under Their Symbols

Two allocators name the assets of a project. Loading stores every asset under a
name that is free among the assets stored before it; an export draws its symbols
from a pool. Both clean a label in the same way and both take the first name that
is free of the names given so far, and which name that is depends on the set of
those names only. So the assets of a loaded project carry the symbols that the
file itself would be exported with, in the same order.

Names like these are names for the pool already. The symbols of a loaded project
are the names it stores, which is why exporting it renames nothing.

A reference follows the first asset of its name. The renaming is read from the
front: before that asset the name has not been seen, and behind it the entry of
the name is never written again, whatever the new name of another asset is called.

## Main definitions

* `Asset.named`: An asset under another name.

## Theorems

* `Renaming.assets_ofAssets`: Assets are loaded under their symbols.
* `AssetSymbols.entries_ofAssets_renamed`: The symbols of loaded assets are their
  names.
* `Renaming.follow_of_resolve?`, `Renaming.follow_of_not_mem`: A reference becomes the
  symbol of what it means, and stays if it means nothing.
* `AssetSymbols.resolve?_renamed`: It still means the same asset then.
-/

namespace PanelSketch

/-- An asset under another name. -/
def Asset.named (a : Asset) (name : String) : Asset :=
  { a with name }

namespace Renaming

variable {r : Renaming} {pool : Text.NamePool}

/-- A pool that has issued the names of the assets so far issues the next one. -/
theorem add_eq_claim (hpool : pool.fallback = "asset")
    (hissued : ∀ name, name ∈ r.assets.map (·.name) ↔ name ∈ pool.issued) (a : Asset) :
    (r.add a).assets = r.assets ++ [a.named (pool.claim a.name).1]
      ∧ ∀ name, name ∈ (r.add a).assets.map (·.name) ↔ name ∈ (pool.claim a.name).2.issued := by
  have hname : Text.freshName (Text.identifier a.name "asset") (r.assets.map (·.name))
      = (pool.claim a.name).1 := by
    rw [Text.NamePool.claim, hpool, Text.freshName_congr hissued]
  have hassets : (r.add a).assets = r.assets ++ [a.named (pool.claim a.name).1] := by
    rw [← hname]
    rfl
  refine ⟨hassets, fun name => ?_⟩
  rw [hassets, List.map_append, List.mem_append, hissued, List.map_singleton, List.mem_singleton,
    or_comm]
  exact List.mem_cons.symm

theorem assets_foldl_add (hpool : pool.fallback = "asset")
    (hissued : ∀ name, name ∈ r.assets.map (·.name) ↔ name ∈ pool.issued) (assets : List Asset) :
    (assets.foldl add r).assets
      = r.assets ++ assets.zipWith Asset.named (pool.claimAll (assets.map (·.name))) := by
  induction assets generalizing r pool with
  | nil => exact (List.append_nil _).symm
  | cons a assets ih =>
      rcases add_eq_claim hpool hissued a with ⟨hassets, hnames⟩
      rw [List.foldl_cons, @ih (r.add a) (pool.claim a.name).2 hpool hnames, hassets,
        List.append_assoc]
      rfl

/-- Assets are loaded under their symbols. -/
theorem assets_ofAssets (assets : List Asset) :
    (ofAssets assets).assets
      = (AssetSymbols.ofAssets assets).entries.map fun entry => entry.1.named entry.2 := by
  rw [ofAssets, @assets_foldl_add {} ⟨"asset", []⟩ rfl fun _ => Iff.rfl, AssetSymbols.entries,
    AssetSymbols.ofAssets, List.map_zip_eq_zipWith]
  exact List.nil_append _

theorem names_ofAssets (assets : List Asset) :
    (ofAssets assets).assets.map (·.name) = (AssetSymbols.ofAssets assets).entries.map (·.2) := by
  rw [assets_ofAssets, List.map_map]
  rfl

/-! ### References -/

/-- Only the first asset of a name writes the entry of the name. -/
theorem lookup_add {name : String} {a : Asset} (h : name ≠ a.name ∨ name ∈ r.seen) :
    (r.add a).renamed.lookup name = r.renamed.lookup name := by
  rw [add]
  split
  · rename_i hnew
    have hne : (name == a.name) = false := by
      rw [beq_eq_false_iff_ne]
      rintro rfl
      exact h.elim (fun hne => hne rfl) hnew.2
    rw [List.lookup_cons, hne]
  · rfl

/-- Once a name has been seen, its entry stays. -/
theorem lookup_foldl_add_of_seen {name : String} (h : name ∈ r.seen) (assets : List Asset) :
    (assets.foldl add r).renamed.lookup name = r.renamed.lookup name := by
  induction assets generalizing r with
  | nil => rfl
  | cons a assets ih => rw [List.foldl_cons, ih (List.mem_cons_of_mem _ h), lookup_add (Or.inr h)]

/-- A name that no asset has gets no entry. -/
theorem lookup_foldl_add_of_not_mem {name : String} {assets : List Asset}
    (h : name ∉ assets.map (·.name)) :
    (assets.foldl add r).renamed.lookup name = r.renamed.lookup name := by
  induction assets generalizing r with
  | nil => rfl
  | cons a assets ih =>
      rw [List.map_cons, List.mem_cons, not_or] at h
      rw [List.foldl_cons, ih h.2, lookup_add (Or.inl h.1)]

/-- The entry of a name that has not been seen leads to the name that its first
    carrier is given. -/
theorem lookup_foldl_add {name : String} (hseen : name ∉ r.seen)
    (hrenamed : r.renamed.lookup name = none) (hpool : pool.fallback = "asset")
    (hissued : ∀ other, other ∈ r.assets.map (·.name) ↔ other ∈ pool.issued)
    {assets : List Asset} {a : Asset} {symbol : String}
    (h : (assets.zip (pool.claimAll (assets.map (·.name)))).find? (·.1.name == name)
      = some (a, symbol)) :
    ((assets.foldl add r).renamed.lookup name).getD name = symbol := by
  induction assets generalizing r pool with
  | nil => exact absurd h (by simp only [List.zip_nil_left, List.find?_nil, reduceCtorEq,
      not_false_eq_true])
  | cons b assets ih =>
      rw [List.map_cons, Text.NamePool.claimAll, List.zip_cons_cons, List.find?_cons] at h
      have hname : Text.freshName (Text.identifier b.name "asset") (r.assets.map (·.name))
          = (pool.claim b.name).1 := by
        rw [Text.NamePool.claim, hpool, Text.freshName_congr hissued]
      by_cases hb : b.name = name
      · -- This is the first carrier; the assets behind it leave the entry alone.
        rcases hb with rfl
        rw [beq_self_eq_true, Option.some.injEq, Prod.mk.injEq] at h
        rw [List.foldl_cons, lookup_foldl_add_of_seen List.mem_cons_self, add, hname, ← h.2]
        by_cases hkept : (pool.claim b.name).1 = b.name
        · rw [if_neg fun hc => hc.1 hkept, hrenamed, Option.getD_none, hkept]
        · rw [if_pos ⟨hkept, hseen⟩, List.lookup_cons_self, Option.getD_some]
      · -- The name is still to come.
        have hrenamed' : (r.add b).renamed.lookup name = none :=
          (lookup_add (Or.inl fun he => hb he.symm)).trans hrenamed
        rw [beq_eq_false_iff_ne.mpr hb] at h
        have hseen' : name ∉ (r.add b).seen := fun hc =>
          (List.mem_cons.mp hc).elim (fun he => hb he.symm) hseen
        exact @ih (r.add b) (pool.claim b.name).2 hseen' hrenamed' hpool
          (add_eq_claim hpool hissued b).2 h

/-- A reference becomes the symbol of the asset it means. -/
theorem follow_of_resolve? {assets : List Asset} {name : String} {a : Asset} {symbol : String}
    (h : (AssetSymbols.ofAssets assets).resolve? name = some (a, symbol)) :
    (ofAssets assets).follow (some name) = some symbol := by
  rw [AssetSymbols.resolve?_eq_find?] at h
  have hentry : ((assets.foldl add {}).renamed.lookup name).getD name = symbol :=
    @lookup_foldl_add {} ⟨"asset", []⟩ name List.not_mem_nil rfl rfl (fun _ => Iff.rfl) assets a
      symbol h
  rw [follow, Option.map_some, ofAssets, hentry]

/-- A reference that is not the name of an asset is left alone. -/
theorem follow_of_not_mem {assets : List Asset} {name : String}
    (h : name ∉ assets.map (·.name)) : (ofAssets assets).follow (some name) = some name := by
  rw [follow, Option.map_some, ofAssets, lookup_foldl_add_of_not_mem h, List.lookup_nil,
    Option.getD_none]

end Renaming

namespace AssetSymbols

/-- The symbols of loaded assets are their names. -/
theorem entries_ofAssets_renamed (assets : List Asset) :
    (ofAssets (Renaming.ofAssets assets).assets).entries
      = (ofAssets assets).entries.map fun entry => (entry.1.named entry.2, entry.2) := by
  have hnamed : WellNamed (Renaming.ofAssets assets).assets :=
    ⟨fun a ha => Renaming.identifier_ofAssets a ha, Renaming.names_ofAssets_nodup assets⟩
  rw [entries_wellNamed hnamed, Renaming.assets_ofAssets, List.map_map]
  rfl

/-- The symbol of an asset is the name that leads to it once it is loaded. -/
theorem resolve?_renamed {assets : List Asset} {name : String} {a : Asset} {symbol : String}
    (h : (ofAssets assets).resolve? name = some (a, symbol)) :
    (ofAssets (Renaming.ofAssets assets).assets).resolve? symbol
      = some (a.named symbol, symbol) := by
  -- The names of loaded assets are different, so a search for one finds its only carrier.
  have hn : ((ofAssets (Renaming.ofAssets assets).assets).entries.map (·.1.name)).Nodup := by
    rw [entries_ofAssets_renamed, List.map_map]
    exact nodup_symbols assets
  have hmem : (a.named symbol, symbol)
      ∈ (ofAssets (Renaming.ofAssets assets).assets).entries := by
    rw [entries_ofAssets_renamed]
    exact List.mem_map.mpr ⟨(a, symbol), mem_entries_of_resolve? h, rfl⟩
  rw [resolve?_eq_find?]
  exact (find?_key_eq_some hn).mpr ⟨hmem, rfl⟩

theorem inStorage_renamed (assets : List Asset) (storage : Storage) :
    (ofAssets (Renaming.ofAssets assets).assets).inStorage storage
      = ((ofAssets assets).inStorage storage).map fun entry =>
          (entry.1.named entry.2, entry.2) := by
  rw [inStorage_eq_filter, inStorage_eq_filter, entries_ofAssets_renamed, List.filter_map]
  rfl

end AssetSymbols

end PanelSketch
