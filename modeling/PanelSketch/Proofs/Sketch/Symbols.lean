import PanelSketch.Proofs.Text.NamePool
import PanelSketch.Sketch.Symbols

/-!
# Positions of Assets and Symbols

The emitters find the symbol of an asset in two ways. A drawing call looks up a
name, in the list of assets and in the map of first positions; the header and the
archive go through the assets in order and take the symbol at the same position.
Both are the same symbol, since the map answers with the first position at which an
asset carries the name, and that is where the search in the list stops.

So one list says it all, the assets side by side with their symbols. Looking up a
name is searching this list, and going through one storage place is filtering it.
What is left keeps its order, so the place of an asset among those of its storage
place is the number of such assets in front of it.

## Main definitions

* `AssetSymbols.entries`: The assets side by side with their symbols.
* `WellNamed`: Assets whose names are symbols already.

## Theorems

* `AssetSymbols.getElem?_positions`: The map knows the first position of a name.
* `AssetSymbols.resolve?_eq_find?`, `AssetSymbols.inStorage_eq_filter`: Both ways to a
  symbol in one list.
* `AssetSymbols.nodup_symbols`, `AssetSymbols.isIdentifier_symbol`: Symbols are
  different identifiers.
* `AssetSymbols.entries_wellNamed`: Names that are symbols already are kept.
* `AssetSymbols.resolve?_eq`: Looking up a name is looking up a position.
* `AssetSymbols.exists_resolve?`: A name that is carried leads somewhere.
* `getElem?_filter`: Where an item of a list stands in a filtered list.
* `AssetSymbols.getElem?_inStorage`: Where an asset stands in its storage place.
-/

namespace PanelSketch

/-- The place of an item in a filtered list is the number of items in front of it
    that are kept. -/
theorem getElem?_filter {α : Type} {keep : α → Bool} {items : List α} {i : Nat} {a : α}
    (hi : items[i]? = some a) (ha : keep a = true) :
    (items.filter keep)[(items.take i).countP keep]? = some a := by
  induction items generalizing i with
  | nil => exact absurd hi (by simp only [List.getElem?_nil, reduceCtorEq, not_false_eq_true])
  | cons b items ih =>
      rcases i with _ | i
      · rw [List.getElem?_cons_zero, Option.some.injEq] at hi
        rw [hi, List.take_zero, List.countP_nil, List.filter_cons_of_pos ha,
          List.getElem?_cons_zero]
      · rw [List.getElem?_cons_succ] at hi
        by_cases hb : keep b = true
        · rw [List.take_succ_cons, List.countP_cons_of_pos hb, List.filter_cons_of_pos hb,
            List.getElem?_cons_succ, ih hi]
        · rw [List.take_succ_cons, List.countP_cons_of_neg hb, List.filter_cons_of_neg hb, ih hi]

/-- Assets whose names are identifiers that do not repeat. -/
structure WellNamed (assets : List Asset) : Prop where
  identifier : ∀ a ∈ assets, Text.identifier a.name "asset" = a.name
  nodup : (assets.map (·.name)).Nodup

namespace AssetSymbols

variable {assets : List Asset}

/-- The assets side by side with their symbols. -/
def entries (symbols : AssetSymbols) : List (Asset × String) :=
  symbols.assets.zip symbols.symbols

/-! ### Symbols in order -/

theorem length_symbols (assets : List Asset) :
    (ofAssets assets).symbols.length = assets.length := by
  rw [ofAssets, Text.NamePool.length_claimAll, List.length_map]

theorem map_fst_entries (assets : List Asset) : (ofAssets assets).entries.map (·.1) = assets :=
  List.map_fst_zip (Nat.le_of_eq (length_symbols assets).symm)

theorem map_snd_entries (assets : List Asset) :
    (ofAssets assets).entries.map (·.2) = (ofAssets assets).symbols :=
  List.map_snd_zip (Nat.le_of_eq (length_symbols assets))

theorem at?_eq (assets : List Asset) (i : Nat) :
    (ofAssets assets).at? i = (ofAssets assets).entries[i]?.map (·.2) := by
  rw [at?, ← List.getElem?_map, map_snd_entries]

theorem nodup_symbols (assets : List Asset) : ((ofAssets assets).entries.map (·.2)).Nodup := by
  rw [map_snd_entries]
  exact Text.NamePool.nodup_claimAll _ _

theorem isIdentifier_of_mem {symbol : String} (h : symbol ∈ (ofAssets assets).symbols) :
    Text.IsIdentifier symbol := by
  rw [ofAssets] at h
  exact Text.NamePool.isIdentifier_claimAll Text.isIdentifier_asset symbol h

/-- Symbols are identifiers. -/
theorem isIdentifier_symbol {entry : Asset × String} (h : entry ∈ (ofAssets assets).entries) :
    Text.IsIdentifier entry.2 :=
  isIdentifier_of_mem (List.of_mem_zip h).2

/-! ### Both ways to a symbol -/

/-- Positions that are put into a map one after the other, those of earlier assets of the
    same name excepted, are first positions. -/
theorem getElem?_foldl_insertIfNew (assets : List Asset) (start : Nat)
    (positions : Std.ExtTreeMap String Nat) (name : String) :
    ((assets.zipIdx start).foldl (fun positions (asset, position) =>
        positions.insertIfNew asset.name position) positions)[name]?
      = positions[name]?.or ((assets.findIdx? (·.name == name)).map (· + start)) := by
  induction assets generalizing start positions with
  | nil => rw [List.zipIdx_nil, List.foldl_nil, List.findIdx?_nil, Option.map_none, Option.or_none]
  | cons a assets ih =>
      rw [List.zipIdx_cons, List.foldl_cons, ih, Std.ExtTreeMap.getElem?_insertIfNew,
        List.findIdx?_cons]
      by_cases hname : a.name = name
      · rcases hname with rfl
        rw [beq_self_eq_true, if_pos rfl, Option.map_some, Nat.zero_add]
        by_cases hknown : a.name ∈ positions
        · -- An earlier position stays.
          rw [if_neg (fun hc => hc.2 hknown)]
          rcases hposition : positions[a.name]? with _ | k
          · rw [Std.ExtTreeMap.mem_iff_isSome_getElem?, hposition] at hknown
            exact absurd hknown (by decide)
          · rfl
        · rw [if_pos ⟨Std.ReflCmp.compare_self, hknown⟩, Std.ExtTreeMap.getElem?_eq_none hknown]
          rfl
      · rw [if_neg (fun hc => hname (Std.LawfulEqCmp.eq_of_compare hc.1)),
          if_neg (by rwa [beq_iff_eq]), Option.map_map]
        congr 2
        exact funext fun k => by simp only [Function.comp_apply]; omega

/-- The map knows the first position of every name. -/
theorem getElem?_positions (assets : List Asset) (name : String) :
    (ofAssets assets).positions[name]? = assets.findIdx? (·.name == name) := by
  rw [ofAssets, getElem?_foldl_insertIfNew, Std.ExtTreeMap.getElem?_empty, Option.none_or]
  exact Option.map_id'

/-- Looking up a name is taking the entry at the first position whose asset carries
    it. -/
theorem resolve?_eq (assets : List Asset) (name : String) :
    (ofAssets assets).resolve? name
      = (assets.findIdx? (·.name == name)).bind fun i => (ofAssets assets).entries[i]? := by
  have hassets : (ofAssets assets).assets = assets := rfl
  rw [resolve?, get?, getElem?_positions, List.find?_eq_bind_findIdx?_getElem?, hassets]
  cases assets.findIdx? (·.name == name) with
  | none => rfl
  | some i =>
    -- Asset and symbol are the two sides of the entry at the position.
    have hasset : assets[i]? = (ofAssets assets).entries[i]?.map (·.1) := by
      rw [← List.getElem?_map, map_fst_entries]
    simp only [Option.bind_eq_bind, Option.bind_some, at?_eq, hasset, Option.pure_def]
    cases (ofAssets assets).entries[i]? with
    | none => rfl
    | some entry => rfl

/-- Looking up a name is searching the assets with their symbols. -/
theorem resolve?_eq_find? (assets : List Asset) (name : String) :
    (ofAssets assets).resolve? name
      = (ofAssets assets).entries.find? (·.1.name == name) := by
  have hfind : assets.findIdx? (·.name == name)
      = (ofAssets assets).entries.findIdx? (·.1.name == name) := by
    conv_lhs => rw [← map_fst_entries assets, List.findIdx?_map]
    rfl
  rw [resolve?_eq, hfind, List.find?_eq_bind_findIdx?_getElem?]

theorem mem_entries_of_resolve? {name : String} {entry : Asset × String}
    (h : (ofAssets assets).resolve? name = some entry) : entry ∈ (ofAssets assets).entries := by
  rw [resolve?_eq_find?] at h
  exact List.mem_of_find?_eq_some h

/-- Symbols that are taken at the positions of assets stand side by side with them. -/
theorem filterMap_zipIdx (assets : List Asset) (front back : List String)
    (h : assets.length = back.length) (storage : Storage) :
    (assets.zipIdx front.length).filterMap (fun (asset, position) =>
        if asset.storage = storage then ((front ++ back)[position]?).map (asset, ·) else none)
      = (assets.zip back).filter (·.1.storage == storage) := by
  induction assets generalizing front back with
  | nil => rfl
  | cons a assets ih =>
      rcases back with _ | ⟨s, back⟩
      · exact absurd h (Nat.succ_ne_zero _)
      · have hsymbol : (front ++ s :: back)[front.length]? = some s := by
          rw [List.getElem?_append_right (Nat.le_refl _), Nat.sub_self, List.getElem?_cons_zero]
        have hrest := ih (front ++ [s]) back (Nat.succ.inj h)
        rw [List.length_append, List.length_singleton, List.append_assoc, List.singleton_append]
          at hrest
        rw [List.zipIdx_cons, List.zip_cons_cons]
        by_cases hstorage : a.storage = storage
        · rw [List.filter_cons, if_pos (beq_iff_eq.mpr hstorage), ← hrest]
          exact List.filterMap_cons_some (by
            simp only [if_pos hstorage, hsymbol, Option.map_some])
        · rw [List.filter_cons, if_neg (by rwa [beq_iff_eq]), ← hrest]
          exact List.filterMap_cons_none (if_neg hstorage)

/-- Going through the assets of one storage place is filtering the assets with their
    symbols. -/
theorem inStorage_eq_filter (assets : List Asset) (storage : Storage) :
    (ofAssets assets).inStorage storage
      = (ofAssets assets).entries.filter (·.1.storage == storage) :=
  filterMap_zipIdx assets [] (ofAssets assets).symbols (length_symbols assets).symm storage

theorem mem_inStorage {entry : Asset × String} {storage : Storage} :
    entry ∈ (ofAssets assets).inStorage storage
      ↔ entry ∈ (ofAssets assets).entries ∧ entry.1.storage = storage := by
  rw [inStorage_eq_filter, List.mem_filter, beq_iff_eq]

theorem asset_of_entry {i : Nat} {a : Asset} {s : String}
    (h : (ofAssets assets).entries[i]? = some (a, s)) : assets[i]? = some a := by
  rw [← map_fst_entries assets, List.getElem?_map, h]
  rfl

/-- Every asset has a symbol. -/
theorem exists_entry {i : Nat} {a : Asset} (h : assets[i]? = some a) :
    ∃ s, (ofAssets assets).entries[i]? = some (a, s) := by
  rw [← map_fst_entries assets, List.getElem?_map, Option.map_eq_some_iff] at h
  rcases h with ⟨⟨b, s⟩, hentry, rfl⟩
  exact ⟨s, hentry⟩

/-- The symbol of each asset is its name. -/
theorem entries_wellNamed (h : WellNamed assets) :
    (ofAssets assets).entries = assets.map fun a => (a, a.name) := by
  have hkept : (⟨"asset", []⟩ : Text.NamePool).claimAll (assets.map (·.name))
      = assets.map (·.name) := by
    refine Text.NamePool.claimAll_eq_self (fun name hname => ?_) h.nodup
    rcases List.mem_map.mp hname with ⟨a, ha, rfl⟩
    exact h.identifier a ha
  have hzip : (ofAssets assets).entries = assets.zip (assets.map (·.name)) :=
    congrArg assets.zip hkept
  rw [hzip]
  conv_lhs => rw [← List.map_id assets, List.map_map, List.zip_map']
  rfl

/-- A name that some asset carries leads to the first asset that carries it. -/
theorem exists_resolve? {name : String} (h : name ∈ assets.map (·.name)) :
    ∃ i a s, assets.findIdx? (·.name == name) = some i
      ∧ (ofAssets assets).entries[i]? = some (a, s)
      ∧ (ofAssets assets).resolve? name = some (a, s) := by
  rcases hi : assets.findIdx? (·.name == name) with _ | i
  · rcases List.mem_map.mp h with ⟨a, ha, hname⟩
    -- The asset that carries the name would have been found.
    have hnone := List.findIdx?_eq_none_iff.mp hi a ha
    rw [hname, beq_self_eq_true] at hnone
    exact absurd hnone (by decide)
  · have hlt : i < (ofAssets assets).entries.length := by
      rw [← List.length_map (·.1), map_fst_entries]
      exact (List.findIdx?_eq_some_iff_getElem.mp hi).1
    have hentry := List.getElem?_eq_getElem hlt
    refine ⟨i, _, _, hi, hentry, ?_⟩
    rw [resolve?_eq, hi, Option.bind_some, hentry]
    rfl

theorem resolve?_eq_none {name : String} (h : name ∉ assets.map (·.name)) :
    (ofAssets assets).resolve? name = none := by
  rw [resolve?_eq_find?]
  refine List.find?_eq_none.mpr fun entry hentry hname => h ?_
  have ha : entry.1 ∈ assets := map_fst_entries assets ▸ List.mem_map_of_mem hentry
  exact List.mem_map.mpr ⟨entry.1, ha, beq_iff_eq.mp hname⟩

/-- The place of an asset in its storage place is the number of assets in front of
    it that are stored there. -/
theorem getElem?_inStorage {i : Nat} {a : Asset} {s : String}
    (h : (ofAssets assets).entries[i]? = some (a, s)) :
    ((ofAssets assets).inStorage a.storage)[(assets.take i).countP (·.storage == a.storage)]?
      = some (a, s) := by
  have hcount : (assets.take i).countP (·.storage == a.storage)
      = ((ofAssets assets).entries.take i).countP (·.1.storage == a.storage) := by
    conv_lhs => rw [← map_fst_entries assets, ← List.map_take, List.countP_map]
    rfl
  rw [hcount, inStorage_eq_filter]
  exact getElem?_filter h (beq_self_eq_true a.storage)

theorem map_fst_inStorage (assets : List Asset) (storage : Storage) :
    ((ofAssets assets).inStorage storage).map (·.1) = assets.filter (·.storage == storage) := by
  conv_rhs => rw [← map_fst_entries assets, List.filter_map]
  rw [inStorage_eq_filter]
  rfl

theorem nodup_inStorage (assets : List Asset) (storage : Storage) :
    (((ofAssets assets).inStorage storage).map (·.2)).Nodup := by
  rw [inStorage_eq_filter]
  exact (nodup_symbols assets).sublist (List.filter_sublist.map _)

end AssetSymbols

end PanelSketch
