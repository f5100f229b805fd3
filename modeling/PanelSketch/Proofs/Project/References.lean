import PanelSketch.Proofs.Project.Relabelled
import PanelSketch.Proofs.Sketch.Renamed
import PanelSketch.Proofs.Workspace.Loading
import PanelSketch.Sketch.Drawing

/-!
# References Follow Their Assets

A reference is a name, and it means the first asset that carries the name. Loading
renames assets, so it has to look after the references as well. It does so one by one:
the reference at a place of the loaded project is the reference at the same place of
the file, taken through the renaming. Which other references there are does not matter.

A reference that means an asset goes on to mean the asset at the same position, also
where the new name of one asset is the old name of another.

A reference that means no asset is left alone, which does not keep it from meaning one
later. Some asset may be given just the name that it uses. And an empty reference,
through which nothing is drawn, is followed like any other once an asset has the empty
name; the name it becomes is not empty any more. These are the only two ways in which
loading makes an image appear.

## Main definitions

* `ReferencePlace`, `Project.referenceAt`: Where references stand.
* `Project.Means`: The asset that a name means.
* `Project.DrawsNothing`: References through which no image is drawn.
* `Project.KeepsUndrawn`: A project in which no image appears.

## Theorems

* `Project.referenceAt_load`: References are taken through the renaming.
* `Project.means_follow_load`: A reference goes on to mean its asset.
* `Project.drawsNothing_iff`: Whether a drawing finds an asset.
* `Project.drawsNothing_follow_iff`: Through which references nothing is drawn after
  loading.
* `Project.keepsUndrawn_load_iff`: When loading makes no image appear.
-/

namespace PanelSketch

/-- Where a reference stands: behind the elements of a screen, or at one of them. -/
inductive ReferencePlace where
  | background (screen : Nat)
  | element (screen position : Nat)
  deriving DecidableEq, Repr

namespace Project

/-- The reference at a place, if there is one. -/
def referenceAt (p : Project) : ReferencePlace → Option String
  | .background k => p.screens[k]?.bind (·.backgroundAsset)
  | .element k i => (p.screens[k]?.bind (·.elements[i]?)).bind (·.asset)

/-- A name means the asset at a position: it is found by that name, and no asset in
    front of the position would be. -/
structure Means (p : Project) (name : String) (i : Nat) (a : Asset) : Prop where
  found : p.asset? name = some a
  position : p.assets[i]? = some a
  first : p.assets.findIdx? (·.name == name) = some i

/-- No image is drawn through a reference that is missing or empty, or that is not the
    name of an asset. -/
def DrawsNothing (p : Project) (reference : Option String) : Prop :=
  ∀ name ∈ reference, name = "" ∨ name ∉ p.assetNames

instance (p : Project) (reference : Option String) : Decidable (p.DrawsNothing reference) :=
  inferInstanceAs (Decidable (∀ name ∈ reference, _))

/-- Where the one project draws no image, the other draws none either. -/
def KeepsUndrawn (p q : Project) : Prop :=
  ∀ place, p.DrawsNothing (p.referenceAt place) → q.DrawsNothing (q.referenceAt place)

variable {p : Project} {name : String}

/-! ### Places -/

theorem referenceAt_of_forall₂ {r : Renaming} {q : Project}
    (h : List.Forall₂ (Screen.Relabelled r) p.screens q.screens) (place : ReferencePlace) :
    q.referenceAt place = r.follow (p.referenceAt place) := by
  cases place with
  | background k =>
      rw [referenceAt, referenceAt]
      rcases getElem?_of_forall₂ h k with ⟨hs, hs'⟩ | ⟨s, s', hs, hs', id, ids, _, rfl⟩
      · rw [hs, hs']
        rfl
      · rw [hs, hs']
        rfl
  | element k i =>
      rw [referenceAt, referenceAt]
      rcases getElem?_of_forall₂ h k with ⟨hs, hs'⟩ | ⟨s, s', hs, hs', hscreen⟩
      · rw [hs, hs']
        rfl
      · rw [hs, hs', Option.bind_some, Option.bind_some]
        rcases getElem?_of_forall₂ hscreen.elements i with ⟨he, he'⟩ | ⟨e, e', he, he', id, rfl⟩
        · rw [he, he']
          rfl
        · rw [he, he']
          rfl

/-- References stay in their places and are taken through the renaming. -/
theorem referenceAt_load (p : Project) (place : ReferencePlace) :
    (Workspace.load p).project.referenceAt place
      = (Renaming.ofAssets p.assets).follow (p.referenceAt place) := by
  rw [Workspace.project_load]
  by_cases hscreens : p.screens = []
  · -- There is no reference in the file, and none on the screen that is added.
    have hfile : p.referenceAt place = none := by
      cases place <;> rw [referenceAt, hscreens] <;> rfl
    rw [repaired_of_nil hscreens, hfile]
    rcases place with (_ | k) | ⟨_ | k, i⟩ <;> rfl
  · rw [repaired_eq_refocus hscreens]
    exact @referenceAt_of_forall₂ p _ p.relabelled.refocus (forall₂_relabelled p) place

theorem assets_load (p : Project) :
    (Workspace.load p).project.assets = (Renaming.ofAssets p.assets).assets := by
  rw [Workspace.project_load, assets_repaired]

theorem assetNames_load (p : Project) :
    (Workspace.load p).project.assetNames = (AssetSymbols.ofAssets p.assets).entries.map (·.2) := by
  rw [assetNames, assets_load, Renaming.names_ofAssets]

theorem empty_not_mem_assetNames_load (p : Project) :
    "" ∉ (Workspace.load p).project.assetNames := by
  rw [assetNames_load]
  intro hmem
  rcases List.mem_map.mp hmem with ⟨entry, hentry, hempty⟩
  exact (AssetSymbols.isIdentifier_symbol hentry).ne_empty hempty

/-! ### References that mean an asset -/

/-- Among different names, the name of an asset means it. -/
theorem means_of_nodup (hn : p.assetNames.Nodup) {i : Nat} {a : Asset}
    (hi : p.assets[i]? = some a) : p.Means a.name i a where
  found := (find?_key_eq_some hn).mpr ⟨List.mem_of_getElem? hi, rfl⟩
  position := hi
  first := findIdx?_key_eq_some hn hi

/-- The asset that a name means is the one whose symbol the name leads to. -/
theorem Means.exists_resolve? {i : Nat} {a : Asset} (h : p.Means name i a) :
    ∃ symbol, (AssetSymbols.ofAssets p.assets).entries[i]? = some (a, symbol)
      ∧ (AssetSymbols.ofAssets p.assets).resolve? name = some (a, symbol) := by
  rcases AssetSymbols.exists_entry h.position with ⟨symbol, hentry⟩
  refine ⟨symbol, hentry, ?_⟩
  rw [AssetSymbols.resolve?_eq, h.first, Option.bind_some, hentry]

/-- A reference that means an asset means the asset at the same position after loading,
    which has got nothing but another name. -/
theorem means_follow_load {place : ReferencePlace} {i : Nat} {a : Asset}
    (hplace : p.referenceAt place = some name) (hmeans : p.Means name i a) :
    ∃ name', (Workspace.load p).project.referenceAt place = some name'
      ∧ (Workspace.load p).project.Means name' i (a.named name') := by
  rcases hmeans.exists_resolve? with ⟨symbol, hentry, hresolve⟩
  refine ⟨symbol, ?_, ?_⟩
  · rw [referenceAt_load, hplace, Renaming.follow_of_resolve? hresolve]
  · have hn : (Workspace.load p).project.assetNames.Nodup := by
      rw [assetNames_load]
      exact AssetSymbols.nodup_symbols p.assets
    have hi : (Workspace.load p).project.assets[i]? = some (a.named symbol) := by
      rw [assets_load, Renaming.assets_ofAssets, List.getElem?_map, hentry]
      rfl
    exact means_of_nodup hn hi

/-- The first asset takes the name that the reference uses, and the reference follows the
    second one. -/
theorem means_follow_load_chain :
    let p : Project :=
      { screens := [{ elements := [{ asset := some "my logo" }, { asset := some "my_logo" }] }]
        assets := [{ name := "my logo" }, { name := "my_logo", storage := .littleFs }] }
    let second : Asset := { name := "my_logo", storage := .littleFs }
    p.referenceAt (.element 0 1) = some "my_logo" ∧ p.Means "my_logo" 1 second
      ∧ ∃ name', (Workspace.load p).project.referenceAt (.element 0 1) = some name'
        ∧ (Workspace.load p).project.Means name' 1 (second.named name') := by
  intro p second
  have hplace : p.referenceAt (.element 0 1) = some "my_logo" := by decide
  have hmeans : p.Means "my_logo" 1 second := ⟨by decide, by decide, by decide⟩
  exact ⟨hplace, hmeans, means_follow_load hplace hmeans⟩

/-! ### References through which nothing is drawn -/

theorem drawsNothing_none (p : Project) : p.DrawsNothing none :=
  fun _ hname => absurd hname (Option.not_mem_none _)

theorem drawsNothing_some : p.DrawsNothing (some name) ↔ name = "" ∨ name ∉ p.assetNames := by
  simp only [DrawsNothing, Option.mem_some_iff, forall_eq']

/-- Nothing is drawn through a reference exactly when a drawing finds no asset by it. -/
theorem drawsNothing_iff {reference : Option String} :
    p.DrawsNothing reference
      ↔ (reference? reference).bind (AssetSymbols.ofAssets p.assets).resolve? = none := by
  rcases reference with _ | name
  · exact iff_of_true (drawsNothing_none p) rfl
  · rw [drawsNothing_some, reference?, Option.filter_some]
    by_cases hempty : name = ""
    · rw [if_neg (by rw [hempty]; decide)]
      exact iff_of_true (Or.inl hempty) rfl
    · rw [if_pos (decide_eq_true hempty), Option.bind_some, or_iff_right hempty]
      constructor
      · exact AssetSymbols.resolve?_eq_none
      · intro hnone hmem
        rcases AssetSymbols.exists_resolve? hmem with ⟨_, _, _, _, _, hresolve⟩
        exact Option.some_ne_none _ (hresolve.symm.trans hnone)

/-- After loading, nothing is drawn through a reference whose name belongs to no asset,
    neither in the file nor later. -/
theorem drawsNothing_follow_iff (p : Project) (name : String) :
    (Workspace.load p).project.DrawsNothing ((Renaming.ofAssets p.assets).follow (some name))
      ↔ name ∉ p.assetNames ∧ name ∉ (Workspace.load p).project.assetNames := by
  have hempty := empty_not_mem_assetNames_load p
  by_cases hmem : name ∈ p.assetNames
  · -- The reference becomes the new name of an asset.
    rcases AssetSymbols.exists_resolve? hmem with ⟨i, a, symbol, _, hentry, hresolve⟩
    have hsymbol : symbol ∈ (Workspace.load p).project.assetNames := by
      rw [assetNames_load]
      exact List.mem_map_of_mem (f := (·.2)) (List.mem_of_getElem? hentry)
    have hne : symbol ≠ "" := fun he => hempty (he ▸ hsymbol)
    rw [Renaming.follow_of_resolve? hresolve, drawsNothing_some]
    exact iff_of_false (fun h => h.elim hne fun hnew => hnew hsymbol) fun h => h.1 hmem
  · -- The reference stays as it is, and it is no new name if it is empty.
    rw [Renaming.follow_of_not_mem hmem, drawsNothing_some,
      or_iff_right_of_imp fun he => he ▸ hempty, and_iff_right hmem]

/-- Loading makes no image appear, exactly when no empty reference stands beside an asset
    with the empty name, and no reference uses a name that only loading gives to an
    asset. -/
theorem keepsUndrawn_load_iff (p : Project) :
    p.KeepsUndrawn (Workspace.load p).project
      ↔ ∀ place, ∀ name ∈ p.referenceAt place, (name = "" → name ∉ p.assetNames)
        ∧ (name ∈ (Workspace.load p).project.assetNames → name ∈ p.assetNames) := by
  refine forall_congr' fun place => ?_
  rw [referenceAt_load]
  rcases p.referenceAt place with _ | name
  · exact iff_of_true (fun _ => drawsNothing_none _)
      fun _ hname => absurd hname (Option.not_mem_none _)
  · simp only [drawsNothing_some, drawsNothing_follow_iff, Option.mem_some_iff, forall_eq']
    constructor
    · intro h
      refine ⟨fun hempty => (h (Or.inl hempty)).1, fun hnew => ?_⟩
      by_contra hmem
      exact (h (Or.inr hmem)).2 hnew
    · rintro ⟨hempty, hnew⟩ hnothing
      have hmem : name ∉ p.assetNames := hnothing.elim hempty id
      exact ⟨hmem, fun hc => hmem (hnew hc)⟩

/-- The second asset is given the name that a reference is waiting for, and an empty
    reference follows an asset without a name. -/
theorem not_keepsUndrawn_taken_names :
    let p : Project :=
      { screens := [{ elements := [{ kind := .pushImage, asset := some "Bg_1" }] }]
        assets := [{ name := "Bg" }, { name := "Bg" }] }
    let unnamed : Project :=
      { screens := [{ elements := [{ kind := .pushImage, asset := some "" }] }]
        assets := [{ name := "" }] }
    ¬p.KeepsUndrawn (Workspace.load p).project
      ∧ ¬unnamed.KeepsUndrawn (Workspace.load unnamed).project := by
  intro p unnamed
  constructor
  · intro h
    have hnothing : p.DrawsNothing (p.referenceAt (.element 0 0)) := by decide
    exact absurd (h _ hnothing) (by decide)
  · intro h
    have hnothing : unnamed.DrawsNothing (unnamed.referenceAt (.element 0 0)) := by decide
    exact absurd (h _ hnothing) (by decide)

end Project

end PanelSketch
