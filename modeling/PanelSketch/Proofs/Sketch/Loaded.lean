import PanelSketch.Proofs.Project.Relabelled
import PanelSketch.Proofs.Sketch.Bundle
import PanelSketch.Proofs.Sketch.Renamed
import PanelSketch.Proofs.Workspace.Loading

/-!
# Loading Does Not Change What Is Exported

Loading gives ids anew, renames assets and lets references follow. None of it
shows in an export. Ids are not written anywhere, and an export puts every asset
under its symbol, which is the name it is loaded under. Where the file draws an
image through a reference, the loaded project draws the same image through the
symbol of the same asset, all references at once: the symbol of one asset may be
what another was called in the file.

A reference that leads nowhere is another matter. It is written into a remark as
it stands, and the name it uses may come to exist once assets are renamed. So the
references have to lead somewhere, and there has to be a screen, since a project
without one is given one.

## Main definitions

* `LeadsTo`: A reference, if there is one, is the name of an asset.
* `Project.Resolved`: All references of a project are.
* `SameExports`: Two projects cannot be told apart by what is made of them.

## Theorems

* `LeadsTo.follow`: What a reference means before and after loading.
* `Element.lines_relabel`, `Screen.lines_relabel`: Elements and screens are drawn
  by the same lines.
* `Sketch.ofProject_repaired`, `Header.ofProject_repaired`, `Bundle.given_repaired`:
  The exports of a repaired project.
* `sameExports_load`: Loading does not change what is exported.
-/

namespace PanelSketch

/-- A reference, if there is one, is the name of an asset, and not empty. -/
def LeadsTo (assets : List Asset) (reference : Option String) : Prop :=
  ∀ name ∈ reference, name ≠ "" ∧ name ∈ assets.map (·.name)

instance (assets : List Asset) (reference : Option String) :
    Decidable (LeadsTo assets reference) :=
  inferInstanceAs (Decidable (∀ name ∈ reference, _))

/-- All references of a project lead to assets. -/
structure Project.Resolved (p : Project) : Prop where
  backgrounds : ∀ s ∈ p.screens, LeadsTo p.assets s.backgroundAsset
  images : ∀ e ∈ p.elements, LeadsTo p.assets e.asset

instance (p : Project) : Decidable p.Resolved :=
  decidable_of_iff ((∀ s ∈ p.screens, LeadsTo p.assets s.backgroundAsset)
    ∧ ∀ e ∈ p.elements, LeadsTo p.assets e.asset)
    ⟨fun h => ⟨h.1, h.2⟩, fun h => ⟨h.backgrounds, h.images⟩⟩

/-- Two projects cannot be told apart by what is made of them. -/
structure SameExports (settings : Settings) (p q : Project) : Prop where
  sketch : (Sketch.ofProject settings p).render = (Sketch.ofProject settings q).render
  routines : (Sketch.ofProject settings p).routines.length
    = (Sketch.ofProject settings q).routines.length
  header : (Header.ofProject settings p).render = (Header.ofProject settings q).render
  arrays : (Header.ofProject settings p).arrays.length
    = (Header.ofProject settings q).arrays.length
  /-- Either both archives fail, by the same name, or both hold the same files in the
      same order. -/
  entries : (Bundle.ofProject settings p).map (·.entries)
    = (Bundle.ofProject settings q).map (·.entries)

variable {assets : List Asset}

/-- A reference that leads to an asset follows it to its symbol, and nothing else
    has to be known about it. -/
theorem LeadsTo.follow {reference : Option String} (h : LeadsTo assets reference) :
    reference? reference = none ∧ reference? ((Renaming.ofAssets assets).follow reference) = none
      ∨ ∃ name a symbol, reference? reference = some name
        ∧ (AssetSymbols.ofAssets assets).resolve? name = some (a, symbol)
        ∧ reference? ((Renaming.ofAssets assets).follow reference) = some symbol
        ∧ (AssetSymbols.ofAssets (Renaming.ofAssets assets).assets).resolve? symbol
          = some (a.named symbol, symbol) := by
  rcases reference with _ | name
  · exact Or.inl ⟨rfl, rfl⟩
  · rcases h name rfl with ⟨hne, hname⟩
    rcases AssetSymbols.exists_resolve? hname with ⟨_, a, symbol, _, hentry, hresolve⟩
    have hsymbol : symbol ≠ "" :=
      (AssetSymbols.isIdentifier_symbol (List.mem_of_getElem? hentry)).ne_empty
    refine Or.inr ⟨name, a, symbol, ?_, hresolve, ?_, AssetSymbols.resolve?_renamed hresolve⟩
    · rw [reference?, Option.filter_some, if_pos (decide_eq_true hne)]
    · rw [Renaming.follow_of_resolve? hresolve, reference?, Option.filter_some,
        if_pos (decide_eq_true hsymbol)]

/-- The name of an asset plays no part in how its image is drawn. -/
theorem imageCall_named (a : Asset) (name symbol : String) (b : Box) :
    imageCall (a.named name) symbol b = imageCall a symbol b :=
  rfl

/-! ### Elements and screens -/

namespace Element

theorem imageLine_relabel {e : Element} (h : LeadsTo assets e.asset) (id : ElementId) :
    (e.relabel (Renaming.ofAssets assets) id).imageLine
        (AssetSymbols.ofAssets (Renaming.ofAssets assets).assets)
      = e.imageLine (AssetSymbols.ofAssets assets) := by
  have hbox : (e.relabel (Renaming.ofAssets assets) id).box = e.box := rfl
  have hasset : (e.relabel (Renaming.ofAssets assets) id).asset
    = (Renaming.ofAssets assets).follow e.asset := rfl
  rw [imageLine, imageLine, hbox, hasset]
  rcases h.follow with ⟨hnone, hnone'⟩ | ⟨name, a, symbol, hname, hresolve, hname', hresolve'⟩
  · rw [hnone, hnone']
  · simp only [hname, hresolve, hname', hresolve', imageCall_named]

/-- An element is drawn by the same lines. -/
theorem lines_relabel {e : Element} (h : LeadsTo assets e.asset) (id : ElementId)
    (cornerRadius : Nat) :
    (e.relabel (Renaming.ofAssets assets) id).lines
        (AssetSymbols.ofAssets (Renaming.ofAssets assets).assets) cornerRadius
      = e.lines (AssetSymbols.ofAssets assets) cornerRadius := by
  have hkind : (e.relabel (Renaming.ofAssets assets) id).kind = e.kind := rfl
  -- Only an image looks at its reference; box, colour and label are those of the file.
  by_cases himage : e.kind = .pushImage
  · rw [lines, lines, hkind, himage]
    exact congrArg (fun line => [line]) (imageLine_relabel h id)
  · unfold lines
    rw [hkind]
    split
    · exact absurd (by assumption) himage
    · rfl
    · rfl
    · rfl

theorem blocks_relabel (cornerRadius : Nat) {ids : List ElementId} {es : List Element}
    (hlength : ids.length = es.length) (h : ∀ e ∈ es, LeadsTo assets e.asset) :
    (ids.zipWith (relabel (Renaming.ofAssets assets)) es).flatMap
        (fun e => e.block (AssetSymbols.ofAssets (Renaming.ofAssets assets).assets) cornerRadius)
      = es.flatMap fun e => e.block (AssetSymbols.ofAssets assets) cornerRadius := by
  have hpaired : List.Forall₂ (Relabelled (Renaming.ofAssets assets)) es
      (ids.zipWith (relabel (Renaming.ofAssets assets)) es) :=
    forall₂_zipWith hlength fun id _ _ _ => ⟨id, rfl⟩
  rw [List.flatMap_def, List.flatMap_def]
  refine congrArg List.flatten (map_eq_of_forall₂ hpaired fun e he e' he' => ?_)
  rcases he' with ⟨id, rfl⟩
  rw [block, block, lines_relabel (h e he)]
  rfl

end Element

namespace Screen

theorem backgroundLines_relabel (panel : Panel) {s : Screen}
    (h : LeadsTo assets s.backgroundAsset) (id : ScreenId) (ids : List ElementId) :
    (s.relabel (Renaming.ofAssets assets) id ids).backgroundLines
        (AssetSymbols.ofAssets (Renaming.ofAssets assets).assets) panel
      = s.backgroundLines (AssetSymbols.ofAssets assets) panel := by
  have hfill : (s.relabel (Renaming.ofAssets assets) id ids).fillLines = s.fillLines := rfl
  have hasset : (s.relabel (Renaming.ofAssets assets) id ids).backgroundAsset
    = (Renaming.ofAssets assets).follow s.backgroundAsset := rfl
  rw [backgroundLines, backgroundLines, hfill, hasset]
  rcases h.follow with ⟨hnone, hnone'⟩ | ⟨name, a, symbol, hname, hresolve, hname', hresolve'⟩
  · rw [hnone, hnone', Option.bind_none, Option.bind_none]
  · simp only [hname, hname', Option.bind_some, hresolve, hresolve', imageCall_named]

/-- A screen is drawn by the same lines. -/
theorem lines_relabel (panel : Panel) {s : Screen} (hb : LeadsTo assets s.backgroundAsset)
    (he : ∀ e ∈ s.elements, LeadsTo assets e.asset) (id : ScreenId) {ids : List ElementId}
    (hlength : ids.length = s.elements.length) :
    (s.relabel (Renaming.ofAssets assets) id ids).lines
        (AssetSymbols.ofAssets (Renaming.ofAssets assets).assets) panel
      = s.lines (AssetSymbols.ofAssets assets) panel := by
  rw [lines, lines, backgroundLines_relabel panel hb,
    ← Element.blocks_relabel panel.cornerRadius.toNat hlength he]
  rfl

end Screen

/-- Screens keep their names and their lines. -/
theorem Project.drawn_relabelled (panel : Panel) {p : Project} (h : p.Resolved) :
    p.relabelled.screens.map (fun s => (s.name,
        s.lines (AssetSymbols.ofAssets (Renaming.ofAssets p.assets).assets) panel))
      = p.screens.map fun s => (s.name, s.lines (AssetSymbols.ofAssets p.assets) panel) := by
  refine map_eq_of_forall₂ (forall₂_relabelled p) fun s hs s' hs' => ?_
  rcases hs' with ⟨id, ids, hlength, rfl⟩
  have himages : ∀ e ∈ s.elements, LeadsTo p.assets e.asset := fun e he =>
    h.images e (List.mem_flatMap.mpr ⟨s, hs, he⟩)
  rw [Screen.lines_relabel panel (h.backgrounds s hs) himages id hlength]
  rfl

/-! ### Exports -/

variable {p : Project}

/-- A sketch takes the names of the screens and the lines that draw them. -/
theorem Sketch.routines_ofProject (settings : Settings) (p : Project) :
    (ofProject settings p).routines
      = List.zipWith Routine.mk
        ((⟨"screen", []⟩ : Text.NamePool).claimAll ((p.screens.map fun s => (s.name,
          s.lines (AssetSymbols.ofAssets p.assets) settings.panel)).map (·.1)))
        ((p.screens.map fun s => (s.name,
          s.lines (AssetSymbols.ofAssets p.assets) settings.panel)).map (·.2)) := by
  rw [List.map_map, List.map_map, List.zipWith_map_right]
  rfl

theorem Sketch.ofProject_repaired (settings : Settings) (hne : p.screens ≠ [])
    (h : p.Resolved) : ofProject settings p.repaired = ofProject settings p := by
  have hroutines : (ofProject settings p.repaired).routines = (ofProject settings p).routines := by
    rw [routines_ofProject, routines_ofProject, Project.repaired_eq_refocus hne,
      ← Project.drawn_relabelled settings.panel h]
    rfl
  rw [show ofProject settings p.repaired
    = ⟨settings.files.header, settings.panel.rotation, (ofProject settings p.repaired).routines⟩
      from rfl, hroutines]
  rfl

theorem Header.ofProject_repaired (settings : Settings) (hne : p.screens ≠ []) :
    ofProject settings p.repaired = ofProject settings p := by
  have hassets : p.repaired.assets = (Renaming.ofAssets p.assets).assets := by
    rw [Project.repaired_eq_refocus hne]
    rfl
  rw [ofProject, ofProject, hassets, AssetSymbols.inStorage_renamed, List.map_map]
  rfl

theorem Bundle.given_repaired (settings : Settings) (hne : p.screens ≠ []) (h : p.Resolved) :
    given settings p.repaired = given settings p := by
  rw [given, given, Sketch.ofProject_repaired settings hne h, Header.ofProject_repaired settings hne,
    Project.assets_repaired, AssetSymbols.inStorage_renamed, List.filterMap_map]
  rfl

/-- A project with a screen whose references lead to assets is exported alike before
    and after loading. -/
theorem sameExports_load (settings : Settings) {p : Project} (hne : p.screens ≠ [])
    (h : p.Resolved) : SameExports settings (Workspace.load p).project p := by
  have hrepaired : (Workspace.load p).project = p.repaired := Workspace.project_load p
  have hsketch := Sketch.ofProject_repaired settings hne h
  have hheader := Header.ofProject_repaired settings hne
  rw [hrepaired]
  refine ⟨?_, ?_, ?_, ?_, ?_⟩
  · rw [hsketch]
  · rw [hsketch]
  · rw [hheader]
  · rw [hheader]
  · rw [Bundle.map_entries_ofProject, Bundle.map_entries_ofProject, Bundle.given_repaired settings
      hne h]

/-- The symbol of one asset is what another is called in the file, two assets have
    one name, and ids repeat. -/
theorem sameExports_load_exchanged_names :
    let p : Project :=
      { screens := [{ backgroundAsset := some "my_logo",
                      elements := [{ kind := .pushImage, asset := some "my logo" },
                        { kind := .pushImage, asset := some "my_logo" }] }, {}]
        assets := [{ name := "my logo", storage := .littleFs }, { name := "my_logo" },
          { name := "my_logo", storage := .littleFs }] }
    p.screens ≠ [] ∧ p.Resolved ∧ SameExports {} (Workspace.load p).project p := by
  intro p
  have hne : p.screens ≠ [] := List.cons_ne_nil _ _
  have hresolved : p.Resolved := by decide
  exact ⟨hne, hresolved, sameExports_load {} hne hresolved⟩

end PanelSketch
