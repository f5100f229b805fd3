import PanelSketch.Proofs.Editor.Session
import PanelSketch.Proofs.Project.Refusing
import PanelSketch.Proofs.Sketch.NamedAssets
import PanelSketch.Proofs.Sketch.Pieces

/-!
# Assets Do Not Disturb Each Other

An asset is added to a project or removed from it, and the exports follow. What the
others are exported as stays the same, in the same order. That is no property of exports:
of any list of names, the symbols depend on all that come before. It is one of projects
that are being edited, because loading and adding give every asset a name that an export
has no reason to change, and removing an asset leaves such names behind.

What is drawn depends on an asset only through references to its name. An asset that is
added can be found under a name that nothing was found under before; once it is removed,
nothing refers to it any more, and what was drawn from it is drawn without.

## Main definitions

* `Editor.AssetAdded`, `Editor.AssetDeleted`: What becomes of the exports.

## Theorems

* `Editor.assetAdded`, `Editor.assetDeleted`: The two requests on any project.
* `Editor.assets_undisturbed`: The same in every session.
-/

namespace PanelSketch

namespace Editor

/-- The symbols that an export gives. -/
def symbols (editor : Editor) : AssetSymbols :=
  AssetSymbols.ofAssets editor.project.assets

/-- The pieces of the sketch. -/
def pieces (editor : Editor) : List Piece :=
  editor.project.pieces editor.settings

/-- What adding an asset does to the exports: it comes last, and only what refers to its
    name is drawn otherwise. -/
structure AssetAdded (before after : Editor) (a : Asset) : Prop where
  assets : after.project.assets = before.project.assets ++ [a]
  symbols : after.symbols.entries = before.symbols.entries ++ [(a, a.name)]
  guardName : after.header.guardName = before.header.guardName
  arrays : after.header.arrays = before.header.arrays
    ++ if a.storage = .flash then [⟨a.name, a.width, a.height⟩] else []
  data : ∀ bundle bundle', before.bundle = .ok bundle → after.bundle = .ok bundle' →
    ∃ files skipped, Bundle.Sorts before.settings.files [(a, a.name)] files skipped
      ∧ bundle'.data = bundle.data ++ files ∧ bundle'.skipped = bundle.skipped ++ skipped
  sketch : before.sketch.textLines = before.pieces.flatMap Piece.lines
    ∧ after.sketch.textLines = after.pieces.flatMap Piece.lines
  pieces : after.pieces.map (Piece.blank a.name) = before.pieces.map (Piece.blank a.name)

/-- What deleting an asset does to the exports: what was made of it is gone, and what
    referred to its name is drawn without it. -/
structure AssetDeleted (before after : Editor) (n : String) : Prop where
  unreferenced : ∀ s ∈ after.project.screens,
    s.backgroundAsset ≠ some n ∧ ∀ e ∈ s.elements, e.asset ≠ some n
  assets : after.project.assets = before.project.assets.filter (·.name ≠ n)
  symbols : after.symbols.entries = before.symbols.entries.filter (·.1.name ≠ n)
  guardName : after.header.guardName = before.header.guardName
  arrays : after.header.arrays = before.header.arrays.filter (·.symbol ≠ n)
  data : ∀ bundle bundle', before.bundle = .ok bundle → after.bundle = .ok bundle' →
    bundle'.data
        = bundle.data.filter (·.name ≠ before.settings.files.dataDir ++ "/" ++ n ++ ".jpg")
      ∧ bundle'.skipped = bundle.skipped.filter (· ≠ n)
  sketch : before.sketch.textLines = before.pieces.flatMap Piece.lines
    ∧ after.sketch.textLines = after.pieces.flatMap Piece.lines
  pieces : after.pieces = before.pieces.map (Piece.forget n)

variable {p : Project}

theorem textLines_sketch (editor : Editor) :
    editor.sketch.textLines = editor.pieces.flatMap Piece.lines :=
  textLines_pieces editor.settings editor.project

/-- Adding an asset to a well-formed project. -/
theorem assetAdded (settings : Settings) (h : p.WellFormed) (x : Asset) :
    AssetAdded (holding settings p) (holding settings (p.addAsset x).2) (p.addAsset x).1 := by
  have hadded : (p.addAsset x).2.WellFormed := h.addAsset x
  have hentries : (AssetSymbols.ofAssets (p.addAsset x).2.assets).entries
      = (AssetSymbols.ofAssets p.assets).entries
        ++ [((p.addAsset x).1, (p.addAsset x).1.name)] := by
    rw [AssetSymbols.entries_wellNamed hadded.wellNamed,
      AssetSymbols.entries_wellNamed h.wellNamed]
    exact List.map_append
  refine { assets := ?_, symbols := ?_, guardName := rfl, arrays := ?_, data := ?_,
           sketch := ⟨textLines_sketch _, textLines_sketch _⟩, pieces := ?_ } <;>
    simp only [Editor.symbols, Editor.header, Editor.bundle, Editor.pieces,
      project_holding settings h, project_holding settings hadded]
  · rfl
  · exact hentries
  · rw [Header.arrays_append hentries]
    by_cases hstorage : (p.addAsset x).1.storage = .flash
    · rw [if_pos hstorage, List.filter_cons_of_pos (by simpa using hstorage)]
      rfl
    · rw [if_neg hstorage, List.filter_cons_of_neg (by simpa using hstorage)]
      rfl
  · exact fun _ _ => Bundle.data_append hentries
  · exact Project.blank_pieces settings
      (fun _ hname => AssetSymbols.resolve?_append hentries hname) rfl

/-- Deleting an asset of a well-formed project. -/
theorem assetDeleted (settings : Settings) (h : p.WellFormed) {n : String}
    (hn : n ∈ p.assetNames) {p' : Project} (hremove : p.removeAsset n = some p') :
    AssetDeleted (holding settings p) (holding settings p') n := by
  have hremoved : p'.WellFormed := h.removeAsset hremove
  simp only [Project.removeAsset, Option.bind_eq_bind, Option.bind_eq_some_iff, guard_eq_some,
    Option.pure_def, Option.some.injEq] at hremove
  rcases hremove with ⟨_, _, hp'⟩
  have hassets : p'.assets = p.assets.filter (·.name ≠ n) := by
    rw [← hp']
    exact eraseP_eq_filter h.assetNames_nodup n
  have hscreens : p'.screens = p.screens.map (Project.forgetAsset n) := by rw [← hp']
  have hnames := AssetSymbols.symbol_eq_name h.wellNamed
  have hentries : (AssetSymbols.ofAssets p'.assets).entries
      = (AssetSymbols.ofAssets p.assets).entries.filter (·.1.name ≠ n) := by
    rw [AssetSymbols.entries_wellNamed hremoved.wellNamed,
      AssetSymbols.entries_wellNamed h.wellNamed, List.filter_map, hassets]
    rfl
  have hne : n ≠ "" := h.wellNamed.ne_empty hn
  refine { unreferenced := ?_, assets := ?_, symbols := ?_, guardName := rfl, arrays := ?_,
           data := ?_, sketch := ⟨textLines_sketch _, textLines_sketch _⟩, pieces := ?_ } <;>
    simp only [Editor.symbols, Editor.header, Editor.bundle, Editor.pieces,
      project_holding settings h, project_holding settings hremoved]
  · rw [hscreens]
    intro s hs
    rcases List.mem_map.mp hs with ⟨t, _, rfl⟩
    exact Project.unreferenced_forgetAsset n t
  · exact hassets
  · exact hentries
  · exact Header.arrays_filter hnames hentries
  · exact fun _ _ => Bundle.data_filter hnames hentries
  · exact Project.forget_pieces settings
      (fun _ hname => AssetSymbols.resolve?_filter hentries hname) hne hscreens

/-- In every session symbols are names, and neither adding nor deleting an asset disturbs
    what the others are exported as. -/
theorem assets_undisturbed (settings : Settings) (p : Project) {steps : List Step}
    (hkeep : ∀ step ∈ steps, step.KeepsLists) :
    let editor := (ofProject settings p).session steps
    editor.symbols.entries = editor.project.assets.map (fun a => (a, a.name))
      ∧ (∀ x : Asset, ∃ name, name ∉ editor.project.assetNames
        ∧ (editor.handle (.addAsset x)).1 = .stored name
        ∧ AssetAdded editor (editor.handle (.addAsset x)).2 { x with name })
      ∧ ∀ n ∈ editor.project.assetNames, (editor.handle (.deleteAsset n)).1 = .done true
        ∧ AssetDeleted editor (editor.handle (.deleteAsset n)).2 n := by
  intro editor
  have hholds : editor.Holds := (holds_ofProject settings p).session hkeep
  rcases hholds.eq_holding with ⟨q, hq, heditor⟩
  rw [heditor, project_holding _ hq]
  refine ⟨?_, fun x => ?_, fun n hn => ?_⟩
  · rw [Editor.symbols, project_holding _ hq]
    exact AssetSymbols.entries_wellNamed hq.wellNamed
  · exact ⟨(q.addAsset x).1.name, Text.freshName_not_mem _ _, rfl, assetAdded _ hq x⟩
  · rcases hremove : q.removeAsset n with _ | q'
    · exact absurd hn (Project.removeAsset_eq_none.mp hremove)
    · have hhandle : (holding editor.settings q).handle (.deleteAsset n)
          = (.done true, holding editor.settings q') := by
        rw [handle, holding, Workspace.removeAsset_ofProject, hremove]
        rfl
      rw [hhandle]
      exact ⟨rfl, assetDeleted _ hq hn hremove⟩

/-- Three labels make one name, so the first asset is the only one without a number. When
    it goes, the others keep theirs. -/
theorem assets_undisturbed_clashing_labels :
    let p : Project :=
      { screens := [{ id := "s", backgroundAsset := some "Home", elements :=
          [{ id := "e", kind := .pushImage, asset := some "Home" }] }]
        assets := [{ name := "Home" }, { name := "Home!", storage := .littleFs }] }
    let steps : List Step := [.request (.addAsset { name := "Home?" })]
    let editor := (ofProject {} p).session steps
    (∀ step ∈ steps, step.KeepsLists) ∧ "Home" ∈ editor.project.assetNames
      ∧ AssetDeleted editor (editor.handle (.deleteAsset "Home")).2 "Home"
      ∧ (editor.handle (.deleteAsset "Home")).2.symbols.entries.map (·.2)
        = ["Home_1", "Home_2"] := by
  intro p steps editor
  have hkeep : ∀ step ∈ steps, step.KeepsLists := List.forall_mem_singleton.mpr trivial
  have hmem : "Home" ∈ editor.project.assetNames := by decide +kernel
  exact ⟨hkeep, hmem, ((assets_undisturbed {} p hkeep).2.2 "Home" hmem).2, by decide +kernel⟩

end Editor

end PanelSketch
