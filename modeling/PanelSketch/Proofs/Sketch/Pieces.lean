import PanelSketch.Proofs.Project.Scanning
import PanelSketch.Sketch.Basic

/-!
# Sketches Piece by Piece

Which lines of a sketch depend on an asset can be read off the project. An image element
draws one line from its reference, and a screen draws its background from another. All
other lines are drawn from no reference, whatever the element says.

A piece is a run of lines that is drawn from one reference or from none, together with
the lines there would be without the reference. The sketch is the pieces one after the
other, so what happens to assets can be followed in the list of pieces: the pieces that
refer to some other name stay as they are.

## Main definitions

* `Piece`: Lines that are drawn together.
* `Piece.blank`: A piece without the lines that are drawn from a name.
* `Piece.forget`: A piece that no longer refers to a name.
* `Project.pieces`: The pieces of a sketch.

## Theorems

* `textLines_pieces`: A sketch is its pieces.
* `Project.blank_pieces`: Assets of other names draw the same pieces.
* `Project.forget_pieces`: Forgetting a name draws all its pieces without it.
-/

namespace PanelSketch

/-- Lines of a sketch that are drawn together. -/
structure Piece where
  /-- The name of the asset that the lines are drawn from. -/
  reference : Option String
  lines : List String
  /-- The lines that are drawn without a reference. -/
  fallback : List String
  deriving DecidableEq, Repr

namespace Piece

/-- Lines that are drawn from no reference. -/
def fixed (lines : List String) : Piece :=
  ⟨none, lines, lines⟩

/-- A piece without the lines that are drawn from a name. -/
def blank (n : String) (piece : Piece) : Piece :=
  if piece.reference = some n then { piece with lines := [] } else piece

/-- A piece that no longer refers to a name. -/
def forget (n : String) (piece : Piece) : Piece :=
  if piece.reference = some n then fixed piece.fallback else piece

theorem forget_fixed (n : String) (lines : List String) :
    (fixed lines).forget n = fixed lines := rfl

end Piece

/-- What is left to say of an image element without an asset. -/
def noAssetLine : String := "    // pushImage skipped: no asset"

/-- What an element is drawn with, behind the remark that names it. -/
def Element.drawnPiece (symbols : AssetSymbols) (cornerRadius : Nat) (e : Element) : Piece :=
  if e.kind = .pushImage then
    ⟨reference? e.asset, [(e.imageLine symbols).render], [noAssetLine]⟩
  else .fixed ((e.lines symbols cornerRadius).map Line.render)

/-- The remark that names an element, and what the element is drawn with. -/
def Element.pieces (symbols : AssetSymbols) (cornerRadius : Nat) (e : Element) : List Piece :=
  [.fixed [(Line.remark ("Element: " ++ e.name)).render], e.drawnPiece symbols cornerRadius]

/-- What the background of a screen is drawn with. -/
def Screen.backgroundPiece (symbols : AssetSymbols) (panel : Panel) (s : Screen) : Piece :=
  ⟨reference? s.backgroundAsset, (s.backgroundLines symbols panel).map Line.render,
    s.fillLines.map Line.render⟩

/-- The pieces of the routine of a screen. -/
def Screen.pieces (symbols : AssetSymbols) (panel : Panel) (name : String) (s : Screen) :
    List Piece :=
  .fixed ["void " ++ Routine.name name ++ "() \x7b"] :: s.backgroundPiece symbols panel
    :: (s.elements.flatMap fun e => e.pieces symbols panel.cornerRadius.toNat)
    ++ [.fixed ["\x7d", ""]]

/-- The pieces of the routines of screens. -/
def screenPieces (settings : Settings) (symbols : AssetSymbols) (screens : List Screen) :
    List Piece :=
  (List.zipWith (Screen.pieces symbols settings.panel) (Sketch.screenNames screens) screens).flatten

/-- The pieces of a sketch. -/
def Project.pieces (settings : Settings) (p : Project) : List Piece :=
  .fixed (Sketch.openingLines settings.files.header)
    :: screenPieces settings (AssetSymbols.ofAssets p.assets) p.screens
    ++ [.fixed (Sketch.closingLines settings.panel.rotation)]

/-! ### A sketch is its pieces -/

theorem Element.lines_pieces (symbols : AssetSymbols) (cornerRadius : Nat) (e : Element) :
    (e.pieces symbols cornerRadius).flatMap Piece.lines
      = (e.block symbols cornerRadius).map Line.render := by
  have hdrawn : (e.drawnPiece symbols cornerRadius).lines
      = (e.lines symbols cornerRadius).map Line.render := by
    unfold drawnPiece
    split
    · rename_i hkind
      rw [lines, hkind]
      rfl
    · rfl
  rw [pieces, List.flatMap_cons, List.flatMap_singleton, hdrawn]
  rfl

theorem Screen.lines_pieces (symbols : AssetSymbols) (panel : Panel) (name : String) (s : Screen) :
    (s.pieces symbols panel name).flatMap Piece.lines
      = Routine.textLines ⟨name, s.lines symbols panel⟩ := by
  have helements : (s.elements.flatMap fun e =>
      e.pieces symbols panel.cornerRadius.toNat).flatMap Piece.lines
        = (s.elements.flatMap fun e => e.block symbols panel.cornerRadius.toNat).map
          Line.render := by
    rw [List.flatMap_assoc, List.map_flatMap]
    exact List.flatMap_congr fun e _ => e.lines_pieces symbols _
  rw [pieces, List.flatMap_append, List.flatMap_cons, List.flatMap_cons, helements,
    Routine.textLines, Screen.lines, List.map_append]
  rfl

theorem lines_screenPieces (settings : Settings) (symbols : AssetSymbols)
    (screens : List Screen) : (screenPieces settings symbols screens).flatMap Piece.lines
      = (List.zipWith (fun name s => (⟨name, s.lines symbols settings.panel⟩ : Routine))
        (Sketch.screenNames screens) screens).flatMap Routine.textLines := by
  rw [screenPieces, List.flatMap_def, List.map_flatten, List.flatten_flatten, List.map_zipWith,
    List.map_zipWith, List.flatMap_def, List.map_zipWith]
  simp only [← List.flatMap_def, Screen.lines_pieces]

/-- A sketch is its pieces, one after the other. -/
theorem textLines_pieces (settings : Settings) (p : Project) :
    (Sketch.ofProject settings p).textLines = (p.pieces settings).flatMap Piece.lines := by
  rw [Project.pieces, List.flatMap_append, List.flatMap_cons, lines_screenPieces,
    List.flatMap_singleton]
  rfl

/-! ### Other names -/

section Names

variable {symbols symbols' : AssetSymbols} {n : String}

/-- The symbols of two lists of assets lead to the same assets, except from one name. -/
def AssetSymbols.AgreeExcept (symbols symbols' : AssetSymbols) (n : String) : Prop :=
  ∀ name, name ≠ n → symbols'.resolve? name = symbols.resolve? name

theorem Element.imageLine_congr (h : symbols.AgreeExcept symbols' n) {e : Element}
    (he : reference? e.asset ≠ some n) : e.imageLine symbols' = e.imageLine symbols := by
  unfold imageLine
  rcases hasset : reference? e.asset with _ | name
  · rfl
  · have hname : name ≠ n := fun hc => he (hasset.trans (congrArg some hc))
    simp only [h name hname]

theorem Screen.backgroundLines_congr (h : symbols.AgreeExcept symbols' n) (panel : Panel)
    {s : Screen} (hs : reference? s.backgroundAsset ≠ some n) :
    s.backgroundLines symbols' panel = s.backgroundLines symbols panel := by
  unfold backgroundLines
  rcases hasset : reference? s.backgroundAsset with _ | name
  · rfl
  · have hname : name ≠ n := fun hc => hs (hasset.trans (congrArg some hc))
    simp only [Option.bind_some, h name hname]

/-- Only an image element looks at the symbols. -/
theorem Element.lines_congr (symbols symbols' : AssetSymbols) (cornerRadius : Nat) {e : Element}
    (hkind : e.kind ≠ .pushImage) :
    e.lines symbols' cornerRadius = e.lines symbols cornerRadius := by
  unfold lines
  cases hk : e.kind <;> first | rfl | exact absurd hk hkind

/-! ### Pieces of changed projects -/

variable {f g : Piece → Piece}

/-- Two screens have the same pieces up to a change of pieces, when they have one
    background and their elements are drawn alike up to it. -/
theorem Screen.map_pieces (hfixed : ∀ lines, f (.fixed lines) = g (.fixed lines)) {panel : Panel}
    {s s' : Screen} {change : Element → Element} (helements : s'.elements = s.elements.map change)
    (hname : ∀ e, (change e).name = e.name)
    (hdrawn : ∀ e, f ((change e).drawnPiece symbols' panel.cornerRadius.toNat)
      = g (e.drawnPiece symbols panel.cornerRadius.toNat))
    (hback : f (s'.backgroundPiece symbols' panel) = g (s.backgroundPiece symbols panel))
    (name : String) :
    (s'.pieces symbols' panel name).map f = (s.pieces symbols panel name).map g := by
  have hpieces : (s'.elements.flatMap fun e => e.pieces symbols' panel.cornerRadius.toNat).map f
      = (s.elements.flatMap fun e => e.pieces symbols panel.cornerRadius.toNat).map g := by
    rw [helements, List.flatMap_map, List.map_flatMap, List.map_flatMap]
    refine List.flatMap_congr fun e _ => ?_
    simp only [Element.pieces, List.map_cons, List.map_nil, hfixed, hname, hdrawn]
  simp only [pieces, List.map_append, List.map_cons, List.map_nil, hfixed, hback, hpieces]

/-- The same for projects, when their screens have the same names. -/
theorem Project.map_pieces (settings : Settings)
    (hfixed : ∀ lines, f (.fixed lines) = g (.fixed lines)) {p p' : Project}
    {change : Screen → Screen} (hscreens : p'.screens = p.screens.map change)
    (hname : ∀ s, (change s).name = s.name)
    (hpieces : ∀ name s,
      ((change s).pieces (AssetSymbols.ofAssets p'.assets) settings.panel name).map f
        = (s.pieces (AssetSymbols.ofAssets p.assets) settings.panel name).map g) :
    (p'.pieces settings).map f = (p.pieces settings).map g := by
  have hnames : Sketch.screenNames (p.screens.map change) = Sketch.screenNames p.screens := by
    rw [Sketch.screenNames, List.map_map, Sketch.screenNames]
    exact congrArg _ (List.map_congr_left fun s _ => hname s)
  simp only [pieces, screenPieces, hscreens, hnames, List.map_append, List.map_cons, List.map_nil,
    List.map_flatten, List.map_zipWith, List.zipWith_map_right, hfixed, hpieces]

/-! ### Adding a name -/

theorem Element.blank_drawnPiece (h : symbols.AgreeExcept symbols' n) (cornerRadius : Nat)
    (e : Element) :
    (e.drawnPiece symbols' cornerRadius).blank n = (e.drawnPiece symbols cornerRadius).blank n := by
  unfold drawnPiece
  by_cases hkind : e.kind = .pushImage
  · rw [if_pos hkind, if_pos hkind, Piece.blank, Piece.blank]
    by_cases he : reference? e.asset = some n
    · rw [if_pos he, if_pos he]
    · rw [if_neg he, if_neg he, imageLine_congr h he]
  · rw [if_neg hkind, if_neg hkind, lines_congr symbols symbols' cornerRadius hkind]

theorem Screen.blank_backgroundPiece (h : symbols.AgreeExcept symbols' n) (panel : Panel)
    (s : Screen) :
    (s.backgroundPiece symbols' panel).blank n = (s.backgroundPiece symbols panel).blank n := by
  rw [backgroundPiece, Piece.blank, backgroundPiece, Piece.blank]
  by_cases hs : reference? s.backgroundAsset = some n
  · rw [if_pos hs, if_pos hs]
  · rw [if_neg hs, if_neg hs, backgroundLines_congr h panel hs]

/-- Assets of other names draw the same pieces. -/
theorem Project.blank_pieces (settings : Settings) {p p' : Project}
    (h : (AssetSymbols.ofAssets p.assets).AgreeExcept (AssetSymbols.ofAssets p'.assets) n)
    (hscreens : p'.screens = p.screens) :
    (p'.pieces settings).map (Piece.blank n) = (p.pieces settings).map (Piece.blank n) := by
  have hfixed (lines : List String) : (Piece.fixed lines).blank n = (Piece.fixed lines).blank n :=
    rfl
  refine map_pieces settings hfixed (hscreens.trans (List.map_id _).symm) (fun _ => rfl)
    fun name s => ?_
  exact Screen.map_pieces hfixed (List.map_id _).symm (fun _ => rfl)
    (fun e => e.blank_drawnPiece h _) (s.blank_backgroundPiece h settings.panel) name

/-! ### Forgetting a name -/

theorem Project.elements_forgetAsset (n : String) (s : Screen) :
    (forgetAsset n s).elements = s.elements.map (Workspace.forgetImage n) := by
  unfold forgetAsset
  split <;> rfl

/-- A screen that forgets a name refers to it nowhere. -/
theorem Project.unreferenced_forgetAsset (n : String) (s : Screen) :
    (forgetAsset n s).backgroundAsset ≠ some n
      ∧ ∀ e ∈ (forgetAsset n s).elements, e.asset ≠ some n := by
  have helement (e : Element) : (Workspace.forgetImage n e).asset ≠ some n := by
    unfold Workspace.forgetImage
    split
    · exact (Option.some_ne_none n).symm
    · assumption
  constructor
  · unfold forgetAsset
    split
    · exact (Option.some_ne_none n).symm
    · assumption
  · intro e he
    rw [elements_forgetAsset] at he
    rcases List.mem_map.mp he with ⟨d, _, rfl⟩
    exact helement d

theorem reference?_ne_of_ne {name? : Option String} (h : name? ≠ some n) :
    reference? name? ≠ some n := by
  intro hc
  rcases name? with _ | name
  · exact absurd hc (by simp [reference?])
  · rw [reference?, Option.filter_eq_some_iff] at hc
    exact h hc.1

theorem reference?_of_ne_empty (hn : n ≠ "") : reference? (some n) = some n := by
  rw [reference?, Option.filter_some, if_pos (decide_eq_true hn)]

theorem Element.lines_forgetImage (n : String) (cornerRadius : Nat) {e : Element}
    (hkind : e.kind ≠ .pushImage) :
    (Workspace.forgetImage n e).lines symbols cornerRadius = e.lines symbols cornerRadius := by
  unfold Workspace.forgetImage
  split
  · unfold lines
    cases hk : e.kind <;> first | rfl | exact absurd hk hkind
  · rfl

theorem Element.kind_forgetImage (n : String) (e : Element) :
    (Workspace.forgetImage n e).kind = e.kind := by
  unfold Workspace.forgetImage
  split <;> rfl

/-- An element that forgets a name is drawn without it. -/
theorem Element.forget_drawnPiece (h : symbols.AgreeExcept symbols' n) (hn : n ≠ "")
    (cornerRadius : Nat) (e : Element) :
    (Workspace.forgetImage n e).drawnPiece symbols' cornerRadius
      = (e.drawnPiece symbols cornerRadius).forget n := by
  by_cases hkind : e.kind = .pushImage
  · rw [drawnPiece, drawnPiece, kind_forgetImage, if_pos hkind, if_pos hkind, Piece.forget]
    by_cases hasset : e.asset = some n
    · have hreference : reference? e.asset = some n := hasset ▸ reference?_of_ne_empty hn
      rw [if_pos hreference, Workspace.forgetImage, if_pos hasset]
      rfl
    · have hreference := reference?_ne_of_ne hasset
      rw [if_neg hreference, Workspace.forgetImage, if_neg hasset, imageLine_congr h hreference]
  · rw [drawnPiece, drawnPiece, kind_forgetImage, if_neg hkind, if_neg hkind,
      lines_forgetImage n cornerRadius hkind, lines_congr symbols symbols' cornerRadius hkind,
      Piece.forget_fixed]

/-- A screen that forgets a name falls back to its colour or to nothing. -/
theorem Screen.forget_backgroundPiece (h : symbols.AgreeExcept symbols' n) (hn : n ≠ "")
    (panel : Panel) (s : Screen) :
    (Project.forgetAsset n s).backgroundPiece symbols' panel
      = (s.backgroundPiece symbols panel).forget n := by
  by_cases hasset : s.backgroundAsset = some n
  · have hreference : reference? s.backgroundAsset = some n := hasset ▸ reference?_of_ne_empty hn
    rw [Piece.forget, backgroundPiece, backgroundPiece, if_pos hreference, Project.forgetAsset,
      if_pos hasset]
    rfl
  · have hreference := reference?_ne_of_ne hasset
    rw [Piece.forget, backgroundPiece, backgroundPiece, if_neg hreference, Project.forgetAsset,
      if_neg hasset, ← backgroundLines_congr h panel hreference]
    rfl

/-- Forgetting a name draws all its pieces without it. -/
theorem Project.forget_pieces (settings : Settings) {p p' : Project}
    (h : (AssetSymbols.ofAssets p.assets).AgreeExcept (AssetSymbols.ofAssets p'.assets) n)
    (hn : n ≠ "") (hscreens : p'.screens = p.screens.map (forgetAsset n)) :
    p'.pieces settings = (p.pieces settings).map (Piece.forget n) := by
  have hfixed (lines : List String) : id (Piece.fixed lines) = (Piece.fixed lines).forget n :=
    (Piece.forget_fixed n lines).symm
  have hname (s : Screen) : (forgetAsset n s).name = s.name := by
    unfold forgetAsset
    split <;> rfl
  have himage (e : Element) : (Workspace.forgetImage n e).name = e.name := by
    unfold Workspace.forgetImage
    split <;> rfl
  rw [← List.map_id (p'.pieces settings)]
  refine map_pieces settings hfixed hscreens hname fun name s => ?_
  exact Screen.map_pieces hfixed (elements_forgetAsset n s) himage
    (fun e => e.forget_drawnPiece h hn _) (s.forget_backgroundPiece h hn settings.panel) name

end Names

end PanelSketch
