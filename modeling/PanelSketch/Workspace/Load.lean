import PanelSketch.Workspace.Basic

/-!
# Loading

A file may hold anything, and a workspace relies on a good deal: at least one
screen, ids that are not empty and do not repeat, asset names that are
identifiers and do not repeat either. Loading repairs what is wrong and leaves
everything else as it is.

Ids are kept by the first screen or element that carries them, in reading
order. A repeated or empty id is replaced by a new one, which is kept clear of
every id in the file, also of those that have not been read yet.

Asset names are made into identifiers and kept apart. References follow the
first asset that carried the name they use. The renaming is applied all at
once: a reference is looked up under its old name only, so the new name of one
asset may be the old name of another.

## Main definitions

* `Renaming`: Assets under their new names, and where references go.
* `Loading`: What has been loaded so far.
* `Workspace.load`: The workspace of a project.
-/

namespace PanelSketch

/-- Assets under their new names, the old names seen so far, and the new name of
    each old name whose first carrier was renamed. -/
structure Renaming where
  assets : List Asset := []
  seen : List String := []
  renamed : List (String × String) := []
  deriving DecidableEq, Repr

namespace Renaming

/-- Name one more asset. -/
def add (r : Renaming) (asset : Asset) : Renaming :=
  let name := Text.freshName (Text.identifier asset.name "asset") (r.assets.map (·.name))
  { assets := r.assets ++ [{ asset with name }]
    seen := asset.name :: r.seen
    renamed :=
      -- A reference means the first asset of a name, so only that one is followed.
      if name ≠ asset.name ∧ asset.name ∉ r.seen then (asset.name, name) :: r.renamed
      else r.renamed }

/-- Name a list of assets. -/
def ofAssets (assets : List Asset) : Renaming :=
  assets.foldl add {}

/-- A reference after the renaming. -/
def follow (r : Renaming) (reference : Option String) : Option String :=
  reference.map fun name => (r.renamed.lookup name).getD name

end Renaming

/-- What has been loaded so far: the counters, the records in order, and the
    elements. -/
structure Loading where
  numbering : Numbering
  screens : List ScreenRecord := []
  elements : Std.ExtTreeMap ElementId Element := ∅

namespace Loading

/-- The id that an element is loaded under, and the counters after it. -/
def elementId (known : List ElementId) (l : Loading) (id : ElementId) : ElementId × Numbering :=
  -- New ids keep clear of those still to come, which may then stay as they are.
  if id.isEmpty ∨ id ∈ l.elements then l.numbering.issueElement (known ++ l.elements.keys)
  else (id, l.numbering)

/-- Load one more element; also returns its id. -/
def addElement (known : List ElementId) (r : Renaming) (l : Loading) (e : Element) :
    ElementId × Loading :=
  let (id, numbering) := l.elementId known e.id
  let elements := l.elements.insert id { e with id, asset := r.follow e.asset }
  (id, { l with numbering, elements })

/-- Load the elements of a screen; also returns their ids in order. -/
def addElements (known : List ElementId) (r : Renaming) (l : Loading) :
    List Element → List ElementId × Loading
  | [] => ([], l)
  | e :: es =>
    let (id, l) := l.addElement known r e
    let (ids, l) := l.addElements known r es
    (id :: ids, l)

/-- The id that a screen is loaded under, and the counters after it. -/
def screenId (known : List ScreenId) (l : Loading) (id : ScreenId) : ScreenId × Numbering :=
  let placed := l.screens.map (·.id)
  if id.isEmpty ∨ id ∈ placed then l.numbering.issueScreen (known ++ placed)
  else (id, l.numbering)

/-- Load one more screen. -/
def addScreen (knownScreens : List ScreenId) (knownElements : List ElementId) (r : Renaming)
    (l : Loading) (s : Screen) : Loading :=
  let (id, numbering) := l.screenId knownScreens s.id
  let (elementIds, l) := { l with numbering }.addElements knownElements r s.elements
  let info := { s.info with id, backgroundAsset := r.follow s.backgroundAsset }
  { l with screens := l.screens ++ [{ toScreenInfo := info, elementIds }] }

/-- A first screen when there is none. -/
def ensureScreen (l : Loading) : Loading :=
  if l.screens.isEmpty then
    let (id, numbering) := l.numbering.issueScreen []
    { l with numbering, screens := [{ id, name := "Home" }] }
  else l

end Loading

/-- The counters after all ids of a project have been seen. -/
def Project.numbering (p : Project) : Numbering :=
  p.screens.foldl
    (fun n s => s.elements.foldl (fun n e => n.observeElement e.id) (n.observeScreen s.id))
    (Numbering.start p.elementSeq p.screenSeq)

/-- The workspace of a project. -/
def Workspace.load (p : Project) : Workspace :=
  let r := Renaming.ofAssets p.assets
  let knownScreens := p.screens.map (·.id)
  let knownElements := p.elements.map (·.id)
  let l := (p.screens.foldl (Loading.addScreen knownScreens knownElements r)
    { numbering := p.numbering }).ensureScreen
  let ids := l.screens.map (·.id)
  -- Rebuilding replaces the empty placement.
  Workspace.rebuild
    { screens := l.screens
      elements := l.elements
      assets := r.assets
      active := if p.active ∈ ids then p.active else ids.headD p.active
      selected := p.selected.filter (· ∈ l.elements)
      numbering := l.numbering
      placement := ⟨∅, ∅⟩ }

end PanelSketch
