import PanelSketch.Editor.Patch
import PanelSketch.Settings.Basic
import PanelSketch.Sketch.Bundle
import PanelSketch.Workspace.Operation

/-!
# The Editor

An editor holds a workspace and the settings it is exported with. It takes
requests as they come from outside: kinds and templates as texts, changes as
patches. Each request is answered and leaves an editor behind.

Exports are made from the nested project, so they see exactly what a file would
hold.

## Main definitions

* `Editor`: A workspace and settings.
* `Request`, `Reply`: What can be asked of an editor, and what comes back.
* `Editor.handle`: One request.
* `Editor.sketch`, `Editor.header`, `Editor.bundle`: Exports.

## Theorems

* `Editor.handle_settings`: No request changes the settings.
-/

namespace PanelSketch

/-- A workspace and the settings it is exported with. -/
structure Editor where
  workspace : Workspace
  settings : Settings
  deriving DecidableEq

/-- Something to ask of an editor. -/
inductive Request where
  | addScreen (name? : Option String) (template? : Option String)
  | applyTemplate (screen : ScreenId) (template : String)
  | deleteScreen (id : ScreenId)
  | selectScreen (id : ScreenId)
  | moveScreen (id : ScreenId) (target : Nat)
  | setBackground (screen : ScreenId) (asset? : Option String) (picture? : Option String)
  | patchScreen (id : ScreenId) (patch : Patch)
  | addElement (screen : ScreenId) (kind : String) (asset? : Option String)
  | deleteElement (id : ElementId)
  | patchElement (id : ElementId) (patch : Patch)
  | moveElement (screen : ScreenId) (id : ElementId) (target : Nat)
  | moveElementTo (id : ElementId) (screen : ScreenId)
  | addAsset (asset : Asset)
  | deleteAsset (name : String)
  | replaceProject (project : Project)

/-- What an editor replies. -/
inductive Reply where
  /-- Whether anything was done. -/
  | done (carriedOut : Bool)
  | screen (screen : Screen)
  | element (element? : Option Element)
  /-- The text that names no primitive. -/
  | unknownKind (text : String)
  /-- The name that an asset is stored under. -/
  | stored (name : String)
  /-- The workspace that has been replaced. -/
  | replaced (workspace : Workspace)
  deriving DecidableEq

namespace Editor

/-- An editor of a project. -/
def ofProject (settings : Settings) (p : Project) : Editor :=
  ⟨Workspace.load p, settings⟩

/-- Reply whether a change has been carried out, and go on with the workspace that it
    has left. -/
def report (editor : Editor) (outcome : Bool × Workspace) : Reply × Editor :=
  (.done outcome.1, { editor with workspace := outcome.2 })

/-- Seed a screen from a named template; refused when the name is blank, or when the
    screen or the template does not exist. -/
def seed (w : Workspace) (screen : ScreenId) (template : String) : Bool × Workspace := Id.run do
  if (Text.trim template).isEmpty || (w.screen? screen).isNone then return (false, w)
  match Template.parse? template with
  | .ok template => return (true, template.apply w screen)
  | .error _ => return (false, w)

/-- Answer a request. -/
def handle (editor : Editor) : Request → Reply × Editor
  | .addScreen name? template? =>
    let (record, w) := editor.workspace.addScreen name?
    let w := template?.elim w fun template => (seed w record.id template).2
    (.screen ((w.snapshot? record.id).getD {}), { editor with workspace := w })
  | .applyTemplate screen template => editor.report (seed editor.workspace screen template)
  | .deleteScreen id => editor.report (editor.workspace.removeScreen id)
  | .selectScreen id => editor.report (editor.workspace.selectScreen id)
  | .moveScreen id target => editor.report (editor.workspace.reorderScreen id target)
  | .setBackground screen asset? picture? =>
    editor.report (editor.workspace.editScreen screen fun s =>
      { s with backgroundAsset := asset?, background := picture? })
  | .patchScreen id patch =>
    editor.report (editor.workspace.editScreen id fun s =>
      { s with toScreenInfo := s.toScreenInfo.patch patch })
  | .addElement screen kind asset? =>
    match Primitive.parse? kind with
    | none => (.unknownKind kind, editor)
    | some kind =>
      let (element?, w) := editor.workspace.addElement screen kind asset?
      (.element element?, { editor with workspace := w })
  | .deleteElement id => editor.report (editor.workspace.removeElement id)
  | .patchElement id patch => editor.report (editor.workspace.editElement id (Element.patch patch))
  | .moveElement screen id target =>
    editor.report (editor.workspace.reorderElement screen id target)
  | .moveElementTo id screen => editor.report (editor.workspace.moveElement id screen)
  | .addAsset asset =>
    let (asset, w) := editor.workspace.addAsset asset
    (.stored asset.name, { editor with workspace := w })
  | .deleteAsset name => editor.report (editor.workspace.removeAsset name)
  | .replaceProject p =>
    (.replaced editor.workspace, { editor with workspace := Workspace.load p })

/-- Handle requests in order and forget the replies. -/
def run (editor : Editor) (requests : List Request) : Editor :=
  requests.foldl (fun editor request => (editor.handle request).2) editor

/-- The nested project. -/
def project (editor : Editor) : Project :=
  editor.workspace.project

/-- The sketch of the project. -/
def sketch (editor : Editor) : Sketch :=
  Sketch.ofProject editor.settings editor.project

/-- The header of the project. -/
def header (editor : Editor) : Header :=
  Header.ofProject editor.settings editor.project

/-- The bundle of the project, or the name that two entries would share. -/
def bundle (editor : Editor) : Except String Bundle :=
  Bundle.ofProject editor.settings editor.project

theorem handle_settings (editor : Editor) (request : Request) :
    (editor.handle request).2.settings = editor.settings := by
  cases request with
  | applyTemplate screen template => rw [handle, report]
  | addElement screen kind asset? =>
      rw [handle]
      split
      · rfl
      · rfl
  | _ => rfl

end Editor

end PanelSketch
