import PanelSketch.Workspace.Template

/-!
# Operations on a Workspace

Everything that can be asked of a workspace as one type, so that a session is a
list of operations and its effect is a fold. Performing an operation gives an
answer and the workspace after it; an operation that is refused answers with
`false`, or with no element.

## Main definitions

* `Operation`, `Answer`: What can be asked, and what comes back.
* `Workspace.perform`: One operation.
* `Workspace.run`: A list of operations.

## Theorems

* `Workspace.run_append`: A session is run piece by piece.
-/

namespace PanelSketch

/-- Something to do to a workspace. -/
inductive Operation where
  | addScreen (name? : Option String)
  | removeScreen (id : ScreenId)
  | selectScreen (id : ScreenId)
  | reorderScreen (id : ScreenId) (target : Nat)
  | editScreen (id : ScreenId) (edit : ScreenRecord → ScreenRecord)
  | addElement (screen : ScreenId) (kind : Primitive) (asset : Option String)
  | removeElement (id : ElementId)
  | moveElement (id : ElementId) (target : ScreenId)
  | reorderElement (screen : ScreenId) (id : ElementId) (target : Nat)
  | editElement (id : ElementId) (edit : Element → Element)
  | addAsset (asset : Asset)
  | removeAsset (name : String)
  | rebuild
  | applyTemplate (screen : ScreenId) (template : Template)

/-- What an operation answers. -/
inductive Answer where
  | nothing
  /-- Whether anything was done. -/
  | done (carriedOut : Bool)
  | screen (record : ScreenRecord)
  | element (element? : Option Element)
  | asset (asset : Asset)
  deriving DecidableEq, Repr

namespace Workspace

/-- Answer whether an operation has been carried out. -/
def report (outcome : Bool × Workspace) : Answer × Workspace :=
  (.done outcome.1, outcome.2)

/-- Perform an operation. Rebuilding answers whether the placement had been
    right. -/
def perform (w : Workspace) : Operation → Answer × Workspace
  | .addScreen name? =>
    let (record, w) := w.addScreen name?
    (.screen record, w)
  | .removeScreen id => report (w.removeScreen id)
  | .selectScreen id => report (w.selectScreen id)
  | .reorderScreen id target => report (w.reorderScreen id target)
  | .editScreen id edit => report (w.editScreen id edit)
  | .addElement screen kind asset =>
    let (element?, w) := w.addElement screen kind asset
    (.element element?, w)
  | .removeElement id => report (w.removeElement id)
  | .moveElement id target => report (w.moveElement id target)
  | .reorderElement screen id target => report (w.reorderElement screen id target)
  | .editElement id edit => report (w.editElement id edit)
  | .addAsset asset =>
    let (asset, w) := w.addAsset asset
    (.asset asset, w)
  | .removeAsset name => report (w.removeAsset name)
  | .rebuild => (.done (w.placement = w.describe), w.rebuild)
  | .applyTemplate screen template => (.nothing, template.apply w screen)

/-- Perform operations in order and forget the answers. -/
def run (w : Workspace) (operations : List Operation) : Workspace :=
  operations.foldl (fun w operation => (w.perform operation).2) w

theorem run_append (w : Workspace) (first second : List Operation) :
    w.run (first ++ second) = (w.run first).run second :=
  List.foldl_append

end Workspace

end PanelSketch
