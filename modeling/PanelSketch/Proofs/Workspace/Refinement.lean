import PanelSketch.Proofs.Project.Editing
import PanelSketch.Proofs.Workspace.AssetScans
import PanelSketch.Proofs.Workspace.ElementScans
import PanelSketch.Proofs.Workspace.ScreenScans

/-!
# Operations on a Workspace Are Scans

Performing an operation on the workspace that holds a well-formed project gives
the answer that scanning the project gives, and the workspace that holds the
project after the scan. So the store and the placement are a way of being fast
and nothing else: whatever is reached by editing is again the workspace that
holds some project, with no entry of a map left behind or forgotten.

What one operation does has been shown for each. A template is several of them,
each on a project that the one before has left well-formed, and so is a run.

## Main definitions

* `Operation.KeepsLists`: Operations that leave it to the workspace which elements
  a screen has.

## Theorems

* `Workspace.apply_ofProject`: Templates.
* `Workspace.perform_ofProject`: Any operation, with its answer.
* `Workspace.run_ofProject`: Any run.
-/

namespace PanelSketch

/-- Whether an operation leaves to the workspace which elements a screen has. The
    only one that might not is an edit of a screen, which is handed the whole
    record. -/
def Operation.KeepsLists : Operation → Prop
  | .editScreen _ edit => ∀ r, (edit r).elementIds = r.elementIds
  | _ => True

namespace Workspace

variable {p : Project}

theorem addStyled_ofProject (h : p.WellFormed) (screen : ScreenId) (styling : Styling) :
    Template.addStyled screen (ofProject p) styling = ofProject (p.addStyled screen styling) := by
  unfold Template.addStyled Project.addStyled
  rw [addElement_ofProject h]
  rcases hadd : p.addElement screen styling.kind none with _ | ⟨e, q⟩
  · rfl
  · -- The second operation starts from a well-formed project as well.
    have hq : q.WellFormed := h.addElement hadd
    simp only [Option.map_some, Option.getD_some, editElement_ofProject hq, scanned]

theorem apply_ofProject (h : p.WellFormed) (screen : ScreenId) (template : Template) :
    template.apply (ofProject p) screen = ofProject (p.seed screen template) := by
  have hstyled : ∀ (stylings : List Styling) (q : Project), q.WellFormed →
      stylings.foldl (Template.addStyled screen) (ofProject q)
        = ofProject (stylings.foldl (Project.addStyled screen) q) := by
    intro stylings
    induction stylings with
    | nil => exact fun q _ => rfl
    | cons styling stylings ih =>
        intro q hq
        rw [List.foldl_cons, List.foldl_cons, addStyled_ofProject hq]
        exact ih _ (hq.addStyled screen styling)
  have hscreens : ∀ (names : List String) (q : Project),
      names.foldl (fun w name => (w.addScreen (some name)).2) (ofProject q)
        = ofProject (names.foldl (fun q name => (q.addScreen (some name)).2) q) := by
    intro names
    induction names with
    | nil => exact fun q => rfl
    | cons name names ih =>
        intro q
        rw [List.foldl_cons, List.foldl_cons, addScreen_ofProject]
        exact ih _
  rw [Template.apply, Project.seed]
  simp only [hstyled _ _ h, hscreens]

/-- The answer and the workspace after an operation that may be refused. -/
theorem report_scanned {outcome : Bool × Workspace} {result : Option Project}
    (h : outcome = scanned p result) :
    report outcome = ((p.orStay result).1, ofProject (p.orStay result).2) := by
  rw [h]
  rfl

/-- An operation does to the workspace of a project what scanning does to the
    project, and gives the same answer. -/
theorem perform_ofProject (h : p.WellFormed) {operation : Operation}
    (hkeep : operation.KeepsLists) : (ofProject p).perform operation
      = ((p.perform operation).1, ofProject (p.perform operation).2) := by
  cases operation with
  | addScreen name? => simp only [perform, Project.perform, addScreen_ofProject]
  | removeScreen id => exact report_scanned (removeScreen_ofProject h id)
  | selectScreen id => exact report_scanned (selectScreen_ofProject p id)
  | reorderScreen id target => exact report_scanned (reorderScreen_ofProject h id target)
  | editScreen id edit => exact report_scanned (editScreen_ofProject h id hkeep)
  | addElement screen kind asset =>
      rw [perform, addElement_ofProject h, Project.perform]
      rcases p.addElement screen kind asset with _ | ⟨e, q⟩
      · rfl
      · rfl
  | removeElement id => exact report_scanned (removeElement_ofProject h id)
  | moveElement id target => exact report_scanned (moveElement_ofProject h id target)
  | reorderElement screen id target =>
      exact report_scanned (reorderElement_ofProject h screen id target)
  | editElement id edit => exact report_scanned (editElement_ofProject h id edit)
  | addAsset asset => simp only [perform, Project.perform, addAsset_ofProject]
  | removeAsset name => exact report_scanned (removeAsset_ofProject p name)
  | rebuild =>
      -- The placement is the one described, so rebuilding finds nothing to do.
      have hplaced := placement_ofProject p
      simp only [perform, Project.perform, rebuild, ← hplaced, decide_true]
  | applyTemplate screen template =>
      simp only [perform, Project.perform, apply_ofProject h]

theorem run_ofProject (h : p.WellFormed) {operations : List Operation}
    (hkeep : ∀ operation ∈ operations, operation.KeepsLists) :
    (ofProject p).run operations = ofProject (p.run operations) := by
  induction operations generalizing p with
  | nil => rfl
  | cons operation operations ih =>
      rw [List.forall_mem_cons] at hkeep
      rw [run, List.foldl_cons, perform_ofProject h hkeep.1]
      exact ih (h.perform operation) hkeep.2

end Workspace

end PanelSketch
