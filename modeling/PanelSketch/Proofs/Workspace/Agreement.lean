import PanelSketch.Proofs.Workspace.Loading
import PanelSketch.Proofs.Workspace.Refinement

/-!
# A Workspace Cannot Be Told from a Project

Whoever can only perform operations, look at the answers and ask questions cannot
tell a workspace from the nested project that it shows: every operation answers
what it would answer if everything were done by going through lists, and
afterwards every question is answered alike.

The questions are those a workspace has a map for. They are what would give away
an id that one of the maps has forgotten or kept for too long.

## Main definitions

* `Workspace.answers`, `Project.answers`: The answers of operations in order.
* `Workspace.Agrees`: All questions are answered as the project answers them.

## Theorems

* `Workspace.agrees_ofProject`: A well-formed project and its workspace agree.
* `Workspace.answers_ofProject`: They give the same answers.
* `Workspace.run_load_agrees`: Both, for whatever is done to a loaded workspace.
-/

namespace PanelSketch

/-- What operations in order answer. -/
def Project.answers (p : Project) : List Operation → List Answer
  | [] => []
  | operation :: operations =>
    (p.perform operation).1 :: (p.perform operation).2.answers operations

namespace Workspace

/-- What operations in order answer. -/
def answers (w : Workspace) : List Operation → List Answer
  | [] => []
  | operation :: operations =>
    (w.perform operation).1 :: (w.perform operation).2.answers operations

/-- Every question about a workspace is answered as going through the lists of a
    project answers it. -/
structure Agrees (w : Workspace) (p : Project) : Prop where
  project : w.project = p
  screen? : ∀ id : ScreenId, w.screen? id = (p.screen? id).map Screen.record
  snapshot? : ∀ id : ScreenId, w.snapshot? id = p.screen? id
  element? : ∀ id : ElementId, w.element? id = p.element? id
  position? : ∀ id : ScreenId, w.placement.position? id = p.screenIds.idxOf? id
  hasScreen : ∀ id : ScreenId, w.placement.hasScreen id = decide (id ∈ p.screenIds)
  owner? : ∀ id : ElementId, w.placement.owner? id = (p.owner? id).map (·.id)
  hasElement : ∀ id : ElementId, w.placement.hasElement id = decide (id ∈ p.elementIds)

variable {p : Project}

theorem screen?_ofProject (h : p.WellFormed) (id : ScreenId) :
    (ofProject p).screen? id = (p.screen? id).map Screen.record := by
  rcases hs : p.screen? id with _ | s
  · rw [screen?, position?_eq_none (Project.screen?_eq_none.mp hs)]
    rfl
  · rcases exists_position h.screens.nodup hs with ⟨k, hpos, _, hget, _⟩
    rw [screen?, hpos, Option.bind_some, hget]
    rfl

theorem snapshot?_ofProject (h : p.WellFormed) (id : ScreenId) :
    (ofProject p).snapshot? id = p.screen? id := by
  rw [snapshot?, screen?_ofProject h, Option.map_map]
  rcases hs : p.screen? id with _ | s
  · rfl
  · exact congrArg some (assemble_record h.elements.nodup
      ((Project.screen?_eq_some h.screens.nodup).mp hs).1)

theorem element?_ofProject (h : p.WellFormed) (id : ElementId) :
    (ofProject p).element? id = p.element? id := by
  have hfind : (ofProject p).elements[id]? = p.element? id :=
    Option.ext fun e => by rw [getElem?_ofProject h.elements.nodup,
      Project.element?_eq_some h.elements.nodup]
  unfold element?
  split
  · rename_i hempty
    -- No element has the empty id, so a search for it finds none either.
    rw [String.isEmpty_iff.mp hempty, Project.element?_eq_none.mpr h.elements.empty_not_mem]
  · exact hfind

theorem position?_eq_idxOf? (h : p.WellFormed) (id : ScreenId) :
    (ofProject p).placement.position? id = p.screenIds.idxOf? id := by
  refine Option.ext fun k => ?_
  rw [position?_ofProject h.screens.nodup, List.idxOf?_eq_some_iff, List.getElem?_eq_some_iff]
  constructor
  · rintro ⟨hlt, heq⟩
    -- An earlier position would carry the same id.
    refine ⟨hlt, heq, fun j hj hc => ?_⟩
    have hjk := (h.screens.nodup.getElem_inj_iff).mp (hc.trans heq.symm)
    omega
  · rintro ⟨hlt, heq, _⟩
    exact ⟨hlt, heq⟩

theorem owner?_eq_map (h : p.WellFormed) (id : ElementId) :
    (ofProject p).placement.owner? id = (p.owner? id).map (·.id) := by
  by_cases hid : id ∈ p.elementIds
  · rcases exists_place h hid with ⟨s, _, _, hs, _, _, _, _, howner, _⟩
    rw [hs, howner, Option.map_some]
  · rw [owner?_eq_none hid, Project.owner?_eq_none.mpr hid, Option.map_none]

theorem hasElement_ofProject {id : ElementId} :
    (ofProject p).placement.hasElement id = true ↔ id ∈ p.elementIds := by
  rw [Placement.hasElement, ← Std.ExtTreeMap.mem_iff_contains, ofProject, mem_table, List.map_map,
    Project.elementIds_eq_located]
  rfl

theorem agrees_ofProject (h : p.WellFormed) : (ofProject p).Agrees p where
  project := project_ofProject h.elements.nodup
  screen? := screen?_ofProject h
  snapshot? := snapshot?_ofProject h
  element? := element?_ofProject h
  position? := position?_eq_idxOf? h
  hasScreen id := by rw [Bool.eq_iff_iff, hasScreen_ofProject, decide_eq_true_eq]
  owner? := owner?_eq_map h
  hasElement id := by rw [Bool.eq_iff_iff, hasElement_ofProject, decide_eq_true_eq]

/-- The workspace of a project answers what the project answers. -/
theorem answers_ofProject (h : p.WellFormed) {operations : List Operation}
    (hkeep : ∀ operation ∈ operations, operation.KeepsLists) :
    (ofProject p).answers operations = p.answers operations := by
  induction operations generalizing p with
  | nil => rfl
  | cons operation operations ih =>
      rw [List.forall_mem_cons] at hkeep
      rw [answers, Project.answers, perform_ofProject h hkeep.1]
      exact congrArg _ (ih (h.perform operation) hkeep.2)

/-- Going through the lists of the nested project gives the answers of a loaded
    workspace, and leaves a project that agrees with the workspace. -/
theorem run_load_agrees (p : Project) {operations : List Operation}
    (hkeep : ∀ operation ∈ operations, operation.KeepsLists) :
    (load p).answers operations = (load p).project.answers operations
      ∧ ((load p).run operations).Agrees ((load p).project.run operations) := by
  have h := Project.wellFormed_repaired p
  rw [load_eq_ofProject, project_ofProject h.elements.nodup, run_ofProject h hkeep]
  exact ⟨answers_ofProject h hkeep, agrees_ofProject (h.run operations)⟩

/-- A file with a repeated element id, edited by operations of which one is
    refused. -/
theorem run_load_agrees_repeated_ids :
    let p : Project :=
      { screens := [{ id := "s", elements := [{ id := "e" }, { id := "e" }] }, { id := "t" }] }
    let operations : List Operation :=
      [.editScreen "t" fun r => { r with name := "Menu" }, .moveElement "e" "t", .removeScreen "u"]
    (∀ operation ∈ operations, operation.KeepsLists)
      ∧ (load p).answers operations = (load p).project.answers operations
      ∧ ((load p).run operations).Agrees ((load p).project.run operations) := by
  intro p operations
  have hkeep : ∀ operation ∈ operations, operation.KeepsLists :=
    List.forall_mem_cons.mpr ⟨fun _ => rfl, List.forall_mem_cons.mpr
      ⟨trivial, List.forall_mem_singleton.mpr trivial⟩⟩
  exact ⟨hkeep, run_load_agrees p hkeep⟩

end Workspace

end PanelSketch
