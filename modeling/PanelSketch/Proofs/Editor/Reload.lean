import PanelSketch.Proofs.Editor.Session

/-!
# Saving and Loading Again

What an editor shows as its project is all there is to its workspace: the
workspace that loading makes of it is the one that was saved, with the same
store, the same placement and the same counters, so nothing that happens
afterwards can depend on whether the project has been through a file.

The reason is that loading repairs, and that what has been edited needs no
repair. The projects that need none are exactly the well-formed ones.

## Theorems

* `Workspace.load_project_iff`: Which projects loading leaves alone.
* `Editor.Holds.load_project`: The workspace of an editor is the one loaded from its
  project.
* `Editor.reload`: Both together, for any session.
-/

namespace PanelSketch

/-- Loading leaves a project alone exactly when it is well-formed. -/
theorem Workspace.load_project_iff (p : Project) : (load p).project = p ↔ p.WellFormed := by
  have h := Project.wellFormed_repaired p
  rw [load_eq_ofProject, project_ofProject h.elements.nodup]
  constructor
  · intro heq
    rwa [heq] at h
  · exact Project.repaired_eq_self

namespace Editor

theorem Holds.load_project {editor : Editor} (h : editor.Holds) :
    Workspace.load editor.workspace.project = editor.workspace := by
  rcases h with ⟨p, hp, hw⟩
  rw [hw, Workspace.project_ofProject hp.elements.nodup, Workspace.load_eq_ofProject,
    Project.repaired_eq_self hp]

/-- The workspace of a session is the one loaded from its project, as long as no screen
    is handed another list of elements on the way. Only well-formed projects are left
    alone by loading, so every such session shows one. -/
theorem reload (p : Project) :
    (∀ (settings : Settings) (steps : List Step), (∀ step ∈ steps, step.KeepsLists) →
      Workspace.load ((ofProject settings p).session steps).workspace.project
        = ((ofProject settings p).session steps).workspace)
    ∧ ((Workspace.load p).project = p ↔ p.WellFormed) :=
  ⟨fun settings _ hkeep => ((holds_ofProject settings p).session hkeep).load_project,
    Workspace.load_project_iff p⟩

/-- A file without a screen, which gets one; its asset is renamed, and a screen is
    edited before it is saved. -/
theorem reload_no_screens :
    let p : Project := { screens := [], assets := [{ name := "a b" }, { name := "a_b" }] }
    let steps : List Step :=
      [.request (.addElement "screen_2" "pushImage" (some "a_b")),
        .operation (.editScreen "screen_2" fun r => { r with backgroundColor := none })]
    (∀ step ∈ steps, step.KeepsLists)
      ∧ Workspace.load ((ofProject {} p).session steps).workspace.project
        = ((ofProject {} p).session steps).workspace := by
  intro p steps
  have hkeep : ∀ step ∈ steps, step.KeepsLists :=
    List.forall_mem_cons.mpr ⟨trivial, List.forall_mem_singleton.mpr fun _ => rfl⟩
  exact ⟨hkeep, (reload p).1 {} steps hkeep⟩

end Editor

end PanelSketch
