import PanelSketch.Proofs.Editor.Session
import PanelSketch.Proofs.Project.Refusing
import PanelSketch.Proofs.Workspace.Agreement

/-!
# Refused Steps

An editor answers whether it has done what it was asked for. A refusal leaves no
trace: the screens and their lists, the store, the assets, what is active and
selected, both counters and the placement are what they were. This needs nothing of
the editor, so it also holds after edits that have exchanged the elements of a screen.
As long as no edit has, what is refused can be told from the project beforehand.

Rebuilding stands apart, since its answer is not about what it has done: it says
whether the placement had been right.

## Main definitions

* `Answer.refused`, `Reply.refused`: Answers that say that nothing was done.
* `Editor.refuses`: Whether an editor refuses a step.
* `Project.Declines`, `Project.RefusesStep`: Requests and steps that cannot be carried
  out.

## Theorems

* `Workspace.refused_perform_iff`, `Editor.refused_handle_iff`: What is refused.
* `Editor.step_eq_self`: A refusal leaves no trace.
* `Editor.refused_session`: Both together, for any session.
-/

namespace PanelSketch

/-- Whether an answer says that nothing was done. -/
def Answer.refused : Answer → Bool
  | .done carriedOut => !carriedOut
  | .element element? => element?.isNone
  | .nothing | .screen _ | .asset _ => false

/-- Whether a reply says that nothing was done. -/
def Reply.refused : Reply → Bool
  | .done carriedOut => !carriedOut
  | .element element? => element?.isNone
  | .unknownKind _ => true
  | .screen _ | .stored _ | .replaced _ => false

namespace Project

/-- What keeps a request from being carried out. A request is an operation whose kind or
    template may turn out to be unknown. -/
def Declines (p : Project) : Request → Prop
  | .applyTemplate screen template =>
    screen ∉ p.screenIds ∨ ∀ named, Template.parse? template ≠ .ok named
  | .deleteScreen id => p.Refuses (.removeScreen id)
  | .selectScreen id | .moveScreen id _ | .setBackground id _ _ | .patchScreen id _ =>
    id ∉ p.screenIds
  | .addElement screen kind _ => Primitive.parse? kind = none ∨ screen ∉ p.screenIds
  | .deleteElement id | .patchElement id _ => id ∉ p.elementIds
  | .moveElement screen id target => p.Refuses (.reorderElement screen id target)
  | .moveElementTo id screen => p.Refuses (.moveElement id screen)
  | .deleteAsset name => p.Refuses (.removeAsset name)
  | .addScreen _ _ | .addAsset _ | .replaceProject _ => False

/-- What keeps a step from being carried out. -/
def RefusesStep (p : Project) : Editor.Step → Prop
  | .operation operation => p.Refuses operation
  | .request request => p.Declines request

end Project

namespace Workspace

variable {p : Project}

/-- What scanning refuses, the workspace refuses. -/
theorem refused_report_iff {outcome : Bool × Workspace} {result : Option Project} {c : Prop}
    (heq : outcome = scanned p result) (hc : result = none ↔ c) :
    (report outcome).1.refused = true ↔ c := by
  rw [← hc, heq]
  cases result with
  | none => simp [report, scanned, Answer.refused]
  | some q => simp [report, scanned, Answer.refused]

/-- An edit is refused by looking at the id alone, whatever it would change. -/
theorem editScreen_fst (h : p.WellFormed) (id : ScreenId) (edit : ScreenRecord → ScreenRecord) :
    ((ofProject p).editScreen id edit).1 = decide (id ∈ p.screenIds) := by
  by_cases hid : id ∈ p.screenIds
  · rcases List.mem_iff_getElem?.mp hid with ⟨k, hk⟩
    rw [editScreen, (position?_ofProject h.screens.nodup).mpr hk, decide_eq_true hid]
    rfl
  · rw [editScreen, position?_eq_none hid, decide_eq_false hid]
    rfl

theorem refused_perform_iff (h : p.WellFormed) (operation : Operation) :
    ((ofProject p).perform operation).1.refused = true ↔ p.Refuses operation := by
  cases operation with
  | addScreen name? => simp [perform, Answer.refused, Project.Refuses]
  | removeScreen id =>
      exact refused_report_iff (removeScreen_ofProject h id) Project.removeScreen_eq_none
  | selectScreen id =>
      exact refused_report_iff (selectScreen_ofProject p id) Project.selectScreen_eq_none
  | reorderScreen id target =>
      exact refused_report_iff (reorderScreen_ofProject h id target) Project.reorderScreen_eq_none
  | editScreen id edit =>
      simp [perform, report, Answer.refused, Project.Refuses, editScreen_fst h]
  | addElement screen kind asset =>
      rw [← Project.addElement_eq_none, perform, addElement_ofProject h]
      rcases p.addElement screen kind asset with _ | ⟨e, q⟩
      · simp [Answer.refused]
      · simp [Answer.refused]
  | removeElement id =>
      exact refused_report_iff (removeElement_ofProject h id) Project.removeElement_eq_none
  | moveElement id target =>
      exact refused_report_iff (moveElement_ofProject h id target) (Project.moveElement_eq_none h)
  | reorderElement screen id target =>
      exact refused_report_iff (reorderElement_ofProject h screen id target)
        (Project.reorderElement_eq_none h)
  | editElement id edit =>
      exact refused_report_iff (editElement_ofProject h id edit) Project.editElement_eq_none
  | addAsset asset => simp [perform, Answer.refused, Project.Refuses]
  | removeAsset name =>
      exact refused_report_iff (removeAsset_ofProject p name) Project.removeAsset_eq_none
  | rebuild =>
      -- The placement is the one described, so rebuilding finds nothing to do.
      have hplaced := placement_ofProject p
      simp [perform, Answer.refused, Project.Refuses, ← hplaced]
  | applyTemplate screen template => simp [perform, Answer.refused, Project.Refuses]

/-- Reporting an outcome does not touch the workspace. -/
theorem Decides.report_eq_self {w : Workspace} {outcome : Bool × Workspace}
    {leaves : Workspace → Prop} (h : w.Decides outcome leaves)
    (hrefused : (report outcome).1.refused = true) : (report outcome).2 = w :=
  h.eq_self ((Bool.not_eq_true' outcome.1).mp hrefused)

/-- An operation that is refused leaves the workspace as it was. -/
theorem perform_eq_self {w : Workspace} {operation : Operation} (hne : operation ≠ .rebuild)
    (h : (w.perform operation).1.refused = true) : (w.perform operation).2 = w := by
  cases operation with
  | addScreen name? => exact absurd h (by simp [perform, Answer.refused])
  | removeScreen id => exact (w.decides_removeScreen id).report_eq_self h
  | selectScreen id => exact (w.decides_selectScreen id).report_eq_self h
  | reorderScreen id target => exact (w.decides_reorderScreen id target).report_eq_self h
  | editScreen id edit => exact (w.decides_editScreen id edit).report_eq_self h
  | addElement screen kind asset =>
      rcases w.addElement_cases screen kind asset with hadd | ⟨_, _, _, _, _, _, hadd⟩
      · exact congrArg Prod.snd hadd
      · rw [perform, hadd] at h
        exact absurd h (by simp [Answer.refused])
  | removeElement id => exact (w.decides_removeElement id).report_eq_self h
  | moveElement id target => exact (w.decides_moveElement id target).report_eq_self h
  | reorderElement screen id target =>
      exact (w.decides_reorderElement screen id target).report_eq_self h
  | editElement id edit => exact (w.decides_editElement id edit).report_eq_self h
  | addAsset asset => exact absurd h (by simp [perform, Answer.refused])
  | removeAsset name => exact (w.decides_removeAsset name).report_eq_self h
  | rebuild => exact absurd rfl hne
  | applyTemplate screen template => exact absurd h (by simp [perform, Answer.refused])

end Workspace

namespace Editor

/-- Whether an editor answers that it has not done what a step asks for. -/
def refuses (editor : Editor) : Step → Bool
  | .operation operation => (editor.workspace.perform operation).1.refused
  | .request request => (editor.handle request).1.refused

variable {p : Project}

/-- What scanning refuses, the editor refuses. -/
theorem refused_report_iff {editor : Editor} {outcome : Bool × Workspace} {result : Option Project}
    {c : Prop} (heq : outcome = Workspace.scanned p result) (hc : result = none ↔ c) :
    (editor.report outcome).1.refused = true ↔ c := by
  rw [← hc, heq]
  cases result with
  | none => simp [report, Workspace.scanned, Reply.refused]
  | some q => simp [report, Workspace.scanned, Reply.refused]

theorem refused_seed_iff (h : p.WellFormed) {screen : ScreenId} {template : String} :
    (seed (Workspace.ofProject p) screen template).1 = false
      ↔ screen ∉ p.screenIds ∨ ∀ named, Template.parse? template ≠ .ok named := by
  have hfound : ((Workspace.ofProject p).screen? screen).isSome ↔ screen ∈ p.screenIds := by
    rw [Workspace.screen?_ofProject h, Option.isSome_map, Option.isSome_iff_ne_none, ne_eq,
      Project.screen?_eq_none, not_not]
  constructor
  · intro hrefused
    by_contra hdone
    simp only [not_or, not_not, not_forall] at hdone
    rcases hdone with ⟨hscreen, named, hnamed⟩
    rw [seed_named (hfound.mpr hscreen) hnamed] at hrefused
    exact Bool.noConfusion hrefused
  · intro hmissing
    rcases decides_seed (Workspace.ofProject p) screen template with
      hseed | ⟨_, ⟨named, hscreen, hnamed, _⟩, _⟩
    · rw [hseed]
    · rcases hmissing with hmissing | hmissing
      · exact absurd (hfound.mp hscreen) hmissing
      · exact absurd hnamed (hmissing named)

theorem refused_handle_iff (h : p.WellFormed) (settings : Settings) (request : Request) :
    (handle ⟨Workspace.ofProject p, settings⟩ request).1.refused = true
      ↔ p.Declines request := by
  cases request with
  | addScreen name? template? => simp [handle, Reply.refused, Project.Declines]
  | applyTemplate screen template =>
      rw [Project.Declines, ← refused_seed_iff h]
      exact iff_of_eq (Bool.not_eq_true' _)
  | deleteScreen id =>
      exact refused_report_iff (Workspace.removeScreen_ofProject h id) Project.removeScreen_eq_none
  | selectScreen id =>
      exact refused_report_iff (Workspace.selectScreen_ofProject p id) Project.selectScreen_eq_none
  | moveScreen id target =>
      exact refused_report_iff (Workspace.reorderScreen_ofProject h id target)
        Project.reorderScreen_eq_none
  | setBackground screen asset? picture? =>
      simp [handle, report, Reply.refused, Project.Declines, Workspace.editScreen_fst h]
  | patchScreen id patch =>
      simp [handle, report, Reply.refused, Project.Declines, Workspace.editScreen_fst h]
  | addElement screen kind asset? =>
      -- The kind is parsed before the screen is looked up.
      rw [handle, Project.Declines]
      rcases Primitive.parse? kind with _ | named
      · simp [Reply.refused]
      · have hadd := Project.addElement_eq_none (p := p) screen named asset?
        rw [Project.Refuses] at hadd
        simp only [Workspace.addElement_ofProject h, reduceCtorEq, false_or, ← hadd]
        rcases p.addElement screen named asset? with _ | ⟨e, q⟩
        · simp [Reply.refused]
        · simp [Reply.refused]
  | deleteElement id =>
      exact refused_report_iff (Workspace.removeElement_ofProject h id)
        Project.removeElement_eq_none
  | patchElement id patch =>
      exact refused_report_iff (Workspace.editElement_ofProject h id (Element.patch patch))
        Project.editElement_eq_none
  | moveElement screen id target =>
      exact refused_report_iff (Workspace.reorderElement_ofProject h screen id target)
        (Project.reorderElement_eq_none h)
  | moveElementTo id screen =>
      exact refused_report_iff (Workspace.moveElement_ofProject h id screen)
        (Project.moveElement_eq_none h)
  | addAsset asset => simp [handle, Reply.refused, Project.Declines]
  | deleteAsset name =>
      exact refused_report_iff (Workspace.removeAsset_ofProject p name) Project.removeAsset_eq_none
  | replaceProject q => simp [handle, Reply.refused, Project.Declines]

theorem report_eq_self {editor : Editor} {outcome : Bool × Workspace} {leaves : Workspace → Prop}
    (h : editor.workspace.Decides outcome leaves)
    (hrefused : (editor.report outcome).1.refused = true) : (editor.report outcome).2 = editor := by
  rw [report, h.eq_self ((Bool.not_eq_true' outcome.1).mp hrefused)]

/-- A request that is refused leaves the editor as it was. -/
theorem handle_eq_self {editor : Editor} {request : Request}
    (h : (editor.handle request).1.refused = true) : (editor.handle request).2 = editor := by
  cases request with
  | addScreen name? template? => exact absurd h (by simp [handle, Reply.refused])
  | applyTemplate screen template =>
      exact report_eq_self (decides_seed editor.workspace screen template) h
  | deleteScreen id => exact report_eq_self (editor.workspace.decides_removeScreen id) h
  | selectScreen id => exact report_eq_self (editor.workspace.decides_selectScreen id) h
  | moveScreen id target => exact report_eq_self (editor.workspace.decides_reorderScreen id target) h
  | setBackground screen asset? picture? =>
      exact report_eq_self (editor.workspace.decides_editScreen screen _) h
  | patchScreen id patch => exact report_eq_self (editor.workspace.decides_editScreen id _) h
  | addElement screen kind asset? =>
      rcases hkind : Primitive.parse? kind with _ | named
      · simp only [handle, hkind]
      · rcases editor.workspace.addElement_cases screen named asset? with
          hadd | ⟨_, _, _, _, _, _, hadd⟩
        · simp only [handle, hkind, hadd]
        · exact absurd h (by simp [handle, hkind, hadd, Reply.refused])
  | deleteElement id => exact report_eq_self (editor.workspace.decides_removeElement id) h
  | patchElement id patch => exact report_eq_self (editor.workspace.decides_editElement id _) h
  | moveElement screen id target =>
      exact report_eq_self (editor.workspace.decides_reorderElement screen id target) h
  | moveElementTo id screen =>
      exact report_eq_self (editor.workspace.decides_moveElement id screen) h
  | addAsset asset => exact absurd h (by simp [handle, Reply.refused])
  | deleteAsset name => exact report_eq_self (editor.workspace.decides_removeAsset name) h
  | replaceProject q => exact absurd h (by simp [handle, Reply.refused])

theorem Holds.refuses_iff {editor : Editor} (h : editor.Holds) (step : Step) :
    editor.refuses step = true ↔ editor.project.RefusesStep step := by
  rcases editor with ⟨w, settings⟩
  rcases h with ⟨p, hp, hw⟩
  rcases hw with rfl
  have hproject : Editor.project ⟨Workspace.ofProject p, settings⟩ = p :=
    Workspace.project_ofProject hp.elements.nodup
  rw [hproject]
  cases step with
  | operation operation => exact Workspace.refused_perform_iff hp operation
  | request request => exact refused_handle_iff hp settings request

/-- A step that is refused leaves the editor as it was. -/
theorem step_eq_self {editor : Editor} {step : Step} (hne : step ≠ .operation .rebuild)
    (h : editor.refuses step = true) : editor.step step = editor := by
  cases step with
  | operation operation =>
      have hother : operation ≠ .rebuild := fun heq => hne (congrArg Step.operation heq)
      rw [Editor.step, Workspace.perform_eq_self hother h]
  | request request => exact handle_eq_self h

/-- In every session that opens an editor on any project, a step that is refused leaves
    the editor as it was, down to the counters and the placement. If the steps before it
    keep the lists of the screens, it is refused exactly when the project says so. -/
theorem refused_session (settings : Settings) (p : Project) (steps : List Step) (step : Step) :
    let editor := (ofProject settings p).session steps
    (step ≠ .operation .rebuild → editor.refuses step = true → editor.step step = editor)
      ∧ ((∀ taken ∈ steps, taken.KeepsLists) →
        (editor.refuses step = true ↔ editor.project.RefusesStep step)) :=
  ⟨step_eq_self, fun hkeep => ((holds_ofProject settings p).session hkeep).refuses_iff step⟩

/-- A repeated element id is loaded under a new one, which is moved; moving it to the
    same screen again is refused. -/
theorem refused_session_moved_twice :
    let p : Project :=
      { screens := [{ id := "s", elements := [{ id := "e" }, { id := "e" }] }, { id := "t" }] }
    let steps : List Step := [.operation (.editScreen "s" fun r => { r with name := "Start" }),
      .request (.moveElementTo "el_1" "t")]
    let editor := (ofProject {} p).session steps
    let again : Step := .operation (.moveElement "el_1" "t")
    again ≠ .operation .rebuild ∧ (∀ step ∈ steps, step.KeepsLists)
      ∧ editor.refuses again = true ∧ editor.project.RefusesStep again
      ∧ editor.step again = editor := by
  intro p steps editor again
  have hkeep : ∀ step ∈ steps, step.KeepsLists :=
    List.forall_mem_cons.mpr ⟨fun _ => rfl, List.forall_mem_singleton.mpr trivial⟩
  have hrefused : editor.refuses again = true := by decide +kernel
  have hne : again ≠ .operation .rebuild := by simp [again]
  have h := refused_session {} p steps again
  exact ⟨hne, hkeep, hrefused, (h.2 hkeep).mp hrefused, h.1 hne hrefused⟩

end Editor

end PanelSketch
