import PanelSketch.Editor.Basic
import PanelSketch.Proofs.Workspace.Invariant
import PanelSketch.Proofs.Workspace.Loading
import PanelSketch.Proofs.Workspace.Outcomes
import PanelSketch.Proofs.Workspace.Refinement

/-!
# Sessions

A session opens an editor on any project and goes on with any number of steps,
each an operation on the workspace or a request to the editor. Requests are made
of operations: they parse a name first, look up whether there is a screen, or
load another project in place of the one there is.

Every workspace of a session is the workspace that holds some well-formed
project. Loading makes it so whatever the file holds, operations keep it so
because they are scans of that project, and a session is one step after the
other.

## Main definitions

* `Editor.Step`, `Editor.step`, `Editor.session`: Steps, one of them, and a list.
* `Editor.Step.KeepsLists`: Steps that leave it to the workspace which elements a
  screen has.
* `Editor.Holds`: The workspace of an editor holds a well-formed project.
* `Editor.holding`: The editor that holds a project.

## Theorems

* `Editor.decides_seed`, `Editor.seed_named`: What seeding by the name of a template
  comes to.
* `Editor.holds_ofProject`: An editor that has been opened holds a project.
* `Editor.Holds.handle`, `Editor.Holds.step`: So it does after a request, and
  after any step.
* `Editor.sound_session`: The workspace is sound in every session.
-/

namespace PanelSketch

namespace Editor

/-- Something that happens to an editor. -/
inductive Step where
  | operation (operation : Operation)
  | request (request : Request)

/-- An editor after a step. -/
def step (editor : Editor) : Step → Editor
  | .operation operation =>
    { editor with workspace := (editor.workspace.perform operation).2 }
  | .request request => (editor.handle request).2

/-- An editor after steps in order. -/
def session (editor : Editor) (steps : List Step) : Editor :=
  steps.foldl step editor

/-- Whether a step leaves it to the workspace which elements a screen has. Requests
    do, because a patch of a screen has no key for them. -/
def Step.KeepsLists : Step → Prop
  | .operation performed => performed.KeepsLists
  | .request _ => True

/-- The workspace of an editor holds a well-formed project. -/
def Holds (editor : Editor) : Prop :=
  ∃ p : Project, p.WellFormed ∧ editor.workspace = Workspace.ofProject p

/-- The editor that holds a project. -/
def holding (settings : Settings) (p : Project) : Editor :=
  ⟨Workspace.ofProject p, settings⟩

theorem project_holding (settings : Settings) {p : Project} (h : p.WellFormed) :
    (holding settings p).project = p :=
  Workspace.project_ofProject h.elements.nodup

theorem Holds.eq_holding {editor : Editor} (h : editor.Holds) :
    ∃ p : Project, p.WellFormed ∧ editor = holding editor.settings p := by
  rcases h with ⟨p, hp, hw⟩
  exact ⟨p, hp, by rw [holding, ← hw]⟩

theorem Holds.sound {editor : Editor} (h : editor.Holds) : editor.workspace.Sound := by
  rcases h with ⟨p, hp, hw⟩
  rw [hw]
  exact Workspace.sound_ofProject hp

theorem holds_ofProject (settings : Settings) (p : Project) : (ofProject settings p).Holds :=
  ⟨p.repaired, Project.wellFormed_repaired p, Workspace.load_eq_ofProject p⟩

/-- A workspace that an operation on a held project leaves holds a project, when
    scanning leaves a well-formed one or finds nothing to do. -/
theorem holds_report {p : Project} (h : p.WellFormed) (settings : Settings)
    {outcome : Bool × Workspace} {result : Option Project}
    (heq : outcome = Workspace.scanned p result) (hw : ∀ q, result = some q → q.WellFormed) :
    ((holding settings p).report outcome).2.Holds := by
  rcases result with _ | q
  · exact ⟨p, h, congrArg Prod.snd heq⟩
  · exact ⟨q, hw q rfl, congrArg Prod.snd heq⟩

/-- A blank text names no template. -/
theorem trim_of_parse? {text : String} {named : Template} (h : Template.parse? text = .ok named) :
    (Text.trim text).isEmpty = false := by
  by_contra hblank
  rw [Bool.not_eq_false, String.isEmpty_iff] at hblank
  rw [Template.parse?, hblank] at h
  exact absurd (congrArg Except.toOption h) (by cases named <;> decide +kernel)

/-- A screen that there is can be seeded from a template that there is. -/
theorem seed_named {w : Workspace} {screen : ScreenId} {template : String} {named : Template}
    (hfound : (w.screen? screen).isSome) (hnamed : Template.parse? template = .ok named) :
    seed w screen template = (true, named.apply w screen) := by
  have hmissing : (w.screen? screen).isNone = false := by
    rw [Option.isNone_eq_false_iff, hfound]
  rw [seed, trim_of_parse? hnamed, hmissing, hnamed]
  rfl

theorem decides_seed (w : Workspace) (screen : ScreenId) (template : String) :
    w.Decides (seed w screen template) fun w' => ∃ named, (w.screen? screen).isSome
      ∧ Template.parse? template = .ok named ∧ w' = named.apply w screen := by
  unfold seed
  by_cases hmissing : ((Text.trim template).isEmpty || (w.screen? screen).isNone) = true
  · rw [if_pos hmissing]
    exact Or.inl rfl
  · rw [if_neg hmissing]
    simp only [Bool.or_eq_true, not_or, Bool.not_eq_true, Option.isNone_eq_false_iff] at hmissing
    rcases hnamed : Template.parse? template with reason | named
    · exact Or.inl rfl
    · exact Or.inr ⟨_, ⟨named, hmissing.2, rfl, rfl⟩, rfl⟩

theorem holds_seed {p : Project} (h : p.WellFormed) (settings : Settings) (screen : ScreenId)
    (template : String) :
    (Editor.mk (seed (Workspace.ofProject p) screen template).2 settings).Holds := by
  refine (decides_seed (Workspace.ofProject p) screen template).keeps
    (P := fun w => (Editor.mk w settings).Holds) ⟨p, h, rfl⟩ ?_
  rintro _ ⟨named, _, _, rfl⟩
  exact ⟨p.seed screen named, h.seed screen named, Workspace.apply_ofProject h screen named⟩

theorem Holds.handle {editor : Editor} (h : editor.Holds) (request : Request) :
    (editor.handle request).2.Holds := by
  rcases editor with ⟨w, settings⟩
  rcases h with ⟨p, hp, hw⟩
  rcases hw with rfl
  cases request with
  | addScreen name? template? =>
      have hadd := hp.addScreen name?
      simp only [Editor.handle, Workspace.addScreen_ofProject]
      -- A template that is unknown leaves the screen without one.
      rcases template? with _ | template
      · exact ⟨(p.addScreen name?).2, hadd, rfl⟩
      · exact holds_seed hadd settings _ template
  | applyTemplate screen template =>
      rw [Editor.handle, report]
      exact holds_seed hp settings screen template
  | deleteScreen id =>
      exact holds_report hp settings (Workspace.removeScreen_ofProject hp id)
        fun _ => hp.removeScreen
  | selectScreen id =>
      exact holds_report hp settings (Workspace.selectScreen_ofProject p id)
        fun _ => hp.selectScreen
  | moveScreen id target =>
      exact holds_report hp settings (Workspace.reorderScreen_ofProject hp id target)
        fun _ => hp.reorderScreen
  | setBackground screen asset? picture? =>
      exact holds_report hp settings (Workspace.editScreen_ofProject hp screen fun _ => rfl)
        fun _ => hp.editScreen
  | patchScreen id patch =>
      exact holds_report hp settings (Workspace.editScreen_ofProject hp id fun _ => rfl)
        fun _ => hp.editScreen
  | addElement screen kind asset? =>
      simp only [Editor.handle]
      rcases Primitive.parse? kind with _ | kind
      · exact ⟨p, hp, rfl⟩
      · simp only [Workspace.addElement_ofProject hp]
        rcases hadd : p.addElement screen kind asset? with _ | ⟨e, q⟩
        · exact ⟨p, hp, rfl⟩
        · exact ⟨q, hp.addElement hadd, rfl⟩
  | deleteElement id =>
      exact holds_report hp settings (Workspace.removeElement_ofProject hp id)
        fun _ => hp.removeElement
  | patchElement id patch =>
      exact holds_report hp settings
        (Workspace.editElement_ofProject hp id (Element.patch patch)) fun _ => hp.editElement
  | moveElement screen id target =>
      exact holds_report hp settings
        (Workspace.reorderElement_ofProject hp screen id target) fun _ => hp.reorderElement
  | moveElementTo id screen =>
      exact holds_report hp settings (Workspace.moveElement_ofProject hp id screen)
        fun _ => hp.moveElement
  | addAsset asset => exact ⟨(p.addAsset asset).2, hp.addAsset asset, rfl⟩
  | deleteAsset name =>
      exact holds_report hp settings (Workspace.removeAsset_ofProject p name)
        fun _ => hp.removeAsset
  | replaceProject q =>
      exact ⟨q.repaired, Project.wellFormed_repaired q, Workspace.load_eq_ofProject q⟩

theorem Holds.step {editor : Editor} (h : editor.Holds) {step : Step} (hkeep : step.KeepsLists) :
    (editor.step step).Holds := by
  cases step with
  | operation operation =>
      rcases h with ⟨p, hp, hw⟩
      refine ⟨(p.perform operation).2, hp.perform operation, ?_⟩
      rw [Editor.step, hw, Workspace.perform_ofProject hp hkeep]
  | request request => exact h.handle request

theorem Holds.session {editor : Editor} (h : editor.Holds) {steps : List Step}
    (hkeep : ∀ step ∈ steps, step.KeepsLists) : (editor.session steps).Holds := by
  induction steps generalizing editor with
  | nil => exact h
  | cons step steps ih =>
      rw [List.forall_mem_cons] at hkeep
      exact ih (h.step hkeep.1) hkeep.2

/-- The workspace is sound in every session that opens an editor on any project. -/
theorem sound_session (settings : Settings) (p : Project) {steps : List Step}
    (hkeep : ∀ step ∈ steps, step.KeepsLists) :
    ((ofProject settings p).session steps).workspace.Sound := by
  rcases (holds_ofProject settings p).session hkeep with ⟨q, hq, hw⟩
  rw [hw]
  exact Workspace.sound_ofProject hq

/-- A file with a repeated screen id, a repeated and an empty element id and a
    counter that has stopped, edited by an operation and a request. -/
theorem sound_session_repeated_ids :
    let p : Project :=
      { screens := [{ id := "s", elements := [{ id := "e" }, { id := "e" }] },
          { id := "s", elements := [{}] }]
        elementSeq := 4294967295 }
    let steps : List Step :=
      [.operation (.editScreen "s" fun r => { r with id := "", name := "Start" }),
        .request (.addElement "s" "drawRect" none)]
    (∀ step ∈ steps, step.KeepsLists) ∧ ((ofProject {} p).session steps).workspace.Sound := by
  intro p steps
  have hkeep : ∀ step ∈ steps, step.KeepsLists :=
    List.forall_mem_cons.mpr ⟨fun _ => rfl, List.forall_mem_singleton.mpr trivial⟩
  exact ⟨hkeep, sound_session {} p hkeep⟩

end Editor

end PanelSketch
