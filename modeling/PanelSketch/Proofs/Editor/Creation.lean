import PanelSketch.Proofs.Editor.Session
import PanelSketch.Proofs.Workspace.Agreement

/-!
# Creating Screens

A request for a new screen is answered with the screen as it is after it has been seeded.
Its id is new, and seeding keeps the screen: a template puts elements on it, which moves the
selection, and it may append further screens behind it.

Appending a screen makes it active. The screen that has been asked for is the first one that
is appended, so it is active in the end unless the template appends another one. Of the
templates there are only the menu does.

## Main definitions

* `Project.create`: A project after a screen has been created and seeded.

## Theorems

* `Project.addStyled_foldl_screens`, `Project.addScreen_foldl_screens`: Styled elements leave
  the active screen alone, further screens do not.
* `Project.seed_screens`: What seeding does to the screens.
* `Project.active_create_iff`: When the created screen is active.
* `Editor.handle_addScreen`: A request creates and seeds a screen.
* `Editor.addScreen_session`: What becomes of it in every session.
-/

namespace PanelSketch

namespace Project

/-- A project after a screen has been created, and seeded if there is a template of that
    name. -/
def create (p : Project) (name? template? : Option String) : Project :=
  let created := p.addScreen name?
  match template?.map Template.parse? with
  | some (.ok named) => created.2.seed created.1.id named
  | _ => created.2

/-! ### Seeding -/

variable {p : Project}

theorem mem_screenIds_addScreen (p : Project) (name? : Option String) :
    (p.addScreen name?).1.id ∈ (p.addScreen name?).2.screenIds := by
  rw [screenIds_addScreen]
  exact List.mem_append_right _ List.mem_cons_self

theorem addScreen_id_not_mem (p : Project) (name? : Option String) :
    (p.addScreen name?).1.id ∉ p.screenIds :=
  Counter.issue_not_mem screenStem p.screenIds _

/-- A styled element leaves all screens where they are, and the active one active. -/
theorem addStyled_screens (screen : ScreenId) (p : Project) (styling : Styling) :
    (p.addStyled screen styling).screenIds = p.screenIds
      ∧ (p.addStyled screen styling).active = p.active := by
  unfold addStyled addElement
  rcases p.screen? screen with _ | s
  · exact ⟨rfl, rfl⟩
  · simp only [Option.bind_eq_bind, Option.bind_some, Option.pure_def, editElement]
    rw [guard_bind]
    -- The styling is an edit of the element that has been pushed.
    split
    · exact ⟨(screenIds_updateElements _ _).trans (screenIds_push p screen _), rfl⟩
    · exact ⟨screenIds_push p screen _, rfl⟩

/-- So do any number of them. -/
theorem addStyled_foldl_screens (screen : ScreenId) (stylings : List Styling) (p : Project) :
    (stylings.foldl (addStyled screen) p).screenIds = p.screenIds
      ∧ (stylings.foldl (addStyled screen) p).active = p.active := by
  induction stylings generalizing p with
  | nil => exact ⟨rfl, rfl⟩
  | cons styling stylings ih =>
      rw [List.foldl_cons, (ih _).1, (ih _).2]
      exact addStyled_screens screen p styling

/-- Appending screens keeps those that there are, and none of them is active afterwards
    unless nothing has been appended. -/
theorem addScreen_foldl_screens (names : List String) (p : Project) :
    let p' := names.foldl (fun p name => (p.addScreen (some name)).2) p
    p.screenIds ⊆ p'.screenIds ∧ (names = [] → p'.active = p.active)
      ∧ (names ≠ [] → p'.active ∉ p.screenIds) := by
  induction names generalizing p with
  | nil => exact ⟨List.Subset.refl _, fun _ => rfl, fun h => absurd rfl h⟩
  | cons name names ih =>
      rcases ih (p.addScreen (some name)).2 with ⟨hsub, hnone, hsome⟩
      have hfirst : p.screenIds ⊆ (p.addScreen (some name)).2.screenIds := by
        rw [screenIds_addScreen]
        exact List.subset_append_left _ _
      refine ⟨List.Subset.trans hfirst hsub, fun h => absurd h (List.cons_ne_nil _ _), fun _ => ?_⟩
      rw [List.foldl_cons]
      -- What is active is the last screen appended, and every one of them is new.
      by_cases hnames : names = []
      · rw [hnone hnames]
        exact addScreen_id_not_mem p (some name)
      · exact fun hmem => hsome hnames (hfirst hmem)

/-- Seeding keeps all screens, and the active one if the template appends no other. -/
theorem seed_screens (p : Project) (screen : ScreenId) (template : Template) :
    p.screenIds ⊆ (p.seed screen template).screenIds
      ∧ (template.furtherScreens = [] → (p.seed screen template).active = p.active)
      ∧ (template.furtherScreens ≠ [] → (p.seed screen template).active ∉ p.screenIds) := by
  rcases addStyled_foldl_screens screen template.stylings p with ⟨hids, hactive⟩
  have happended := addScreen_foldl_screens template.furtherScreens
    (template.stylings.foldl (addStyled screen) p)
  rwa [hids, hactive] at happended

theorem furtherScreens_eq_nil_iff {template : Template} :
    template.furtherScreens = [] ↔ template ≠ .menu := by
  cases template <;> decide

/-! ### Creating -/

/-- The created screen is there afterwards, whatever the template. -/
theorem mem_screenIds_create (p : Project) (name? template? : Option String) :
    (p.addScreen name?).1.id ∈ (p.create name? template?).screenIds := by
  have hadded := mem_screenIds_addScreen p name?
  rw [create]
  split
  · exact (seed_screens _ _ _).1 hadded
  · exact hadded

/-- The created screen is active unless it has been seeded from the menu. -/
theorem active_create_iff (p : Project) (name? template? : Option String) :
    (p.create name? template?).active = (p.addScreen name?).1.id
      ↔ ∀ text, template? = some text → Template.parse? text ≠ .ok .menu := by
  rw [create]
  split
  · rename_i named hparse
    rcases Option.map_eq_some_iff.mp hparse with ⟨text, rfl, hnamed⟩
    rcases seed_screens (p.addScreen name?).2 (p.addScreen name?).1.id named with ⟨_, hnone, hsome⟩
    simp only [Option.some.injEq, forall_eq', hnamed, ne_eq, Except.ok.injEq]
    rw [← ne_eq, ← furtherScreens_eq_nil_iff]
    constructor
    · -- A screen that has been appended behind the created one is not the created one.
      intro hactive
      by_contra hfurther
      rw [hactive] at hsome
      exact hsome hfurther (mem_screenIds_addScreen p name?)
    · exact hnone
  · rename_i hparse
    refine ⟨fun _ text htext hmenu => hparse .menu ?_, fun _ => rfl⟩
    rw [htext, Option.map_some, hmenu]

/-- A created and seeded screen leaves a well-formed project. -/
theorem WellFormed.create (h : p.WellFormed) (name? template? : Option String) :
    (p.create name? template?).WellFormed := by
  rw [Project.create]
  split
  · exact (h.addScreen name?).seed _ _
  · exact h.addScreen name?

end Project

namespace Editor

/-- Seeding the created screen by the name of a template, or leaving it as it is. -/
theorem seed_created {q : Project} (h : q.WellFormed) (name? template? : Option String) :
    let created := q.addScreen name?
    let w := Workspace.ofProject created.2
    template?.elim w (fun template => (seed w created.1.id template).2)
      = Workspace.ofProject (q.create name? template?) := by
  intro created w
  have hcreated : created.2.WellFormed := h.addScreen name?
  have hfound : (w.screen? created.1.id).isSome := by
    rw [Workspace.screen?_ofProject hcreated, Option.isSome_map, Option.isSome_iff_ne_none, ne_eq,
      Project.screen?_eq_none, not_not]
    exact Project.mem_screenIds_addScreen q name?
  rcases template? with _ | text
  · rfl
  · simp only [Option.elim_some, Project.create, Option.map_some]
    rcases hparse : Template.parse? text with reason | named
    · -- No template of that name leaves the workspace as it is.
      refine (decides_seed w created.1.id text).keeps (P := fun w' => w' = w) rfl ?_
      rintro _ ⟨named, _, hnamed, _⟩
      exact absurd (hparse.symm.trans hnamed) (by simp only [reduceCtorEq, not_false_eq_true])
    · rw [seed_named hfound hparse]
      exact Workspace.apply_ofProject hcreated created.1.id named

/-- A request for a screen creates and seeds one, and answers with it. -/
theorem handle_addScreen (settings : Settings) {q : Project} (h : q.WellFormed)
    (name? template? : Option String) :
    (holding settings q).handle (.addScreen name? template?)
      = (.screen (((q.create name? template?).screen? (q.addScreen name?).1.id).getD {}),
        holding settings (q.create name? template?)) := by
  have hsnapshot := Workspace.snapshot?_ofProject (h.create name? template?)
    (q.addScreen name?).1.id
  simp only [handle, holding, Workspace.addScreen_ofProject, seed_created h, hsnapshot]

/-- In every session, the screen that a request answers with is new and as it is in the
    workspace. It is active unless it has been seeded from the menu. -/
theorem addScreen_session (settings : Settings) (p : Project) {steps : List Step}
    (hkeep : ∀ step ∈ steps, step.KeepsLists) (name? template? : Option String) :
    let editor := (ofProject settings p).session steps
    let after := (editor.handle (.addScreen name? template?)).2
    ∃ s, (editor.handle (.addScreen name? template?)).1 = .screen s
      ∧ s.id ∉ editor.workspace.screenIds ∧ after.workspace.snapshot? s.id = some s
      ∧ (after.workspace.active = s.id
        ↔ ∀ text, template? = some text → Template.parse? text ≠ .ok .menu) := by
  intro editor after
  have hholds : editor.Holds := (holds_ofProject settings p).session hkeep
  rcases hholds.eq_holding with ⟨q, hq, heditor⟩
  have hcreated := hq.create name? template?
  have hhandle := (congrArg (·.handle (.addScreen name? template?)) heditor).trans
    (handle_addScreen editor.settings hq name? template?)
  have hafter : after = holding editor.settings (q.create name? template?) := by
    rw [show after = (editor.handle (.addScreen name? template?)).2 from rfl, hhandle]
  -- The screen is found by the id that it was given.
  rcases hfound : (q.create name? template?).screen? (q.addScreen name?).1.id with _ | s
  · exact absurd (Project.mem_screenIds_create q name? template?)
      (Project.screen?_eq_none.mp hfound)
  · have hid : s.id = (q.addScreen name?).1.id :=
      ((Project.screen?_eq_some hcreated.screens.nodup).mp hfound).2
    refine ⟨s, by rw [hhandle, hfound, Option.getD_some], ?_, ?_, ?_⟩
    · rw [hid, heditor, holding, Workspace.screenIds_ofProject]
      exact Project.addScreen_id_not_mem q name?
    · rw [hid, hafter, holding, Workspace.snapshot?_ofProject hcreated, hfound]
    · rw [hid, hafter]
      exact Project.active_create_iff q name? template?

/-- A screen is created in the workspace of a file without screens, from a template whose
    name is spelled in its own way. -/
theorem addScreen_session_loading :
    let steps : List Step := [.request (.addAsset { name := "Logo" })]
    let editor := (ofProject {} {}).session steps
    let after := (editor.handle (.addScreen (some "Boot") (some " Loading "))).2
    (∀ step ∈ steps, step.KeepsLists)
      ∧ ∃ s, (editor.handle (.addScreen (some "Boot") (some " Loading "))).1 = .screen s
        ∧ s.id ∉ editor.workspace.screenIds ∧ after.workspace.snapshot? s.id = some s
        ∧ after.workspace.active = s.id := by
  intro steps editor after
  have hkeep : ∀ step ∈ steps, step.KeepsLists := List.forall_mem_singleton.mpr trivial
  have hloading : Template.parse? " Loading " ≠ .ok .menu := by
    intro h
    exact absurd (congrArg Except.toOption h) (by decide +kernel)
  rcases addScreen_session {} {} hkeep (some "Boot") (some " Loading ") with
    ⟨s, hreply, hnew, hsnapshot, hactive⟩
  refine ⟨hkeep, s, hreply, hnew, hsnapshot, hactive.mpr ?_⟩
  intro text htext
  rw [← Option.some.inj htext]
  exact hloading

/-- The menu appends a second screen, which is active instead of the one that is returned. -/
theorem not_active_menu :
    let editor := ofProject {} {}
    let after := (editor.handle (.addScreen (some "Main menu") (some "menu"))).2
    ¬∃ s, (editor.handle (.addScreen (some "Main menu") (some "menu"))).1 = .screen s
      ∧ after.workspace.active = s.id := by
  rintro editor after ⟨s, hreply, hactive⟩
  let screenId (reply : Reply) : ScreenId :=
    match reply with
    | .screen s => s.id
    | _ => ""
  have hid : screenId (editor.handle (.addScreen (some "Main menu") (some "menu"))).1 = s.id := by
    rw [hreply]
  rw [← hid] at hactive
  exact absurd hactive (by decide +kernel)

end Editor

end PanelSketch
