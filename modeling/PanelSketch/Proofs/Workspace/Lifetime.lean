import PanelSketch.Proofs.Project.Repair
import PanelSketch.Proofs.Workspace.Covering

/-!
# The Lifetime of a Project

A project is loaded, edited, saved and loaded again, any number of times. Over all of
this no id is issued twice, nor one that was in the file or has been held in the
meantime, and every id that is issued is the plain number of its counter. This holds
until a counter has reached the greatest word, where it stops.

Loading is covered by any history that has seen the ids of the file and that the
counters of the file, once they have seen these ids, are ahead of. The file of a
project that has just been loaded is such a one for the ids in it. And the file that a
workspace is saved to is one for everything the workspace has held, since it carries
the counters along.

## Main definitions

* `Project.held`, `Workspace.held`: The ids that a file or a workspace holds.
* `Workspace.Step`, `Workspace.advance`: An operation, or saving and loading again.
* `Project.everHeld`: The ids that have been held after some steps.

## Theorems

* `Workspace.covered_load`: Loading a file.
* `Workspace.Covered.reloaded`: Saving and loading again.
* `Workspace.Covered.advance`: One step.
* `Workspace.fresh_lifetime`: Ids are not issued again in the lifetime of a project.
-/

namespace PanelSketch

open History (Extends)

/-! ### Loading a file -/

namespace Loading

/-- A history has seen the ids of the file and covers what has been loaded, with the
    screens entered so far. -/
structure Covered (knownScreens : List ScreenId) (knownElements : List ElementId)
    (screenIds : List ScreenId) (h : History) (l : Loading) : Prop extends
    h.Covers l.numbering screenIds l.elements where
  knownScreens : ∀ id ∈ knownScreens, h .screen id
  knownElements : ∀ id ∈ knownElements, h .element id

variable {knownScreens : List ScreenId} {knownElements : List ElementId}
  {screenIds : List ScreenId} {h : History} {l : Loading}

theorem Covered.addElement (hl : l.Covered knownScreens knownElements screenIds h) (r : Renaming)
    {e : Element} (he : e.id ∈ knownElements) :
    Extends (Covered knownScreens knownElements screenIds) h (l.elementIssues knownElements e)
      (l.addElement knownElements r e).2 := by
  by_cases hnew : e.id.isEmpty ∨ e.id ∈ l.elements
  · have hid : l.elementId knownElements e.id
        = l.numbering.issueElement (knownElements ++ l.elements.keys) := if_pos hnew
    -- The new id is kept clear of the file and of the store, which have both been seen.
    have htaken : ∀ id ∈ knownElements ++ l.elements.keys, h .element id := by
      intro id hid
      rcases List.mem_append.mp hid with hid | hid
      · exact hl.knownElements id hid
      · exact hl.mem_elements (Std.ExtTreeMap.mem_keys.mp hid)
    have hissues : l.elementIssues knownElements e
        = [l.numbering.issueOf .element (knownElements ++ l.elements.keys)] := by
      rw [elementIssues, if_pos hnew, hid]
      rfl
    rw [hissues, Loading.addElement, hid]
    refine ⟨(hl.ahead.issue .element htaken).1, (hl.toCovers.addElement htaken rfl).2,
      fun id hid => Or.inl (hl.knownScreens id hid), fun id hid => Or.inl (hl.knownElements id hid)⟩
  · -- The element stays under its own id, which is one of the file.
    have hid : l.elementId knownElements e.id = (e.id, l.numbering) := if_neg hnew
    rw [elementIssues, if_neg hnew, Loading.addElement, hid]
    exact Extends.nil ⟨hl.toCovers.insert (hl.knownElements _ he) rfl, hl.knownScreens,
      hl.knownElements⟩

theorem addElements_eq_foldl (r : Renaming) (es : List Element) (l : Loading) :
    (l.addElements knownElements r es).2
      = es.foldl (fun l e => (l.addElement knownElements r e).2) l := by
  induction es generalizing l with
  | nil => rfl
  | cons e es ih => exact ih (l.addElement knownElements r e).2

theorem screens_addElements (r : Renaming) (es : List Element) (l : Loading) :
    (l.addElements knownElements r es).2.screens = l.screens := by
  induction es generalizing l with
  | nil => rfl
  | cons e es ih => exact ih (l.addElement knownElements r e).2

/-- The id of a screen, with the screens entered before it. -/
theorem Covered.screenId (hl : l.Covered knownScreens knownElements (l.screens.map (·.id)) h)
    {s : Screen} (hs : s.id ∈ knownScreens) :
    Extends (Covered knownScreens knownElements
        (l.screens.map (·.id) ++ [(l.screenId knownScreens s.id).1])) h
      (l.screenIssues knownScreens s)
      { l with numbering := (l.screenId knownScreens s.id).2 } := by
  by_cases hnew : s.id.isEmpty ∨ s.id ∈ l.screens.map (·.id)
  · have hid : l.screenId knownScreens s.id
        = l.numbering.issueScreen (knownScreens ++ l.screens.map (·.id)) := if_pos hnew
    have htaken : ∀ id ∈ knownScreens ++ l.screens.map (·.id), h .screen id := by
      intro id hid
      rcases List.mem_append.mp hid with hid | hid
      · exact hl.knownScreens id hid
      · exact hl.screens id hid
    have hissues : l.screenIssues knownScreens s
        = [l.numbering.issueOf .screen (knownScreens ++ l.screens.map (·.id))] := by
      rw [screenIssues, if_pos hnew, hid]
      rfl
    have hadd := hl.toCovers.addScreen htaken
    rw [hissues, hid]
    exact ⟨hadd.1, hadd.2, fun id hid => Or.inl (hl.knownScreens id hid),
      fun id hid => Or.inl (hl.knownElements id hid)⟩
  · have hid : l.screenId knownScreens s.id = (s.id, l.numbering) := if_neg hnew
    rw [screenIssues, if_neg hnew, hid]
    refine Extends.nil ⟨⟨?_, hl.elements, hl.ahead⟩, hl.knownScreens, hl.knownElements⟩
    exact List.forall_mem_append.mpr
      ⟨hl.screens, List.forall_mem_singleton.mpr (hl.knownScreens _ hs)⟩

theorem Covered.addScreen (hl : l.Covered knownScreens knownElements (l.screens.map (·.id)) h)
    (r : Renaming) {s : Screen} (hs : s.id ∈ knownScreens)
    (he : ∀ e ∈ s.elements, e.id ∈ knownElements) :
    Extends (fun h l => l.Covered knownScreens knownElements (l.screens.map (·.id)) h) h
      (l.issues knownScreens knownElements r s) (l.addScreen knownScreens knownElements r s) := by
  have hid := hl.screenId hs
  -- The elements follow with the id of their screen among those entered.
  have helements := History.extends_along
    (fun e hmem _ _ hl => Covered.addElement hl r (he e hmem)) hid.holds
  rw [← addElements_eq_foldl] at helements
  refine Extends.append hid.fresh ⟨helements.fresh, ?_⟩
  -- The record comes behind those entered before it, under the id it has been given.
  have hscreens : (l.addScreen knownScreens knownElements r s).screens.map (·.id)
      = l.screens.map (·.id) ++ [(l.screenId knownScreens s.id).1] := by
    simp only [Loading.addScreen, screens_addElements, List.map_append, List.map_singleton]
  rw [hscreens]
  exact ⟨helements.holds.toCovers, helements.holds.knownScreens, helements.holds.knownElements⟩

theorem Covered.ensureScreen (hl : l.Covered knownScreens knownElements (l.screens.map (·.id)) h) :
    Extends (fun h l => h.Covers l.numbering (l.screens.map (·.id)) l.elements) h l.ensureIssues
      l.ensureScreen := by
  by_cases hempty : l.screens.isEmpty = true
  · have hadd := hl.toCovers.addScreen (List.forall_mem_nil _)
    rw [List.isEmpty_iff.mp hempty] at hadd
    rw [ensureIssues, if_pos hempty, Loading.ensureScreen, if_pos hempty]
    exact ⟨hadd.1, hadd.2⟩
  · rw [ensureIssues, if_neg hempty, Loading.ensureScreen, if_neg hempty]
    exact Extends.nil hl.toCovers

end Loading

namespace Workspace

variable {h : History} {w : Workspace}

/-- Loading a file is covered by a history that has seen its ids and that its counters
    are ahead of. -/
theorem covered_load {p : Project} (hs : ∀ id ∈ p.screenIds, h .screen id)
    (he : ∀ id ∈ p.elementIds, h .element id) (hahead : p.numbering.AheadOf h) :
    Extends Covered h (loadIssues p) (load p) := by
  have hstart : Loading.Covered p.screenIds p.elementIds [] h { numbering := p.numbering } :=
    { screens := List.forall_mem_nil _
      elements := fun id e he =>
        absurd (Std.ExtTreeMap.getElem?_empty.symm.trans he) (Option.some_ne_none e).symm
      ahead := hahead
      knownScreens := hs
      knownElements := he }
  let r := Renaming.ofAssets p.assets
  have hscreens : Extends (fun h l => l.Covered p.screenIds p.elementIds (l.screens.map (·.id)) h) h
      (issuesAlong (Loading.issues p.screenIds p.elementIds r)
        (Loading.addScreen p.screenIds p.elementIds r) { numbering := p.numbering } p.screens)
      (p.screens.foldl (Loading.addScreen p.screenIds p.elementIds r)
        { numbering := p.numbering }) := by
    refine History.extends_along (fun s hmem h l hl => ?_) hstart
    refine hl.addScreen r (Project.mem_screenIds.mpr ⟨s, hmem, rfl⟩) fun e he => ?_
    exact Project.mem_elementIds.mpr ⟨s, hmem, List.mem_map_of_mem he⟩
  have hfirst := hscreens.holds.ensureScreen
  exact Extends.append hscreens.fresh ⟨hfirst.fresh, hfirst.holds, placed_describe (load p)⟩

/-! ### Saving and loading again -/

theorem screenIds_project (w : Workspace) : w.project.screenIds = w.screenIds :=
  List.map_map

/-- The elements of the nested project are stored under the ids they carry. -/
theorem Covered.mem_elementIds (hw : w.Covered h) {id : ElementId}
    (hid : id ∈ w.project.elementIds) : id ∈ w.elements := by
  rcases Project.mem_elementIds.mp hid with ⟨s, hs, hid⟩
  -- The elements of a screen are those that the store has for the ids in its record.
  rcases List.mem_map.mp hs with ⟨record, _, rfl⟩
  rcases List.mem_map.mp hid with ⟨e, he, rfl⟩
  rcases List.mem_filterMap.mp he with ⟨key, _, hkey⟩
  rw [(hw.elements key e hkey).1, Std.ExtTreeMap.mem_iff_isSome_getElem?, hkey]
  rfl

/-- The counters of a project that is loaded have not fallen behind those it was saved
    with. -/
theorem le_counter_numbering (p : Project) (kind : IdKind) :
    (p.counters.counter kind).next ≤ (p.numbering.counter kind).next := by
  have hstart : ∀ n : UInt32, n ≤ (Counter.start n).next := by
    intro n
    rw [UInt32.le_iff_toNat_le, Counter.start, Counter.toNat_larger]
    omega
  rw [Project.numbering_eq]
  cases kind with
  | screen => exact UInt32.le_trans (hstart p.screenSeq) (Counter.le_next_observeAll _ _ _)
  | element => exact UInt32.le_trans (hstart p.elementSeq) (Counter.le_next_observeAll _ _ _)

/-- Saving and loading again. -/
theorem Covered.reloaded (hw : w.Covered h) :
    Extends Covered h (loadIssues w.project) (load w.project) := by
  refine covered_load (fun id hid => ?_) (fun id hid => ?_) ?_
  · rw [screenIds_project] at hid
    exact hw.screens id hid
  · exact hw.mem_elements (hw.mem_elementIds hid)
  · exact hw.ahead.mono (le_counter_numbering w.project)

/-- What is done to a workspace in its lifetime: an operation, or saving it and loading
    it again. -/
inductive Step where
  | perform (operation : Operation)
  | reload

/-- A workspace after a step. -/
def advance (w : Workspace) : Step → Workspace
  | .perform operation => (w.perform operation).2
  | .reload => load w.project

/-- What a step issues. -/
def stepIssues (w : Workspace) : Step → List Issue
  | .perform operation => w.issues operation
  | .reload => loadIssues w.project

/-- A workspace after steps in a row. -/
def advanceAll (w : Workspace) (steps : List Step) : Workspace :=
  steps.foldl advance w

/-- The ids that a workspace holds. -/
def held (w : Workspace) : History
  | .screen, id => id ∈ w.screenIds
  | .element, id => id ∈ w.elements

theorem Covered.advance (hw : w.Covered h) (step : Step) :
    Extends Covered h (w.stepIssues step) (w.advance step) := by
  cases step with
  | perform operation => exact hw.perform operation
  | reload => exact hw.reloaded

theorem Covered.advanceAll (hw : w.Covered h) (steps : List Step) :
    Extends Covered h (issuesAlong stepIssues Workspace.advance w steps) (w.advanceAll steps) :=
  History.extends_along (fun step _ _ _ hw => hw.advance step) hw

/-- What is held has been seen. -/
theorem Covered.of_held (hw : w.Covered h) {kind : IdKind} {id : String} (hid : w.held kind id) :
    h kind id := by
  cases kind with
  | screen => exact hw.screens id hid
  | element => exact hw.mem_elements hid

/-- A workspace is covered by what it holds itself. -/
theorem Covered.self (hw : w.Covered h) : w.Covered w.held where
  screens _ hid := hid
  elements id e he := by
    refine ⟨(hw.elements id e he).1, ?_⟩
    rw [held, Std.ExtTreeMap.mem_iff_isSome_getElem?, he]
    rfl
  ahead kind id hid := hw.ahead kind id (hw.of_held hid)
  placed := hw.placed

end Workspace

/-! ### Lifetimes -/

namespace Project

/-- The ids that a file holds. -/
def held (p : Project) : History
  | .screen, id => id ∈ p.screenIds
  | .element, id => id ∈ p.elementIds

/-- The ids that the file of a project or its workspace has held once it has been loaded
    and some steps have been taken. -/
def everHeld (p : Project) (steps : List Workspace.Step) : History :=
  fun kind id => p.held kind id
    ∨ ∃ earlier, earlier <+: steps ∧ ((Workspace.load p).advanceAll earlier).held kind id

end Project

namespace Workspace

/-- A file that is loaded is covered by what it holds and what is issued for it. -/
theorem covered_held (p : Project) : Extends Covered p.held (loadIssues p) (load p) := by
  refine covered_load (fun _ hid => hid) (fun _ hid => hid) ?_
  rw [Project.numbering_eq]
  intro kind id hid
  cases kind with
  | screen => exact Counter.ahead_observeAll screenStem _ hid
  | element => exact Counter.ahead_observeAll elementStem _ hid

theorem issuesAlong_append {σ α : Type} (issues : σ → α → List Issue) (step : σ → α → σ) (s : σ)
    (first second : List α) : issuesAlong issues step s (first ++ second)
      = issuesAlong issues step s first ++ issuesAlong issues step (first.foldl step s) second := by
  induction first generalizing s with
  | nil => rfl
  | cons a first ih =>
      rw [List.cons_append, issuesAlong, ih, issuesAlong, List.append_assoc]
      rfl

/-- Whatever has been held in a lifetime was in the file or has been issued. -/
theorem recordAll_of_everHeld {p : Project} {steps : List Step} {kind : IdKind} {id : String}
    (hid : p.everHeld steps kind id) : (p.held.recordAll (loadIssues p)).recordAll
      (issuesAlong stepIssues advance (load p) steps) kind id := by
  rcases hid with hid | ⟨earlier, ⟨later, rfl⟩, hid⟩
  · exact History.recordAll_iff.mpr (Or.inl (History.recordAll_iff.mpr (Or.inl hid)))
  · -- What has been issued since then only adds to what has been seen.
    have hearlier := ((covered_held p).holds.advanceAll earlier).holds.of_held hid
    rw [issuesAlong_append, History.recordAll_append]
    exact History.recordAll_iff.mpr (Or.inl hearlier)

/-- In the lifetime of a project, loading and every step after it issue plain numbers
    that have not been held before, and no id is held that has not been issued. -/
theorem fresh_lifetime (p : Project) :
    (p.held.Fresh (loadIssues p)
        ∧ ∀ kind id, (load p).held kind id → p.held.recordAll (loadIssues p) kind id)
      ∧ ∀ steps step, let w := (load p).advanceAll steps
        (p.everHeld steps).Fresh (w.stepIssues step)
          ∧ ∀ kind id, (w.advance step).held kind id
            → w.held.recordAll (w.stepIssues step) kind id := by
  have hload := covered_held p
  refine ⟨⟨hload.fresh, fun _ _ hid => hload.holds.of_held hid⟩, fun steps step => ?_⟩
  have hsteps := (hload.holds.advanceAll steps).holds
  refine ⟨(hsteps.advance step).fresh.of_imp fun _ _ hid => recordAll_of_everHeld hid, ?_⟩
  -- The workspace covers itself, so a step adds no more than it issues.
  exact fun _ _ hid => (hsteps.self.advance step).holds.of_held hid

/-- The id of an element that has been removed stays out of use after loading again. -/
example :
    let w := (load {}).advanceAll [.perform (.addElement "screen_1" .fillRect none),
      .perform (.removeElement "el_1"), .reload]
    w.issues (.addElement "screen_1" .fillRect none) = [⟨.element, 2, "el_2"⟩] := by
  decide

end Workspace

end PanelSketch
