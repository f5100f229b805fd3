import Mathlib.Data.List.Forall2
import PanelSketch.Proofs.Editor.Session
import PanelSketch.Proofs.Project.Reordering
import PanelSketch.Proofs.Workspace.Outcomes

/-!
# Reordered Screens and Elements

Moving a screen in the list of screens, or an element in the paint order of its screen, changes
one list and leaves everything else alone. The store, the assets, what is active and selected and
both counters are the same, and the placement is the one that the new lists describe, which for
screens takes new positions and for elements takes nothing.

Every screen and every element of a session can be moved, to any position, and moving it back to
where it was gives the workspace that was there before, down to the placement.

## Main definitions

* `Workspace.ScreenReordered`, `Workspace.ElementReordered`: What a move changes.

## Theorems

* `Workspace.reorderScreen_frame`, `Workspace.reorderElement_frame`: What a move cannot reach.
* `Workspace.screenReordered`, `Workspace.elementReordered`: Moves in the workspace of a project.
* `Editor.reorder_session`: Moves in every session.
-/

namespace PanelSketch

namespace Workspace

/-- Between two workspaces one screen has been moved in the list of screens, and moving it back
    gives the first one again. -/
structure ScreenReordered (before after : Workspace) (id : ScreenId) (target : Nat) : Prop where
  moved : MovedTo (fun r : ScreenRecord => r.id) id target before.screens after.screens
  kept : after = { before with screens := after.screens, placement := after.placement }
  described : after.placement = after.describe
  undone : ∀ k, before.screenIds[k]? = some id →
    after.perform (.reorderScreen id k) = (.done true, before)

/-- Between two workspaces one element has been moved in the paint order of a screen, and moving
    it back gives the first one again. -/
structure ElementReordered (before after : Workspace) (screen : ScreenId) (id : ElementId)
    (target : Nat) : Prop where
  moved : List.Forall₂ (fun r r' : ScreenRecord => r'.toScreenInfo = r.toScreenInfo
      ∧ if r.id = screen then MovedTo (fun e => e) id target r.elementIds r'.elementIds
        else r'.elementIds = r.elementIds)
    before.screens after.screens
  kept : after = { before with screens := after.screens }
  described : after.placement = after.describe
  undone : ∀ r ∈ before.screens, r.id = screen → ∀ k, r.elementIds[k]? = some id →
    after.perform (.reorderElement screen id k) = (.done true, before)

/-! ### What a move cannot reach -/

variable {w w' : Workspace}

theorem reorderScreen_frame {id : ScreenId} {target : Nat}
    (h : w.reorderScreen id target = (true, w')) :
    w' = { w with screens := w'.screens, placement := w'.placement } := by
  rcases (w.decides_reorderScreen id target).of_done h with ⟨_, _, _, _, rfl⟩
  rfl

theorem reorderElement_frame {screen : ScreenId} {id : ElementId} {target : Nat}
    (h : w.reorderElement screen id target = (true, w')) :
    w' = { w with screens := w'.screens } := by
  rcases (w.decides_reorderElement screen id target).of_done h with ⟨_, _, _, rfl⟩
  rfl

theorem perform_reorderScreen {id : ScreenId} {target : Nat}
    (h : w.reorderScreen id target = (true, w')) :
    w.perform (.reorderScreen id target) = (.done true, w') := by
  rw [perform, h]
  rfl

theorem perform_reorderElement {screen : ScreenId} {id : ElementId} {target : Nat}
    (h : w.reorderElement screen id target = (true, w')) :
    w.perform (.reorderElement screen id target) = (.done true, w') := by
  rw [perform, h]
  rfl

/-! ### The workspace of a project -/

variable {p : Project}

/-- Every screen can be moved. -/
theorem screenReordered (h : p.WellFormed) {id : ScreenId} (hid : id ∈ (ofProject p).screenIds)
    (target : Nat) : ∃ w', (ofProject p).perform (.reorderScreen id target) = (.done true, w')
      ∧ (ofProject p).ScreenReordered w' id target := by
  rw [screenIds_ofProject] at hid
  rcases List.mem_map.mp hid with ⟨s, hs, rfl⟩
  let q := p.withScreenAt s target
  have hmove := Project.reorderScreen_eq h hs target
  have hdone : (ofProject p).reorderScreen s.id target = (true, ofProject q) := by
    rw [reorderScreen_ofProject h, hmove]
    rfl
  refine ⟨ofProject q, perform_reorderScreen hdone, ?_⟩
  refine ⟨?_, reorderScreen_frame hdone, placement_ofProject q, fun k hk => ?_⟩
  · exact (Project.movedTo_withScreenAt h hs target).map Screen.record (fun r => r.id) fun _ => rfl
  · -- The screen at the old position is the one that has been moved.
    rw [screenIds_ofProject, Project.screenIds, List.getElem?_map, Option.map_eq_some_iff] at hk
    rcases hk with ⟨t, ht, hid⟩
    have hts : t = s := h.eq_of_screenId (List.mem_of_getElem? ht) hs hid
    have hback := Project.reorderScreen_back h (hts ▸ ht) target
    refine perform_reorderScreen ?_
    rw [reorderScreen_ofProject (h.reorderScreen hmove), hback]
    rfl

/-- Every element of a screen can be moved. -/
theorem elementReordered (h : p.WellFormed) {r : ScreenRecord} (hr : r ∈ (ofProject p).screens)
    {id : ElementId} (hid : id ∈ r.elementIds) (target : Nat) :
    ∃ w', (ofProject p).perform (.reorderElement r.id id target) = (.done true, w')
      ∧ (ofProject p).ElementReordered w' r.id id target := by
  rcases List.mem_map.mp hr with ⟨s, hs, rfl⟩
  rcases List.mem_map.mp hid with ⟨e, he, rfl⟩
  let q := p.updateScreen s.id (·.reinsert e target)
  have hmove := Project.reorderElement_eq h hs he target
  have hdone : (ofProject p).reorderElement s.id e.id target = (true, ofProject q) := by
    rw [reorderElement_ofProject h, hmove]
    rfl
  refine ⟨ofProject q, perform_reorderElement hdone, ?_⟩
  refine ⟨?_, reorderElement_frame hdone, placement_ofProject q, fun t ht htid k hk => ?_⟩
  · -- The lists of the two projects go side by side, and so do the records.
    refine List.forall₂_map_left_iff.mpr (List.forall₂_map_right_iff.mpr
      (List.forall₂_map_right_iff.mpr (List.forall₂_same.mpr fun t ht => ?_)))
    by_cases htid : t.id = s.id
    · have hts : t = s := h.eq_of_screenId ht hs htid
      rw [hts, if_pos rfl]
      refine ⟨rfl, ?_⟩
      rw [if_pos rfl]
      exact (Project.movedTo_reinsert h hs he target).map Element.id (fun e => e) fun _ => rfl
    · rw [if_neg htid]
      exact ⟨rfl, (if_neg htid).mpr rfl⟩
  · rcases List.mem_map.mp ht with ⟨u, hu, rfl⟩
    have hus : u = s := h.eq_of_screenId hu hs htid
    rw [hus] at hk
    -- The element at the old position is the one that has been moved.
    rcases Option.map_eq_some_iff.mp ((List.getElem?_map ..).symm.trans hk) with ⟨d, hd, hid⟩
    have hde : d = e := List.inj_on_of_nodup_map (h.elementIds_nodup_screen hs)
      (List.mem_of_getElem? hd) he hid
    have hback := Project.reorderElement_back h hs (hde ▸ hd) target
    refine perform_reorderElement ?_
    rw [reorderElement_ofProject (h.reorderElement hmove)]
    exact congrArg (scanned q) hback

end Workspace

namespace Editor

/-- In every session that leaves it to the workspace which elements a screen has, every screen can
    be moved to any position among the screens, and every element to any position in the paint
    order of its screen. -/
theorem reorder_session (settings : Settings) (p : Project) {steps : List Step}
    (hkeep : ∀ step ∈ steps, step.KeepsLists) :
    let w := ((ofProject settings p).session steps).workspace
    (∀ id ∈ w.screenIds, ∀ target, ∃ w',
        w.perform (.reorderScreen id target) = (.done true, w') ∧ w.ScreenReordered w' id target)
      ∧ ∀ r ∈ w.screens, ∀ id ∈ r.elementIds, ∀ target, ∃ w',
        w.perform (.reorderElement r.id id target) = (.done true, w')
          ∧ w.ElementReordered w' r.id id target := by
  intro w
  rcases (holds_ofProject settings p).session hkeep with ⟨q, hq, hw⟩
  have hheld : w = Workspace.ofProject q := hw
  rw [hheld]
  exact ⟨fun _ hid target => Workspace.screenReordered hq hid target,
    fun _ hr _ hid target => Workspace.elementReordered hq hr hid target⟩

/-- The first of three elements is moved behind the end, which is the last position, and a
    screen that has just been added in front of the one that was there. -/
theorem reorder_session_behind_the_end :
    let p : Project :=
      { screens := [{ id := "s", elements := [{ id := "a" }, { id := "b" }, { id := "c" }] }] }
    let steps : List Step := [.operation (.editScreen "s" fun r => { r with name := "Start" }),
      .request (.addScreen (some "Menu") none)]
    let w := ((ofProject {} p).session steps).workspace
    (∀ step ∈ steps, step.KeepsLists) ∧ w.screenIds = ["s", "screen_2"]
      ∧ (∃ w', w.perform (.reorderScreen "screen_2" 0) = (.done true, w')
        ∧ w.ScreenReordered w' "screen_2" 0)
      ∧ ∃ w', w.perform (.reorderElement "s" "a" 18446744073709551615) = (.done true, w')
        ∧ w.ElementReordered w' "s" "a" 18446744073709551615 := by
  intro p steps w
  have hkeep : ∀ step ∈ steps, step.KeepsLists :=
    List.forall_mem_cons.mpr ⟨fun _ => rfl, List.forall_mem_singleton.mpr trivial⟩
  have hids : w.screenIds = ["s", "screen_2"] := by decide +kernel
  have hrecord : w.screens.head?
      = some { id := "s", name := "Start", elementIds := ["a", "b", "c"] } := by
    decide +kernel
  rcases reorder_session {} p hkeep with ⟨hscreens, helements⟩
  refine ⟨hkeep, hids, hscreens "screen_2" ?_ 0, ?_⟩
  · rw [hids]
    decide
  · exact helements _ (List.mem_of_head? hrecord) "a" (by decide) _

end Editor

end PanelSketch
