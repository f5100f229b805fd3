import PanelSketch.Proofs.Project.Pairing
import PanelSketch.Proofs.Project.Repair

/-!
# Screens and Elements in Their Places

Which ids a screen and its elements get when a project is loaded takes registers to
say. Where they stand does not: every screen of the file is still there in its
place, under some id, and so is every element in its place on the screen, with its
reference following the assets. That is all most statements about a loaded project
need to know.

A file without a screen has nothing to lose. It gets a screen that holds nothing.

## Main definitions

* `Element.Relabelled`, `Screen.Relabelled`: The same element or screen under some id.

## Theorems

* `Screen.Relabelled.elements`: The elements of a screen.
* `Project.forall₂_relabelled`: The screens of a project.
* `Project.repaired_eq_refocus`, `Project.repaired_of_nil`: A project with and without
  a screen.
* `Project.assets_repaired`: The assets of a project.
-/

namespace PanelSketch

/-- An element under some id, with its reference following the assets. -/
def Element.Relabelled (r : Renaming) (e e' : Element) : Prop :=
  ∃ id, e' = e.relabel r id

/-- A screen under some id, with as many element ids as it has elements. -/
def Screen.Relabelled (r : Renaming) (s s' : Screen) : Prop :=
  ∃ id ids, ids.length = s.elements.length ∧ s' = s.relabel r id ids

theorem Screen.Relabelled.elements {r : Renaming} {s s' : Screen} (h : s.Relabelled r s') :
    List.Forall₂ (Element.Relabelled r) s.elements s'.elements := by
  rcases h with ⟨id, ids, hlength, rfl⟩
  exact forall₂_zipWith hlength fun id _ _ _ => ⟨id, rfl⟩

namespace Project

theorem forall₂_relabelScreens {r : Renaming} {screenIds : List ScreenId}
    {elementIds : List ElementId} {screens : List Screen} (hs : screenIds.length = screens.length)
    (he : elementIds.length = (screens.flatMap (·.elements)).length) :
    List.Forall₂ (Screen.Relabelled r) screens (relabelScreens r screenIds elementIds screens) := by
  induction screens generalizing screenIds elementIds with
  | nil =>
      rw [List.length_eq_zero_iff.mp hs]
      exact .nil
  | cons s screens ih =>
      rcases screenIds with _ | ⟨id, screenIds⟩
      · exact absurd hs (Nat.succ_ne_zero _).symm
      · rw [List.flatMap_cons, List.length_append] at he
        -- A screen takes as many ids as it has elements, and leaves the rest.
        have hown : (elementIds.take s.elements.length).length = s.elements.length := by
          rw [List.length_take, he, Nat.min_eq_left (Nat.le_add_right _ _)]
        have hrest : (elementIds.drop s.elements.length).length
            = (screens.flatMap (·.elements)).length := by
          rw [List.length_drop, he, Nat.add_sub_cancel_left]
        rw [relabelScreens]
        exact .cons ⟨id, _, hown, rfl⟩ (ih (Nat.succ.inj hs) hrest)

theorem forall₂_relabelled (p : Project) :
    List.Forall₂ (Screen.Relabelled (Renaming.ofAssets p.assets)) p.screens
      p.relabelled.screens := by
  refine forall₂_relabelScreens ?_ ?_
  · rw [enteredScreens, Register.length_enterAll, screenIds, List.length_map]
  · rw [enteredElements, Register.length_enterAll, elementIds, List.length_map]
    rfl

theorem screens_relabelled_ne_nil {p : Project} (hne : p.screens ≠ []) :
    p.relabelled.screens ≠ [] := by
  intro h
  have hlength := (forall₂_relabelled p).length_eq
  rw [h] at hlength
  exact hne (List.length_eq_zero_iff.mp hlength)

/-- A project that has a screen only gets other ids and names. -/
theorem repaired_eq_refocus {p : Project} (hne : p.screens ≠ []) :
    p.repaired = p.relabelled.refocus := by
  rw [repaired, ensureScreen_eq_self (screens_relabelled_ne_nil hne)]

/-- A project without a screen gets one that holds nothing. -/
theorem repaired_of_nil {p : Project} (hnil : p.screens = []) :
    p.repaired = refocus { p.relabelled with
      screens := [Screen.new (p.relabelled.counters.screens.issue screenStem []).1 "Home"]
      screenSeq := (p.relabelled.counters.screens.issue screenStem []).2.next } := by
  have hscreens : p.relabelled.screens = [] := by
    have hpaired := forall₂_relabelled p
    rwa [hnil, List.forall₂_nil_left_iff] at hpaired
  rw [repaired, ensureScreen_of_nil hscreens]

theorem assets_repaired (p : Project) : p.repaired.assets = (Renaming.ofAssets p.assets).assets :=
  rfl

end Project

end PanelSketch
