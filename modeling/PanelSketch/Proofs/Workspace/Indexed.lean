import PanelSketch.Proofs.Project.Scanning
import PanelSketch.Proofs.Workspace.Table

/-!
# The Workspace That Holds a Project

A workspace keeps the elements of a project in a store and repeats the lists of
ids in its placement. Here both are read off a nested project, which makes the
workspace that holds it: `Workspace.ofProject`. Every workspace that editing can
reach is of this form for some well-formed project, so whatever has to be known
about the store and the placement is known once it is known here.

The lemmas of this module answer the questions that operations ask. A position
is where the screen stands in the list, the owner of an element is the screen
that lists it, and the store finds the element that carries the id. Each holds
because ids do not repeat: with a repeated id, the maps would answer with the
later place and a search through the lists with the earlier one.

## Main definitions

* `Workspace.ofProject`: The workspace that holds a project.

## Theorems

* `Workspace.placement_ofProject`: The placement is the one the lists describe.
* `Workspace.project_ofProject`: The nested view is the project that is held.
* `Workspace.position?_ofProject`, `owner?_ofProject`, `getElem?_ofProject`: What
  the maps answer.
* `Workspace.modify_eq_map`: Changing the record at the position of a screen is
  changing the record that carries its id.
-/

namespace PanelSketch

namespace Workspace

/-- The workspace that holds a project. -/
def ofProject (p : Project) : Workspace :=
  { screens := p.screens.map Screen.record
    elements := table (p.located.map fun l => (l.2.id, l.2))
    assets := p.assets
    active := p.active
    selected := p.selected
    numbering := p.counters
    placement := ⟨table p.screenIds.zipIdx, table (p.located.map fun l => (l.2.id, l.1))⟩ }

theorem positionsOf_eq_table (order : List ScreenId) :
    Placement.positionsOf order = table order.zipIdx := rfl

theorem ownersOf_eq_table (screens : List (ScreenId × List ElementId)) :
    Placement.ownersOf screens = table (screens.flatMap fun s => s.2.map fun e => (e, s.1)) := by
  rw [table, List.foldl_flatMap, Placement.ownersOf]
  congr 1
  funext m s
  rw [List.foldl_map]

theorem screenIds_ofProject (p : Project) : (ofProject p).screenIds = p.screenIds := by
  simp only [screenIds, ofProject, Project.screenIds, List.map_map]
  rfl

theorem ownersOf_outline (screens : List Screen) :
    Placement.ownersOf ((screens.map Screen.record).map fun s => (s.id, s.elementIds))
      = table ((screens.flatMap fun s => s.elements.map fun e => (s.id, e)).map
          fun l => (l.2.id, l.1)) := by
  rw [ownersOf_eq_table, List.flatMap_map, List.flatMap_map, List.map_flatMap]
  congr 1
  refine List.flatMap_congr fun s _ => ?_
  simp only [Screen.record, Screen.elementIds, List.map_map]
  rfl

theorem placement_ofProject (p : Project) : (ofProject p).placement = (ofProject p).describe := by
  have hids : ((ofProject p).outline.map (·.1)) = p.screenIds := by
    rw [← screenIds_ofProject, outline, List.map_map]
    rfl
  rw [describe, Placement.ofScreens, hids, positionsOf_eq_table, outline]
  exact congrArg (Placement.mk _) (ownersOf_outline p.screens).symm

/-- A workspace is the one that holds a project when each of its parts is. -/
theorem eq_ofProject {w : Workspace} {p : Project}
    (hscreens : w.screens = p.screens.map Screen.record)
    (helements : w.elements = table (p.located.map fun l => (l.2.id, l.2)))
    (hassets : w.assets = p.assets) (hactive : w.active = p.active)
    (hselected : w.selected = p.selected) (hnumbering : w.numbering = p.counters)
    (hpositions : w.placement.positions = table p.screenIds.zipIdx)
    (howners : w.placement.owners = table (p.located.map fun l => (l.2.id, l.1))) :
    w = ofProject p := by
  rcases w with ⟨_, _, _, _, _, _, ⟨_, _⟩⟩
  simp only [ofProject, Workspace.mk.injEq, Placement.mk.injEq]
  exact ⟨hscreens, helements, hassets, hactive, hselected, hnumbering, hpositions, howners⟩

/-! ### Answers of the maps -/

theorem position?_ofProject {p : Project} (h : p.screenIds.Nodup) {id : ScreenId} {k : Nat} :
    (ofProject p).placement.position? id = some k ↔ p.screenIds[k]? = some id := by
  rw [Placement.position?, ofProject, getElem?_table (by rwa [List.zipIdx_map_fst]),
    List.mem_zipIdx_iff_getElem?]

theorem position?_eq_none {p : Project} {id : ScreenId} (h : id ∉ p.screenIds) :
    (ofProject p).placement.position? id = none := by
  rw [Placement.position?, ofProject]
  exact getElem?_table_of_not_mem (by rwa [List.zipIdx_map_fst])

theorem hasScreen_ofProject {p : Project} {id : ScreenId} :
    (ofProject p).placement.hasScreen id = true ↔ id ∈ p.screenIds := by
  rw [Placement.hasScreen, ← Std.ExtTreeMap.mem_iff_contains, ofProject, mem_table,
    List.zipIdx_map_fst]

theorem pairs_nodup {α : Type} {p : Project} (h : p.elementIds.Nodup)
    (f : ScreenId × Element → α) : ((p.located.map fun l => (l.2.id, f l)).map (·.1)).Nodup := by
  rw [List.map_map]
  rwa [Project.elementIds_eq_located] at h

theorem owner?_ofProject {p : Project} (h : p.elementIds.Nodup) {id : ElementId} {s : ScreenId} :
    (ofProject p).placement.owner? id = some s ↔ ∃ e, (s, e) ∈ p.located ∧ e.id = id := by
  rw [Placement.owner?, ofProject, getElem?_table (pairs_nodup h _), List.mem_map]
  constructor
  · rintro ⟨l, hl, heq⟩
    rw [Prod.mk.injEq] at heq
    exact ⟨l.2, by rw [← heq.2]; exact hl, heq.1⟩
  · rintro ⟨e, he, hid⟩
    exact ⟨(s, e), he, by rw [hid]⟩

theorem getElem?_ofProject {p : Project} (h : p.elementIds.Nodup) {id : ElementId} {e : Element} :
    (ofProject p).elements[id]? = some e ↔ e ∈ p.elements ∧ e.id = id := by
  rw [ofProject, getElem?_table (pairs_nodup h _), List.mem_map, Project.elements_eq_located,
    List.mem_map]
  constructor
  · rintro ⟨l, hl, heq⟩
    rw [Prod.mk.injEq] at heq
    exact ⟨⟨l, hl, heq.2⟩, by rw [← heq.2]; exact heq.1⟩
  · rintro ⟨⟨l, hl, rfl⟩, hid⟩
    exact ⟨l, hl, by rw [hid]⟩

theorem mem_elements_ofProject {p : Project} {id : ElementId} :
    id ∈ (ofProject p).elements ↔ id ∈ p.elementIds := by
  rw [ofProject, mem_table, List.map_map, Project.elementIds_eq_located]
  rfl

/-! ### The nested view -/

theorem elementsOf_record {p : Project} (h : p.elementIds.Nodup) {s : Screen} (hs : s ∈ p.screens) :
    (ofProject p).elementsOf s.record = s.elements := by
  -- Every id that a screen lists is found, so none is skipped.
  have hfind : ∀ e ∈ s.elements, (ofProject p).elements[e.id]? = some e := fun e he =>
    (getElem?_ofProject h).mpr ⟨List.mem_flatMap.mpr ⟨s, hs, he⟩, rfl⟩
  rw [elementsOf, Screen.record, Screen.elementIds, List.filterMap_map]
  calc s.elements.filterMap ((fun id => (ofProject p).elements[id]?) ∘ (·.id))
      = s.elements.filterMap some := List.filterMap_congr hfind
    _ = s.elements := List.filterMap_some

theorem assemble_record {p : Project} (h : p.elementIds.Nodup) {s : Screen} (hs : s ∈ p.screens) :
    (ofProject p).assemble s.record = s := by
  rw [assemble, elementsOf_record h hs]
  rfl

theorem project_ofProject {p : Project} (h : p.elementIds.Nodup) : (ofProject p).project = p := by
  have hscreens : (ofProject p).screens.map (ofProject p).assemble = p.screens := by
    rw [show (ofProject p).screens = p.screens.map Screen.record from rfl, List.map_map]
    calc p.screens.map ((ofProject p).assemble ∘ Screen.record)
        = p.screens.map id := List.map_congr_left fun s hs => assemble_record h hs
      _ = p.screens := List.map_id _
  rw [project, hscreens]
  rfl

/-! ### Changing one record -/

/-- Changing the record at the position of a screen is changing the record that
    carries its id. -/
theorem modify_eq_map {records : List ScreenRecord} {id : ScreenId} {k : Nat}
    (h : (records.map (·.id)).Nodup) (hk : (records.map (·.id))[k]? = some id)
    (f : ScreenRecord → ScreenRecord) :
    records.modify k f = records.map fun r => if r.id = id then f r else r := by
  refine List.ext_getElem? fun i => ?_
  rw [List.getElem?_modify, List.getElem?_map]
  rcases hi : records[i]? with _ | r
  · rfl
  · have hid : (records.map (·.id))[i]? = some r.id := by rw [List.getElem?_map, hi]; rfl
    -- The record stands at the position exactly when it carries the id.
    have hiff : k = i ↔ r.id = id := by
      constructor
      · rintro rfl
        rw [hk, Option.some.injEq] at hid
        exact hid.symm
      · intro hr
        rw [hr, ← hk] at hid
        have hlt : k < (records.map (·.id)).length := (List.getElem?_eq_some_iff.mp hk).1
        exact (List.getElem?_inj hlt h).mp hid.symm
    simp only [hiff, Option.map_some, Option.map_eq_map]

/-- Changing the record of one screen is changing that screen, when the two changes
    say the same. -/
theorem screens_modifyScreen {w : Workspace} {p : Project}
    (hw : w.screens = p.screens.map Screen.record) (h : p.screenIds.Nodup) {id : ScreenId} {k : Nat}
    (hk : p.screenIds[k]? = some id) {f : ScreenRecord → ScreenRecord} {g : Screen → Screen}
    (hf : ∀ s ∈ p.screens, s.id = id → f s.record = (g s).record) :
    (w.modifyScreen k f).screens = (p.updateScreen id g).screens.map Screen.record := by
  have hids : (p.screens.map Screen.record).map (·.id) = p.screenIds := by
    rw [List.map_map]
    rfl
  rw [modifyScreen, hw, modify_eq_map (by rwa [hids]) (by rwa [hids]), Project.updateScreen,
    List.map_map, List.map_map]
  refine List.map_congr_left fun s hs => ?_
  simp only [Function.comp_apply]
  by_cases hid : s.id = id
  · rw [if_pos (show s.record.id = id from hid), if_pos hid, hf s hs hid]
  · rw [if_neg (show ¬s.record.id = id from hid), if_neg hid]

end Workspace

end PanelSketch
