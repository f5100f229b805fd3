import PanelSketch.Proofs.Project.Located
import PanelSketch.Proofs.Workspace.Indexed

/-!
# Places in a Workspace

What an operation asks of a workspace before it changes anything, for the
workspace that holds a project: where a screen stands and what is left of the
list without it, which screen an element is on, and where that screen stands.
And what a map of the elements becomes when one of them is taken out or put in,
as a change of the list of elements with their screens.

## Main definitions

* `Workspace.scanned`: The outcome that scanning the project describes.

## Theorems

* `Workspace.exists_position`, `Workspace.exists_place`: Where a screen and an
  element stand.
* `Workspace.positions_reposition`, `Workspace.positions_eq`: The positions after
  a change.
* `Workspace.table_located`, `Workspace.insert_located`, `Workspace.erase_located`:
  The maps after a change.
-/

namespace PanelSketch

namespace Workspace

variable {p : Project}

/-- What an operation on the workspace of a project comes to when scanning the project
    leaves a project, or finds that there is nothing to be done. -/
def scanned (p : Project) (result : Option Project) : Bool × Workspace :=
  (result.isSome, ofProject (result.getD p))

/-! ### Screens -/

/-- The position of a screen that is found, what stands there, and what is left of
    the list without it. -/
theorem exists_position (h : p.screenIds.Nodup) {id : ScreenId} {s : Screen}
    (hs : p.screen? id = some s) :
    ∃ k, (ofProject p).placement.position? id = some k ∧ p.screenIds[k]? = some id
      ∧ (ofProject p).screens[k]? = some s.record
      ∧ (ofProject p).screens.eraseIdx k = (p.screens.filter (·.id ≠ id)).map Screen.record := by
  rcases (Project.screen?_eq_some h).mp hs with ⟨hmem, rfl⟩
  rcases List.append_of_mem hmem with ⟨front, back, hsplit⟩
  have hk : p.screenIds[front.length]? = some s.id := by
    rw [Project.screenIds, hsplit, List.getElem?_map, List.getElem?_append_right (Nat.le_refl _),
      Nat.sub_self]
    rfl
  refine ⟨front.length, (position?_ofProject h).mpr hk, hk, ?_, ?_⟩
  · rw [ofProject, List.getElem?_map, hsplit, List.getElem?_append_right (Nat.le_refl _),
      Nat.sub_self]
    rfl
  · rw [Project.screenIds, hsplit] at h
    rw [ofProject, hsplit, filter_split h, List.eraseIdx_map,
      List.eraseIdx_append_of_length_le (Nat.le_refl _), Nat.sub_self]
    rfl

theorem mem_positions_keys (p : Project) (id : ScreenId) :
    id ∈ (ofProject p).placement.positions.keys ↔ id ∈ p.screenIds := by
  rw [Std.ExtTreeMap.mem_keys, ofProject, mem_table, List.zipIdx_map_fst]

/-- Repositioning a workspace numbers the screens that it holds. -/
theorem positions_reposition {w : Workspace} {screens : List Screen}
    (h : w.screens = screens.map Screen.record) :
    w.reposition.placement.positions = table (screens.map (·.id)).zipIdx := by
  have hids : w.screenIds = screens.map (·.id) := by
    rw [screenIds, h, List.map_map]
    rfl
  rw [← hids, ← positionsOf_eq_table]
  rfl

theorem positions_eq {q : Project} (h : q.screenIds = p.screenIds) :
    (ofProject p).placement.positions = table q.screenIds.zipIdx := by
  rw [h]
  rfl

/-! ### Elements -/

/-- An element that is found, the screen it is found on, and where that is. -/
theorem exists_place (h : p.WellFormed) {id : ElementId} (hid : id ∈ p.elementIds) :
    ∃ s e k, p.owner? id = some s ∧ p.element? id = some e
      ∧ s ∈ p.screens ∧ e ∈ s.elements ∧ e.id = id
      ∧ (ofProject p).placement.owner? id = some s.id
      ∧ (ofProject p).placement.position? s.id = some k ∧ p.screenIds[k]? = some s.id := by
  rcases Project.exists_owner h hid with ⟨s, e, howner, helement, hs, he, rfl⟩
  have hmem : s.id ∈ p.screenIds := List.mem_map_of_mem hs
  rcases List.mem_iff_getElem?.mp hmem with ⟨k, hk⟩
  exact ⟨s, e, k, howner, helement, hs, he, rfl,
    (owner?_ofProject h.elements.nodup).mpr ⟨e, Project.mem_located.mpr ⟨s, hs, rfl, he⟩, rfl⟩,
    (position?_ofProject h.screens.nodup).mpr hk, hk⟩

theorem owner?_eq_none {id : ElementId} (h : id ∉ p.elementIds) :
    (ofProject p).placement.owner? id = none := by
  rw [Placement.owner?, ofProject]
  refine getElem?_table_of_not_mem ?_
  rw [List.map_map]
  rwa [Project.elementIds_eq_located] at h

theorem mem_elements_keys (p : Project) (id : ElementId) :
    id ∈ (ofProject p).elements.keys ↔ id ∈ p.elementIds := by
  rw [Std.ExtTreeMap.mem_keys, mem_elements_ofProject]

/-- A map of what is located does not depend on the order. -/
theorem table_located {α : Type} {q : Project} (h : p.elementIds.Nodup)
    (hlocated : q.located.Perm p.located) (f : ScreenId × Element → α) :
    table (p.located.map fun l => (l.2.id, f l)) = table (q.located.map fun l => (l.2.id, f l)) :=
  table_perm (hlocated.symm.map _) (pairs_nodup h f)

/-- Inserting into a map of what is located is replacing what is located under the
    id, wherever the new place is in the list. -/
theorem insert_located {α : Type} {q : Project} (hn : p.elementIds.Nodup) {screen : ScreenId}
    {e : Element} (h : q.located.Perm (p.located.filter (·.2.id ≠ e.id) ++ [(screen, e)]))
    (f : ScreenId × Element → α) :
    (table (p.located.map fun l => (l.2.id, f l))).insert e.id (f (screen, e))
      = table (q.located.map fun l => (l.2.id, f l)) := by
  have hpairs : (q.located.map fun l => (l.2.id, f l)).Perm
      ((p.located.map fun l => (l.2.id, f l)).filter (·.1 ≠ e.id) ++ [(e.id, f (screen, e))]) := by
    rw [List.filter_map]
    exact (h.map fun l => (l.2.id, f l)).trans (List.Perm.of_eq List.map_append)
  rw [insert_table]
  exact table_perm hpairs.symm (keys_filter_concat_nodup (pairs_nodup hn f) _ _)

theorem erase_located {α : Type} (p : Project) (id : ElementId) (f : ScreenId × Element → α) :
    (table (p.located.map fun l => (l.2.id, f l))).erase id
      = table ((p.dropElement id).located.map fun l => (l.2.id, f l)) := by
  rw [erase_table, Project.located_dropElement, List.filter_map]
  rfl

end Workspace

end PanelSketch
