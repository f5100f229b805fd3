import PanelSketch.Proofs.Workspace.Indexed

/-!
# Sound Workspaces

What the parts of a workspace owe to each other. The lists of ids are the
authority: the store holds exactly the elements that they name, each under its
own id, and the placement is the one that they describe, so a position that is
looked up is a position of that screen. What is active and selected exists, and
assets can be told apart by names that a program accepts.

The workspace that holds a well-formed project is sound, which is all there is to
show for a workspace that has been reached by editing.

## Main definitions

* `Workspace.elementIds`: The ids that the screens list.
* `Workspace.Sound`: What the parts of a workspace owe to each other.

## Theorems

* `Workspace.sound_ofProject`: The workspace of a well-formed project is sound.
-/

namespace PanelSketch

namespace Workspace

/-- The ids of elements that the screens list, one screen after the other. -/
def elementIds (w : Workspace) : List ElementId :=
  w.screens.flatMap (·.elementIds)

/-- What the parts of a workspace owe to each other. -/
structure Sound (w : Workspace) : Prop where
  screens_ne_nil : w.screens ≠ []
  screenIds_nodup : w.screenIds.Nodup
  empty_not_mem_screenIds : "" ∉ w.screenIds
  elementIds_nodup : w.elementIds.Nodup
  empty_not_mem_elementIds : "" ∉ w.elementIds
  /-- The store holds the elements that are listed and no other. -/
  mem_elements : ∀ id : ElementId, id ∈ w.elements ↔ id ∈ w.elementIds
  /-- Elements are stored under their own ids. -/
  id_of_stored : ∀ (id : ElementId) (e : Element), w.elements[id]? = some e → e.id = id
  /-- Keeping the placement up to date gives what reading it off the lists gives. -/
  placement_eq : w.placement = w.describe
  /-- A position is one of the list, and the screen stands there. -/
  position? : ∀ (id : ScreenId) (k : Nat),
    w.placement.position? id = some k ↔ w.screenIds[k]? = some id
  active_mem : w.active ∈ w.screenIds
  selected_mem : ∀ id, w.selected = some id → id ∈ w.elements
  assets_identifier : ∀ a ∈ w.assets, Text.identifier a.name "asset" = a.name
  assetNames_nodup : (w.assets.map (·.name)).Nodup

theorem elementIds_ofProject (p : Project) : (ofProject p).elementIds = p.elementIds := by
  rw [Project.elementIds_eq_flatMap, elementIds, ofProject, List.flatMap_map]
  rfl

theorem sound_ofProject {p : Project} (h : p.WellFormed) : (ofProject p).Sound where
  screens_ne_nil hnil := h.screens_ne_nil (List.map_eq_nil_iff.mp hnil)
  screenIds_nodup := screenIds_ofProject p ▸ h.screens.nodup
  empty_not_mem_screenIds := screenIds_ofProject p ▸ h.screens.empty_not_mem
  elementIds_nodup := elementIds_ofProject p ▸ h.elements.nodup
  empty_not_mem_elementIds := elementIds_ofProject p ▸ h.elements.empty_not_mem
  mem_elements id := by rw [elementIds_ofProject, mem_elements_ofProject]
  id_of_stored id e he := ((getElem?_ofProject h.elements.nodup).mp he).2
  placement_eq := placement_ofProject p
  position? id k := by rw [screenIds_ofProject, position?_ofProject h.screens.nodup]
  active_mem := screenIds_ofProject p ▸ h.active_mem
  selected_mem id hid := mem_elements_ofProject.mpr (h.selected_mem id hid)
  assets_identifier := h.assets_identifier
  assetNames_nodup := h.assetNames_nodup

end Workspace

end PanelSketch
