import Mathlib.Data.List.Nodup
import Mathlib.Data.List.Perm.Subperm
import PanelSketch.Proofs.Text.Identifier
import PanelSketch.Proofs.Workspace.Numbering
import PanelSketch.Workspace.Basic

/-!
# Well-Formed Projects

A file may hold anything; a project that is being edited may not. This module
says what the editor relies on: some screen to show, ids that are not empty and
do not repeat, an active screen and a selection that exist, asset names that are
identifiers and do not repeat, and counters that are ahead of every id.

Most operations take something away, put it elsewhere, or change what carries no
id. What they leave is a part of the ids there were, in some order, and that is
all `WellFormed.of_subperm` asks for. Only the two operations that issue an id
need more.

The elements of a project are looked at together with the screens they are on.
`located` lists them in reading order, and every id, every owner and every
element can be read off it.

## Main definitions

* `Project.screenIds`, `elementIds`, `assetNames`: The names in a project.
* `Project.counters`: The counters a project carries.
* `Project.located`: The elements with the screens they are on.
* `Project.WellFormed`: What editing relies on.

## Theorems

* `WellFormed.of_subperm`: Taking away and putting elsewhere is harmless.
* `WellFormed.eq_of_screenId`, `WellFormed.eq_of_elementId`: Ids tell screens and
  elements apart.
* `WellFormed.mem_elementIds_iff_screen`: An id stands on one screen only.
-/

namespace PanelSketch

/-- The ids of the elements of a screen from back to front. -/
def Screen.elementIds (s : Screen) : List ElementId :=
  s.elements.map (·.id)

namespace Project

/-- The ids of the screens in display order. -/
def screenIds (p : Project) : List ScreenId :=
  p.screens.map (·.id)

/-- The ids of all elements in reading order. -/
def elementIds (p : Project) : List ElementId :=
  p.elements.map (·.id)

/-- The names of the assets in order. -/
def assetNames (p : Project) : List String :=
  p.assets.map (·.name)

/-- The counters that a project carries. -/
def counters (p : Project) : Numbering :=
  ⟨⟨p.elementSeq⟩, ⟨p.screenSeq⟩⟩

/-- The elements in reading order, each with the id of the screen it is on. -/
def located (p : Project) : List (ScreenId × Element) :=
  p.screens.flatMap fun s => s.elements.map fun e => (s.id, e)

/-- What editing relies on. -/
structure WellFormed (p : Project) : Prop where
  screens_ne_nil : p.screens ≠ []
  screens : p.counters.screens.Governs screenStem p.screenIds
  elements : p.counters.elements.Governs elementStem p.elementIds
  active_mem : p.active ∈ p.screenIds
  selected_mem : ∀ id, p.selected = some id → id ∈ p.elementIds
  assets_identifier : ∀ a ∈ p.assets, Text.identifier a.name "asset" = a.name
  assetNames_nodup : p.assetNames.Nodup

theorem elements_eq_located (p : Project) : p.elements = p.located.map (·.2) := by
  simp only [elements, located, List.map_flatMap, List.map_map, Function.comp_def, List.map_id']

theorem elementIds_eq_located (p : Project) : p.elementIds = p.located.map (·.2.id) := by
  rw [elementIds, elements_eq_located, List.map_map]
  rfl

theorem elementIds_eq_flatMap (p : Project) :
    p.elementIds = p.screens.flatMap Screen.elementIds := by
  rw [elementIds, elements, List.map_flatMap]
  rfl

theorem mem_located {p : Project} {id : ScreenId} {e : Element} :
    (id, e) ∈ p.located ↔ ∃ s ∈ p.screens, s.id = id ∧ e ∈ s.elements := by
  simp only [located, List.mem_flatMap, List.mem_map, Prod.mk.injEq]
  constructor
  · rintro ⟨s, hs, d, hd, hid, rfl⟩
    exact ⟨s, hs, hid, hd⟩
  · rintro ⟨s, hs, hid, he⟩
    exact ⟨s, hs, e, he, hid, rfl⟩

theorem mem_elementIds {p : Project} {id : ElementId} :
    id ∈ p.elementIds ↔ ∃ s ∈ p.screens, id ∈ s.elementIds := by
  rw [elementIds_eq_flatMap, List.mem_flatMap]

theorem mem_screenIds {p : Project} {id : ScreenId} :
    id ∈ p.screenIds ↔ ∃ s ∈ p.screens, s.id = id := by
  rw [screenIds, List.mem_map]

namespace WellFormed

variable {p p' : Project}

theorem eq_of_screenId (h : p.WellFormed) {s t : Screen} (hs : s ∈ p.screens) (ht : t ∈ p.screens)
    (hid : s.id = t.id) : s = t :=
  List.inj_on_of_nodup_map h.screens.nodup hs ht hid

theorem eq_of_elementId (h : p.WellFormed) {l m : ScreenId × Element} (hl : l ∈ p.located)
    (hm : m ∈ p.located) (hid : l.2.id = m.2.id) : l = m := by
  have hn := h.elements.nodup
  rw [elementIds_eq_located] at hn
  exact List.inj_on_of_nodup_map hn hl hm hid

theorem elementIds_nodup_screen (h : p.WellFormed) {s : Screen} (hs : s ∈ p.screens) :
    s.elementIds.Nodup := by
  have hn := h.elements.nodup
  rw [elementIds_eq_flatMap] at hn
  exact (List.nodup_flatMap.mp hn).1 s hs

/-- A screen has the id of an element exactly when the element stands there. -/
theorem mem_elementIds_iff_screen (h : p.WellFormed) {l : ScreenId × Element} (hl : l ∈ p.located)
    {t : Screen} (ht : t ∈ p.screens) : l.2.id ∈ t.elementIds ↔ t.id = l.1 := by
  constructor
  · intro hmem
    rcases List.mem_map.mp hmem with ⟨d, hd, hid⟩
    exact congrArg Prod.fst (h.eq_of_elementId (mem_located.mpr ⟨t, ht, rfl, hd⟩) hl hid)
  · intro hid
    rcases mem_located.mp hl with ⟨s, hs, hsid, he⟩
    rw [h.eq_of_screenId ht hs (hid.trans hsid.symm)]
    exact List.mem_map_of_mem he

/-- What is left of the ids after something is taken away or put elsewhere is
    well-formed, as long as it can still be shown. -/
theorem of_subperm (h : p.WellFormed) (hs : p'.screenIds.Subperm p.screenIds)
    (he : p'.elementIds.Subperm p.elementIds) (ha : p'.assetNames.Sublist p.assetNames)
    (hc : p'.counters = p.counters) (hactive : p'.active ∈ p'.screenIds)
    (hselected : ∀ id, p'.selected = some id → id ∈ p'.elementIds) : p'.WellFormed where
  screens_ne_nil := by
    -- The active screen is one.
    rcases mem_screenIds.mp hactive with ⟨s, hs, _⟩
    exact List.ne_nil_of_mem hs
  screens := hc ▸ h.screens.subperm hs
  elements := hc ▸ h.elements.subperm he
  active_mem := hactive
  selected_mem := hselected
  assets_identifier a hmem := by
    rcases List.mem_map.mp (ha.subset (List.mem_map_of_mem hmem)) with ⟨b, hb, hname⟩
    have := h.assets_identifier b hb
    rwa [hname] at this
  assetNames_nodup := h.assetNames_nodup.sublist ha

end WellFormed

end Project

end PanelSketch
