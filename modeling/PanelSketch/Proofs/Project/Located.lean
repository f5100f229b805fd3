import PanelSketch.Proofs.Project.Keyed
import PanelSketch.Proofs.Project.Scanning

/-!
# Elements and Their Screens

Searches and changes in place, read off the list of elements with their screens.
Dropping an element filters the list, pushing one adds a pair to it, and putting
screens or elements into another order permutes it. Well-formedness and the maps
of a workspace both depend on that list alone, so both change in step with it.

## Theorems

* `screen?_eq_some`, `element?_eq_some`, `owner?_eq_some`: What searches find.
* `located_filterScreens`, `located_dropElement`, `located_push`,
  `located_updateElements`, `located_updateScreen_perm`: What happens to the
  elements and their screens.
* `elementIds_dropElement`, `elementIds_push`: What happens to the ids.
-/

namespace PanelSketch

namespace Project

variable {p p' : Project}

/-! ### Searches -/

theorem screen?_eq_some (h : p.screenIds.Nodup) {id : ScreenId} {s : Screen} :
    p.screen? id = some s ↔ s ∈ p.screens ∧ s.id = id :=
  find?_key_eq_some h

theorem screen?_eq_none {id : ScreenId} : p.screen? id = none ↔ id ∉ p.screenIds := by
  simp only [screen?, List.find?_eq_none, decide_eq_true_eq, mem_screenIds, not_exists, not_and]

theorem element?_eq_some (h : p.elementIds.Nodup) {id : ElementId} {e : Element} :
    p.element? id = some e ↔ e ∈ p.elements ∧ e.id = id :=
  find?_key_eq_some h

theorem element?_eq_none {id : ElementId} : p.element? id = none ↔ id ∉ p.elementIds := by
  simp only [element?, List.find?_eq_none, decide_eq_true_eq, elementIds, List.mem_map, not_exists,
    not_and]

theorem owner?_eq_some (h : p.WellFormed) {id : ElementId} {s : Screen} :
    p.owner? id = some s ↔ s ∈ p.screens ∧ id ∈ s.elementIds := by
  constructor
  · intro hs
    exact ⟨List.mem_of_find?_eq_some hs, by simpa only [decide_eq_true_eq] using List.find?_some hs⟩
  · rintro ⟨hs, hid⟩
    rcases hf : p.owner? id with _ | t
    · exact absurd hid (by simpa only [decide_eq_true_eq] using List.find?_eq_none.mp hf s hs)
    · have ht : id ∈ t.elementIds := by simpa only [decide_eq_true_eq] using List.find?_some hf
      rcases List.mem_map.mp hid with ⟨e, he, rfl⟩
      have hids := (h.mem_elementIds_iff_screen (mem_located.mpr ⟨s, hs, rfl, he⟩)
        (List.mem_of_find?_eq_some hf)).mp ht
      rw [h.eq_of_screenId (List.mem_of_find?_eq_some hf) hs hids]

theorem owner?_eq_none {id : ElementId} : p.owner? id = none ↔ id ∉ p.elementIds := by
  simp only [owner?, List.find?_eq_none, decide_eq_true_eq, mem_elementIds, not_exists, not_and]

/-- Where an element is found, its owner is found as well. -/
theorem exists_owner (h : p.WellFormed) {id : ElementId} (hid : id ∈ p.elementIds) :
    ∃ s e, p.owner? id = some s ∧ p.element? id = some e ∧ s ∈ p.screens ∧ e ∈ s.elements
      ∧ e.id = id := by
  rcases mem_elementIds.mp hid with ⟨s, hs, hmem⟩
  rcases List.mem_map.mp hmem with ⟨e, he, rfl⟩
  exact ⟨s, e, (owner?_eq_some h).mpr ⟨hs, hmem⟩, (element?_eq_some h.elements.nodup).mpr
    ⟨List.mem_flatMap.mpr ⟨s, hs, he⟩, rfl⟩, hs, he, rfl⟩

/-- The owner found has the element found. -/
theorem mem_owner (h : p.WellFormed) {id : ElementId} {s : Screen} {e : Element}
    (ho : p.owner? id = some s) (he : p.element? id = some e) : e ∈ s.elements := by
  rcases (owner?_eq_some h).mp ho with ⟨hs, hid⟩
  rcases (element?_eq_some h.elements.nodup).mp he with ⟨hmem, rfl⟩
  rcases List.mem_map.mp hid with ⟨d, hd, hde⟩
  have heq : d = e := List.inj_on_of_nodup_map h.elements.nodup
    (List.mem_flatMap.mpr ⟨s, hs, hd⟩) hmem hde
  rw [← heq]
  exact hd

/-! ### Elements and their screens after a change -/

theorem map_id_map {screens : List Screen} {change : Screen → Screen}
    (hc : ∀ s, (change s).id = s.id) : (screens.map change).map (·.id) = screens.map (·.id) := by
  rw [List.map_map]
  exact List.map_congr_left fun s _ => hc s

theorem screenIds_addScreen (p : Project) (name? : Option String) :
    (p.addScreen name?).2.screenIds = p.screenIds ++ [(p.addScreen name?).1.id] := by
  rw [screenIds, addScreen, List.map_append, List.map_singleton]
  rfl

theorem screenIds_dropElement (p : Project) (id : ElementId) :
    (p.dropElement id).screenIds = p.screenIds :=
  map_id_map fun _ => rfl

theorem screenIds_updateElements (p : Project) (change : Element → Element) :
    (p.updateElements change).screenIds = p.screenIds :=
  map_id_map fun _ => rfl

theorem screenIds_updateScreen {id : ScreenId} {change : Screen → Screen}
    (hc : ∀ s, s.id = id → (change s).id = id) :
    (p.updateScreen id change).screenIds = p.screenIds := by
  refine map_id_map fun s => ?_
  by_cases hs : s.id = id
  · rw [if_pos hs, hc s hs, hs]
  · rw [if_neg hs]

theorem screenIds_push (p : Project) (id : ScreenId) (e : Element) :
    (p.updateScreen id (·.push e)).screenIds = p.screenIds :=
  screenIds_updateScreen fun _ hs => hs

/-- Taking a screen away takes its elements away. -/
theorem located_filterScreens (p : Project) (id : ScreenId) :
    ({ p with screens := p.screens.filter (·.id ≠ id) } : Project).located
      = p.located.filter (·.1 ≠ id) := by
  rw [located, located]
  induction p.screens with
  | nil => rfl
  | cons s screens ih =>
      rw [List.flatMap_cons, List.filter_append, ← ih]
      by_cases hs : s.id = id
      · have hown : (s.elements.map fun e => (s.id, e)).filter (·.1 ≠ id) = [] :=
          List.filter_eq_nil_iff.mpr (by simp [hs])
        rw [hown, List.filter_cons_of_neg (by simpa using hs), List.nil_append]
      · have hown : (s.elements.map fun e => (s.id, e)).filter (·.1 ≠ id)
            = s.elements.map fun e => (s.id, e) :=
          List.filter_eq_self.mpr (by simp [hs])
        rw [hown, List.filter_cons_of_pos (by simpa using hs), List.flatMap_cons]

theorem located_dropElement (p : Project) (id : ElementId) :
    (p.dropElement id).located = p.located.filter (·.2.id ≠ id) := by
  rw [located, located, dropElement, List.flatMap_map, List.filter_flatMap]
  refine List.flatMap_congr fun s _ => ?_
  rw [List.filter_map]
  rfl

theorem located_updateElements (p : Project) (change : Element → Element) :
    (p.updateElements change).located = p.located.map fun l => (l.1, change l.2) := by
  rw [located, located, updateElements, List.flatMap_map, List.map_flatMap]
  refine List.flatMap_congr fun s _ => ?_
  rw [List.map_map, List.map_map]
  rfl

theorem located_updateScreen_perm {id : ScreenId} {change : Screen → Screen}
    (hid : ∀ s, s.id = id → (change s).id = id)
    (hc : ∀ s ∈ p.screens, s.id = id → (change s).elements.Perm s.elements) :
    (p.updateScreen id change).located.Perm p.located := by
  rw [located, located, updateScreen, List.flatMap_map]
  refine List.Perm.flatMap_left _ fun s hs => ?_
  by_cases hs' : s.id = id
  · rw [if_pos hs', hid s hs', hs']
    exact (hc s hs hs').map _
  · rw [if_neg hs']

theorem located_push (hn : p.screenIds.Nodup) {id : ScreenId} (hid : id ∈ p.screenIds)
    (e : Element) : (p.updateScreen id (·.push e)).located.Perm (p.located ++ [(id, e)]) := by
  rcases mem_screenIds.mp hid with ⟨s, hs, rfl⟩
  rcases List.append_of_mem hs with ⟨front, back, hsplit⟩
  rw [screenIds, hsplit] at hn
  rw [located, located, updateScreen, hsplit, map_update_split hn (·.push e)]
  simp only [List.flatMap_append, List.flatMap_cons, Screen.push, List.map_append, List.map_cons,
    List.map_nil, List.append_assoc, List.singleton_append]
  -- The screens behind the one that grows come after its new element.
  refine List.Perm.append_left _ (List.Perm.append_left _ ?_)
  exact (List.perm_append_singleton (s.id, e) _).symm

theorem elementIds_perm (h : p'.located.Perm p.located) : p'.elementIds.Perm p.elementIds := by
  rw [elementIds_eq_located, elementIds_eq_located]
  exact h.map _

theorem elementIds_dropElement (p : Project) (id : ElementId) :
    (p.dropElement id).elementIds = p.elementIds.filter (· ≠ id) := by
  rw [elementIds_eq_located, elementIds_eq_located, located_dropElement, List.filter_map]
  rfl

theorem elementIds_updateElements {change : Element → Element} (hc : ∀ e, (change e).id = e.id)
    (p : Project) : (p.updateElements change).elementIds = p.elementIds := by
  rw [elementIds_eq_located, elementIds_eq_located, located_updateElements, List.map_map]
  exact List.map_congr_left fun l _ => hc l.2

theorem elementIds_push (hn : p.screenIds.Nodup) {id : ScreenId} (hid : id ∈ p.screenIds)
    (e : Element) : (p.updateScreen id (·.push e)).elementIds.Perm (p.elementIds ++ [e.id]) := by
  rw [elementIds_eq_located, elementIds_eq_located]
  simpa only [List.map_append, List.map_singleton] using (located_push hn hid e).map (·.2.id)

theorem forgetAsset_id (name : String) (s : Screen) : (forgetAsset name s).id = s.id := by
  unfold forgetAsset
  split
  · rfl
  · rfl

theorem elementIds_forgetAsset (name : String) (s : Screen) :
    (forgetAsset name s).elementIds = s.elementIds := by
  have hmap : (s.elements.map fun e =>
      if e.asset = some name then { e with asset := none } else e).map (·.id)
        = s.elements.map (·.id) := by
    rw [List.map_map]
    refine List.map_congr_left fun e _ => ?_
    simp only [Function.comp_apply]
    split
    · rfl
    · rfl
  unfold forgetAsset
  split
  · exact hmap
  · exact hmap

end Project

end PanelSketch
