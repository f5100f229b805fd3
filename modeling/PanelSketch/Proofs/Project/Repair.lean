import PanelSketch.Proofs.Project.WellFormed
import PanelSketch.Proofs.Workspace.Register
import PanelSketch.Proofs.Workspace.Renaming

/-!
# Repairing a Project

What loading does to a project, said for the nested project. Ids are entered in a
register for each sort, in reading order; screens and elements are then put under
the ids they got, and references follow the assets. A project without a screen
gets one, and an active screen or a selection that does not exist is replaced.

Whatever a file holds, the repaired project is well-formed. And a project that is
well-formed is not touched: each of the repairs looks for something that a
well-formed project does not have.

## Main definitions

* `Project.enteredScreens`, `enteredElements`: The ids that are entered.
* `Project.relabelled`: A project under these ids.
* `Project.repaired`: The project as it is loaded.

## Theorems

* `Project.screenIds_relabelled`, `elementIds_relabelled`: Relabelling gives every
  screen and element the id it got.
* `Project.wellFormed_repaired`: Repairing makes a project well-formed.
* `Project.repaired_eq_self`: A well-formed project is not touched.
-/

namespace PanelSketch

/-- An element under an id, with its reference following the assets. -/
def Element.relabel (r : Renaming) (id : ElementId) (e : Element) : Element :=
  { e with id, asset := r.follow e.asset }

/-- A screen under an id, with its elements under theirs. -/
def Screen.relabel (r : Renaming) (id : ScreenId) (ids : List ElementId) (s : Screen) : Screen :=
  { s with
    id
    backgroundAsset := r.follow s.backgroundAsset
    elements := ids.zipWith (Element.relabel r) s.elements }

namespace Project

/-- Screens under ids, each with as many of the element ids as it has elements. -/
def relabelScreens (r : Renaming) : List ScreenId → List ElementId → List Screen → List Screen
  | id :: screenIds, elementIds, s :: screens =>
    s.relabel r id (elementIds.take s.elements.length)
      :: relabelScreens r screenIds (elementIds.drop s.elements.length) screens
  | _, _, _ => []

/-- The ids that the screens are entered under, and the register after them. -/
def enteredScreens (p : Project) : List ScreenId × Register :=
  (Register.mk [] p.numbering.screens).enterAll screenStem p.screenIds p.screenIds

/-- The ids that the elements are entered under, and the register after them. -/
def enteredElements (p : Project) : List ElementId × Register :=
  (Register.mk [] p.numbering.elements).enterAll elementStem p.elementIds p.elementIds

/-- A project under the ids and the asset names that loading gives. -/
def relabelled (p : Project) : Project :=
  let r := Renaming.ofAssets p.assets
  { p with
    screens := relabelScreens r p.enteredScreens.1 p.enteredElements.1 p.screens
    assets := r.assets
    elementSeq := p.enteredElements.2.counter.next
    screenSeq := p.enteredScreens.2.counter.next }

/-- A first screen when there is none. -/
def ensureScreen (p : Project) : Project :=
  let (screens, counter) :=
    if p.screens.isEmpty then
      let (id, counter) := p.counters.screens.issue screenStem []
      ([Screen.new id "Home"], counter)
    else (p.screens, p.counters.screens)
  { p with screens, screenSeq := counter.next }

/-- An active screen that exists, and a selection that exists or none. -/
def refocus (p : Project) : Project :=
  { p with
    active := if p.active ∈ p.screenIds then p.active else p.screenIds.headD p.active
    selected := p.selected.filter (· ∈ p.elementIds) }

/-- A project as it is loaded. -/
def repaired (p : Project) : Project :=
  p.relabelled.ensureScreen.refocus

theorem ensureScreen_of_nil {p : Project} (h : p.screens = []) :
    p.ensureScreen = { p with
      screens := [Screen.new (p.counters.screens.issue screenStem []).1 "Home"]
      screenSeq := (p.counters.screens.issue screenStem []).2.next } := by
  rw [ensureScreen, h, if_pos List.isEmpty_nil]

theorem ensureScreen_eq_self {p : Project} (h : p.screens ≠ []) : p.ensureScreen = p := by
  rw [ensureScreen, if_neg fun hempty => h (List.isEmpty_iff.mp hempty)]
  rfl

/-! ### Counters before loading -/

/-- Each sort of ids is seen by its own counter. -/
theorem numbering_eq (p : Project) :
    p.numbering = ⟨(Counter.start p.elementSeq).observeAll elementStem p.elementIds,
      (Counter.start p.screenSeq).observeAll screenStem p.screenIds⟩ := by
  -- The two counters are seen in one pass, and none looks at the ids of the other sort.
  have helements : ∀ (es : List Element) (n : Numbering),
      es.foldl (fun n e => n.observeElement e.id) n
        = { n with elements := n.elements.observeAll elementStem (es.map (·.id)) } := by
    intro es
    induction es with
    | nil => exact fun _ => rfl
    | cons e es ih => exact fun n => ih (n.observeElement e.id)
  have hscreens : ∀ (ss : List Screen) (n : Numbering),
      ss.foldl (fun n s => s.elements.foldl (fun n e => n.observeElement e.id)
          (n.observeScreen s.id)) n
        = ⟨n.elements.observeAll elementStem (ss.flatMap Screen.elementIds),
          n.screens.observeAll screenStem (ss.map (·.id))⟩ := by
    intro ss
    induction ss with
    | nil => exact fun _ => rfl
    | cons s ss ih =>
        intro n
        rw [List.foldl_cons, ih, helements, List.flatMap_cons, Counter.observeAll,
          Counter.observeAll, Counter.observeAll, Counter.observeAll, List.foldl_append]
        rfl
  rw [elementIds_eq_flatMap, numbering, hscreens]
  rfl

theorem sound_enteredScreens (p : Project) :
    p.enteredScreens.2.Sound screenStem p.screenIds := by
  rw [enteredScreens, numbering_eq]
  exact (Register.sound_observeAll screenStem p.screenIds p.screenSeq).enterAll (List.Subset.refl _)

theorem sound_enteredElements (p : Project) :
    p.enteredElements.2.Sound elementStem p.elementIds := by
  rw [enteredElements, numbering_eq]
  exact (Register.sound_observeAll elementStem p.elementIds p.elementSeq).enterAll
    (List.Subset.refl _)

/-! ### Relabelling -/

theorem ids_relabel {r : Renaming} {ids : List ElementId} {es : List Element}
    (h : ids.length = es.length) : (ids.zipWith (Element.relabel r) es).map (·.id) = ids := by
  induction ids generalizing es with
  | nil => rfl
  | cons id ids ih =>
      rcases es with _ | ⟨e, es⟩
      · exact absurd h (Nat.succ_ne_zero _)
      · rw [List.zipWith_cons_cons, List.map_cons, ih (Nat.succ.inj h)]
        rfl

theorem screenIds_relabelScreens {r : Renaming} {screenIds : List ScreenId}
    {elementIds : List ElementId} {screens : List Screen} (h : screenIds.length = screens.length) :
    (relabelScreens r screenIds elementIds screens).map (·.id) = screenIds := by
  induction screens generalizing screenIds elementIds with
  | nil =>
      rw [List.length_eq_zero_iff.mp h]
      rfl
  | cons s screens ih =>
      rcases screenIds with _ | ⟨id, screenIds⟩
      · exact absurd h (Nat.succ_ne_zero _).symm
      · rw [relabelScreens, List.map_cons, ih (Nat.succ.inj h)]
        rfl

theorem elementIds_relabelScreens {r : Renaming} {screenIds : List ScreenId}
    {elementIds : List ElementId} {screens : List Screen} (hs : screenIds.length = screens.length)
    (he : elementIds.length = (screens.flatMap Screen.elementIds).length) :
    (relabelScreens r screenIds elementIds screens).flatMap Screen.elementIds = elementIds := by
  induction screens generalizing screenIds elementIds with
  | nil =>
      rw [List.length_eq_zero_iff.mp he, List.length_eq_zero_iff.mp hs]
      rfl
  | cons s screens ih =>
      rcases screenIds with _ | ⟨id, screenIds⟩
      · exact absurd hs (Nat.succ_ne_zero _).symm
      · rw [List.flatMap_cons, List.length_append, Screen.elementIds, List.length_map] at he
        -- A screen takes as many ids as it has elements, so the next one starts behind them.
        have hown : (s.relabel r id (elementIds.take s.elements.length)).elementIds
            = elementIds.take s.elements.length :=
          ids_relabel (by rw [List.length_take, he, Nat.min_eq_left (Nat.le_add_right _ _)])
        have hrest := @ih screenIds (elementIds.drop s.elements.length) (Nat.succ.inj hs)
          (by rw [List.length_drop, he, Nat.add_sub_cancel_left])
        rw [relabelScreens, List.flatMap_cons, hown, hrest, List.take_append_drop]

theorem screenIds_relabelled (p : Project) : p.relabelled.screenIds = p.enteredScreens.1 :=
  screenIds_relabelScreens (by
    rw [enteredScreens, Register.length_enterAll, screenIds, List.length_map])

theorem elementIds_relabelled (p : Project) : p.relabelled.elementIds = p.enteredElements.1 := by
  rw [elementIds_eq_flatMap]
  refine elementIds_relabelScreens ?_ ?_
  · rw [enteredScreens, Register.length_enterAll, screenIds, List.length_map]
  · rw [enteredElements, Register.length_enterAll, elementIds_eq_flatMap]

theorem governs_screenIds_relabelled (p : Project) :
    p.relabelled.counters.screens.Governs screenStem p.relabelled.screenIds := by
  have h := (sound_enteredScreens p).governs
  rw [enteredScreens, Register.seen_enterAll, List.nil_append] at h
  rw [screenIds_relabelled]
  exact h

theorem governs_elementIds_relabelled (p : Project) :
    p.relabelled.counters.elements.Governs elementStem p.relabelled.elementIds := by
  have h := (sound_enteredElements p).governs
  rw [enteredElements, Register.seen_enterAll, List.nil_append] at h
  rw [elementIds_relabelled]
  exact h

/-! ### Repairing -/

/-- A project whose ids are governed and whose assets are named well is only short
    of screens to show. -/
theorem wellFormed_refocus {p : Project} (hne : p.screens ≠ [])
    (hs : p.counters.screens.Governs screenStem p.screenIds)
    (he : p.counters.elements.Governs elementStem p.elementIds)
    (hid : ∀ a ∈ p.assets, Text.identifier a.name "asset" = a.name) (hn : p.assetNames.Nodup) :
    p.refocus.WellFormed where
  screens_ne_nil := hne
  screens := hs
  elements := he
  active_mem := by
    by_cases hactive : p.active ∈ p.screenIds
    · rw [show p.refocus.active = p.active from if_pos hactive]
      exact hactive
    · rw [show p.refocus.active = p.screenIds.headD p.active from if_neg hactive]
      rcases hscreens : p.screens with _ | ⟨s, screens⟩
      · exact absurd hscreens hne
      · rw [show p.screenIds = s.id :: screens.map (·.id) by rw [screenIds, hscreens]; rfl]
        exact mem_screenIds.mpr ⟨s, hscreens ▸ List.mem_cons_self, rfl⟩
  selected_mem id hsel := of_decide_eq_true (Option.filter_eq_some_iff.mp hsel).2
  assets_identifier := hid
  assetNames_nodup := hn

theorem wellFormed_repaired (p : Project) : p.repaired.WellFormed := by
  have hs := governs_screenIds_relabelled p
  have he := governs_elementIds_relabelled p
  have hid : ∀ a ∈ p.relabelled.assets, Text.identifier a.name "asset" = a.name :=
    Renaming.identifier_ofAssets
  have hn : p.relabelled.assetNames.Nodup := Renaming.names_ofAssets_nodup p.assets
  rw [repaired]
  by_cases hscreens : p.relabelled.screens = []
  · -- The new screen is the only one, and there is no element.
    have hids : p.relabelled.screenIds = [] := by rw [screenIds, hscreens, List.map_nil]
    have helements : p.relabelled.elementIds = [] := by
      rw [elementIds_eq_flatMap, hscreens, List.flatMap_nil]
    rw [hids] at hs
    rw [helements] at he
    rw [ensureScreen_of_nil hscreens]
    exact wellFormed_refocus (List.cons_ne_nil _ _) (hs.issue (List.Subset.refl [])) he hid hn
  · rw [ensureScreen_eq_self hscreens]
    exact wellFormed_refocus hscreens hs he hid hn

/-! ### Projects that need no repair -/

theorem numbering_eq_counters {p : Project} (h : p.WellFormed) : p.numbering = p.counters := by
  have hs : (Counter.start p.screenSeq).observeAll screenStem p.screenIds = p.counters.screens := by
    rw [show p.screenSeq = p.counters.screens.next from rfl, Counter.start_eq_self h.screens.pos,
      Counter.observeAll_eq_self h.screens.ahead]
  have he : (Counter.start p.elementSeq).observeAll elementStem p.elementIds
      = p.counters.elements := by
    rw [show p.elementSeq = p.counters.elements.next from rfl, Counter.start_eq_self h.elements.pos,
      Counter.observeAll_eq_self h.elements.ahead]
  rw [numbering_eq, hs, he]

theorem enteredScreens_eq_self {p : Project} (h : p.WellFormed) :
    p.enteredScreens = (p.screenIds, ⟨p.screenIds, ⟨p.screenSeq⟩⟩) := by
  rw [enteredScreens, numbering_eq_counters h]
  exact Register.enterAll_eq_self h.screens.empty_not_mem h.screens.nodup

theorem enteredElements_eq_self {p : Project} (h : p.WellFormed) :
    p.enteredElements = (p.elementIds, ⟨p.elementIds, ⟨p.elementSeq⟩⟩) := by
  rw [enteredElements, numbering_eq_counters h]
  exact Register.enterAll_eq_self h.elements.empty_not_mem h.elements.nodup

theorem relabel_eq_self {r : Renaming} (h : r.renamed = []) (es : List Element) :
    (es.map (·.id)).zipWith (Element.relabel r) es = es := by
  induction es with
  | nil => rfl
  | cons e es ih =>
      rw [List.map_cons, List.zipWith_cons_cons, ih, Element.relabel, Renaming.follow_eq_self h]

theorem relabelScreens_eq_self {r : Renaming} (h : r.renamed = []) (screens : List Screen) :
    relabelScreens r (screens.map (·.id)) (screens.flatMap Screen.elementIds) screens
      = screens := by
  induction screens with
  | nil => rfl
  | cons s screens ih =>
      have hlength : s.elements.length = s.elementIds.length := (List.length_map _).symm
      rw [List.map_cons, List.flatMap_cons, relabelScreens, hlength, List.take_left, List.drop_left,
        ih, Screen.relabel, Renaming.follow_eq_self h, Screen.elementIds, relabel_eq_self h]

theorem relabelled_eq_self {p : Project} (h : p.WellFormed) : p.relabelled = p := by
  -- No asset is renamed, so no reference moves, and no id is entered under another name.
  rcases Renaming.ofAssets_eq_self h.assets_identifier h.assetNames_nodup with ⟨hassets, hrenamed⟩
  have hscreens := relabelScreens_eq_self hrenamed p.screens
  simp only [relabelled, enteredScreens_eq_self h, enteredElements_eq_self h, hassets]
  rw [elementIds_eq_flatMap, screenIds, hscreens]

/-- A well-formed project is not touched. -/
theorem repaired_eq_self {p : Project} (h : p.WellFormed) : p.repaired = p := by
  have hselected : p.selected.filter (· ∈ p.elementIds) = p.selected := by
    rcases hsel : p.selected with _ | id
    · rfl
    · rw [Option.filter_some, if_pos (decide_eq_true (h.selected_mem id hsel))]
  rw [repaired, relabelled_eq_self h, ensureScreen_eq_self h.screens_ne_nil, refocus,
    if_pos h.active_mem, hselected]

end Project

end PanelSketch
