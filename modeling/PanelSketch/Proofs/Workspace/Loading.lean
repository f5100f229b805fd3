import PanelSketch.Proofs.Project.Repair
import PanelSketch.Proofs.Workspace.Indexed

/-!
# Loading Is Repairing

Loading a project gives the workspace that holds the repaired project. Loading
builds the store and the lists of ids at the same time, one element after the
other, and renames what it cannot use on the way. Here the state that it has
reached is described by the screens it has entered: their records, a store with
their elements, and the two counters. One more element is one more pair in the
store, and one more screen is one more screen.

## Main definitions

* `Loading.after`: What has been loaded once some screens are entered.

## Theorems

* `Loading.addElements_eq`, `Loading.addScreen_after`: One screen's elements, and
  one screen.
* `Loading.foldl_addScreen_after`: The screens of a project.
* `Workspace.load_eq_ofProject`, `Workspace.project_load`: Loading a project.
-/

namespace PanelSketch

namespace Loading

/-- What has been loaded once some screens are entered. -/
def after (elements screens : Counter) (done : List Screen) : Loading :=
  { numbering := ⟨elements, screens⟩
    screens := done.map Screen.record
    elements := table ((done.flatMap (·.elements)).map fun e => (e.id, e)) }

variable {l : Loading} {known : List String}

/-- An element is entered in the register of the elements in the store. -/
theorem elementId_eq {before : List Element}
    (h : l.elements = table (before.map fun e => (e.id, e))) {id id' : ElementId} {reg : Register}
    (hentered : (Register.mk (before.map (·.id)) l.numbering.elements).enter elementStem known id
      = (id', reg)) :
    l.elementId known id = (id', { l.numbering with elements := reg.counter }) := by
  -- The keys of the store are the ids entered, though in another order.
  have hmem : ∀ k, k ∈ l.elements ↔ k ∈ before.map (·.id) := by
    intro k
    rw [h, mem_table, List.map_map]
    rfl
  have hkeys : ∀ k, k ∈ known ++ l.elements.keys ↔ k ∈ known ++ before.map (·.id) := by
    intro k
    rw [List.mem_append, List.mem_append, Std.ExtTreeMap.mem_keys, hmem]
  simp only [elementId, hmem]
  by_cases hnew : id.isEmpty ∨ id ∈ before.map (·.id)
  · rw [Register.enter_renamed hnew, Prod.mk.injEq] at hentered
    rw [if_pos hnew, Numbering.issueElement, Counter.issue_congr _ hkeys, ← hentered.1,
      ← hentered.2]
  · rw [Register.enter_kept hnew, Prod.mk.injEq] at hentered
    rw [if_neg hnew, ← hentered.1, ← hentered.2]

/-- The elements of a screen are entered in the register of the elements in the
    store, and added to the store under the ids they get. -/
theorem addElements_eq {before : List Element}
    (h : l.elements = table (before.map fun e => (e.id, e))) (r : Renaming) (es : List Element)
    {ids : List ElementId} {reg : Register}
    (hentered : (Register.mk (before.map (·.id)) l.numbering.elements).enterAll elementStem known
      (es.map (·.id)) = (ids, reg)) :
    l.addElements known r es
      = (ids, { l with
        numbering := { l.numbering with elements := reg.counter }
        elements :=
          table ((before ++ ids.zipWith (Element.relabel r) es).map fun e => (e.id, e)) }) := by
  induction es generalizing l before ids with
  | nil =>
      rw [List.map_nil, Register.enterAll, Prod.mk.injEq] at hentered
      rcases hentered with ⟨rfl, rfl⟩
      rw [addElements, List.zipWith_nil_right, List.append_nil, ← h]
  | cons e es ih =>
      -- The first element goes to the end of the store; the others are entered after it.
      let a := (Register.mk (before.map (·.id)) l.numbering.elements).enter elementStem known e.id
      let first := e.relabel r a.1
      let l' : Loading := { l with
        numbering := { l.numbering with elements := a.2.counter }
        elements := l.elements.insert a.1 first }
      have hadd : l.addElement known r e = (a.1, l') := by
        rw [addElement, elementId_eq h (Prod.ext rfl rfl : _ = (a.1, a.2))]
        rfl
      have hstore : l'.elements = table ((before ++ [first]).map fun e => (e.id, e)) := by
        rw [List.map_append, List.map_singleton, table_concat, ← h]
        rfl
      have hreg : Register.mk ((before ++ [first]).map (·.id)) l'.numbering.elements = a.2 := by
        rw [List.map_append, List.map_singleton]
        rfl
      rw [List.map_cons, Register.enterAll, Prod.mk.injEq] at hentered
      rcases hentered with ⟨rfl, hreg'⟩
      have hrest := ih hstore (by rw [hreg]; exact Prod.ext rfl hreg')
      rw [addElements, hadd]
      simp only [hrest, List.zipWith_cons_cons, List.append_assoc, List.singleton_append]
      rfl

/-- A screen is entered in the register of the screens before it. -/
theorem screenId_after {elements screens : Counter} {done : List Screen} {id id' : ScreenId}
    {reg : Register}
    (h : (Register.mk (done.map (·.id)) screens).enter screenStem known id = (id', reg)) :
    (after elements screens done).screenId known id = (id', ⟨elements, reg.counter⟩) := by
  have hplaced : (after elements screens done).screens.map (·.id) = done.map (·.id) := by
    rw [after, List.map_map]
    rfl
  simp only [screenId, hplaced]
  by_cases hnew : id.isEmpty ∨ id ∈ done.map (·.id)
  · rw [Register.enter_renamed hnew, Prod.mk.injEq] at h
    rw [if_pos hnew, ← h.1, ← h.2]
    rfl
  · rw [Register.enter_kept hnew, Prod.mk.injEq] at h
    rw [if_neg hnew, ← h.1, ← h.2]
    rfl

theorem elementIds_relabel_of_enterAll (r : Renaming) (id : ScreenId) {s : Screen}
    {ids : List ElementId} {reg reg' : Register}
    (h : reg.enterAll elementStem known s.elementIds = (ids, reg')) :
    (s.relabel r id ids).elementIds = ids := by
  have hlength := Register.length_of_enterAll h
  rw [Screen.elementIds, List.length_map] at hlength
  exact Project.ids_relabel hlength

theorem addScreen_after {knownScreens : List ScreenId} {knownElements : List ElementId}
    (r : Renaming) {elements screens : Counter} {done : List Screen} {s : Screen} {id : ScreenId}
    {ids : List ElementId} {sreg ereg : Register}
    (hs : (Register.mk (done.map (·.id)) screens).enter screenStem knownScreens s.id = (id, sreg))
    (he : (Register.mk (done.flatMap Screen.elementIds) elements).enterAll elementStem knownElements
      s.elementIds = (ids, ereg)) :
    (after elements screens done).addScreen knownScreens knownElements r s
      = after ereg.counter sreg.counter (done ++ [s.relabel r id ids]) := by
  -- The id of the screen is entered first, and its elements by the loading after that.
  let l : Loading := { after elements screens done with numbering := ⟨elements, sreg.counter⟩ }
  have hid : (after elements screens done).screenId knownScreens s.id = (id, l.numbering) :=
    screenId_after hs
  have hstore : l.elements = table ((done.flatMap (·.elements)).map fun e => (e.id, e)) := rfl
  have hentered : (Register.mk ((done.flatMap (·.elements)).map (·.id)) elements).enterAll
      elementStem knownElements (s.elements.map (·.id)) = (ids, ereg) := by
    rw [List.map_flatMap]
    exact he
  have hadd := addElements_eq hstore r s.elements hentered
  have hids : (s.relabel r id ids).elementIds = ids := elementIds_relabel_of_enterAll r id he
  have hrecords : (done ++ [s.relabel r id ids]).map Screen.record = done.map Screen.record ++
      [{ s.info with
          id, backgroundAsset := r.follow s.backgroundAsset, elementIds := ids }] := by
    rw [List.map_append, List.map_singleton, Screen.record, hids]
    rfl
  have hlast : (done ++ [s.relabel r id ids]).flatMap (·.elements)
      = done.flatMap (·.elements) ++ ids.zipWith (Element.relabel r) s.elements := by
    rw [List.flatMap_append, List.flatMap_singleton]
    rfl
  simp only [addScreen, hid]
  rw [show { after elements screens done with numbering := l.numbering } = l from rfl, hadd, after,
    hlast, hrecords]
  rfl

/-- The screens of a project are entered in the two registers. -/
theorem foldl_addScreen_after {knownScreens : List ScreenId} {knownElements : List ElementId}
    (r : Renaming) {elements screens : Counter} {done : List Screen} {rest : List Screen}
    {sids : List ScreenId} {eids : List ElementId} {sreg ereg : Register}
    (hs : (Register.mk (done.map (·.id)) screens).enterAll screenStem knownScreens (rest.map (·.id))
      = (sids, sreg))
    (he : (Register.mk (done.flatMap Screen.elementIds) elements).enterAll elementStem knownElements
      (rest.flatMap Screen.elementIds) = (eids, ereg)) :
    rest.foldl (addScreen knownScreens knownElements r) (after elements screens done)
      = after ereg.counter sreg.counter (done ++ Project.relabelScreens r sids eids rest) := by
  induction rest generalizing elements screens done sids eids with
  | nil =>
      rw [List.map_nil, Register.enterAll, Prod.mk.injEq] at hs
      rw [List.flatMap_nil, Register.enterAll, Prod.mk.injEq] at he
      rcases hs with ⟨rfl, rfl⟩
      rcases he with ⟨rfl, rfl⟩
      rw [List.foldl_nil, Project.relabelScreens.eq_def, List.append_nil]
  | cons s rest ih =>
      rw [List.map_cons, Register.enterAll] at hs
      rw [List.flatMap_cons, Register.enterAll_append] at he
      rcases hid : (Register.mk (done.map (·.id)) screens).enter screenStem knownScreens s.id
        with ⟨id, sreg'⟩
      rcases hids : (Register.mk (done.flatMap Screen.elementIds) elements).enterAll elementStem
        knownElements s.elementIds with ⟨ids, ereg'⟩
      rcases hsids : sreg'.enterAll screenStem knownScreens (rest.map (·.id)) with ⟨sids', sreg''⟩
      rcases heids : ereg'.enterAll elementStem knownElements (rest.flatMap Screen.elementIds)
        with ⟨eids', ereg''⟩
      simp only [hid, hsids, Prod.mk.injEq] at hs
      simp only [hids, heids, Prod.mk.injEq] at he
      rcases hs with ⟨rfl, rfl⟩
      rcases he with ⟨rfl, rfl⟩
      have hlength : ids.length = s.elements.length :=
        (Register.length_of_enterAll hids).trans (List.length_map _)
      -- The registers stand at the screens that are entered, now one more.
      have hsreg : Register.mk ((done ++ [s.relabel r id ids]).map (·.id)) sreg'.counter
          = sreg' := by
        rw [List.map_append, List.map_singleton]
        exact congrArg (Register.mk · sreg'.counter) (Register.seen_of_enter hid).symm
      have hereg : Register.mk ((done ++ [s.relabel r id ids]).flatMap Screen.elementIds)
          ereg'.counter = ereg' := by
        rw [List.flatMap_append, List.flatMap_singleton, elementIds_relabel_of_enterAll r id hids]
        exact congrArg (Register.mk · ereg'.counter) (Register.seen_of_enterAll hids).symm
      rw [List.foldl_cons, addScreen_after r hid hids, ih (by rw [hsreg]; exact hsids)
        (by rw [hereg]; exact heids), Project.relabelScreens, ← hlength, List.take_left,
        List.drop_left, List.append_assoc, List.singleton_append]

/-- What has been loaded once a project is entered. -/
def ofProject (p : Project) : Loading :=
  after p.counters.elements p.counters.screens p.screens

theorem ensureScreen_ofProject (p : Project) :
    (ofProject p).ensureScreen = ofProject p.ensureScreen := by
  have hempty : (ofProject p).screens.isEmpty = p.screens.isEmpty := List.isEmpty_map
  rw [ensureScreen, hempty]
  by_cases hscreens : p.screens = []
  · rw [if_pos (List.isEmpty_iff.mpr hscreens), Project.ensureScreen_of_nil hscreens, ofProject,
      hscreens]
    rfl
  · rw [if_neg fun hc => hscreens (List.isEmpty_iff.mp hc), Project.ensureScreen_eq_self hscreens]

theorem foldl_addScreen_eq (p : Project) :
    p.screens.foldl (addScreen p.screenIds p.elementIds (Renaming.ofAssets p.assets))
      { numbering := p.numbering } = ofProject p.relabelled := by
  have he : (Register.mk [] p.numbering.elements).enterAll elementStem p.elementIds
      (p.screens.flatMap Screen.elementIds) = p.enteredElements := by
    rw [← Project.elementIds_eq_flatMap]
    rfl
  have hs : (Register.mk (([] : List Screen).map (·.id)) p.numbering.screens).enterAll screenStem
      p.screenIds (p.screens.map (·.id)) = p.enteredScreens := rfl
  exact foldl_addScreen_after (Renaming.ofAssets p.assets) hs he

end Loading

namespace Workspace

/-- Loading a project gives the workspace that holds the repaired project. -/
theorem load_eq_ofProject (p : Project) : load p = ofProject p.repaired := by
  let q := p.relabelled.ensureScreen
  have hloaded : (p.screens.foldl (Loading.addScreen (p.screens.map (·.id)) (p.elements.map (·.id))
      (Renaming.ofAssets p.assets)) { numbering := p.numbering }).ensureScreen
        = Loading.ofProject q := by
    rw [← Loading.ensureScreen_ofProject, ← Loading.foldl_addScreen_eq]
    rfl
  have hids : (Loading.ofProject q).screens.map (·.id) = q.screenIds := screenIds_ofProject q
  have hstore : (Loading.ofProject q).elements = table (q.located.map fun l => (l.2.id, l.2)) := by
    rw [Loading.ofProject, Loading.after, show q.screens.flatMap (·.elements) = q.elements from rfl,
      Project.elements_eq_located, List.map_map]
    rfl
  have hselected : ∀ id, id ∈ (Loading.ofProject q).elements ↔ id ∈ q.elementIds := by
    intro id
    rw [hstore]
    exact mem_elements_ofProject
  simp only [load, hloaded, hids, hselected]
  -- The placement is the one that the lists of the repaired project describe.
  have hplaced := placement_ofProject p.repaired
  exact eq_ofProject rfl hstore rfl rfl rfl rfl (congrArg Placement.positions hplaced).symm
    (congrArg Placement.owners hplaced).symm

/-- What is shown once a project is loaded is the repaired project. -/
theorem project_load (p : Project) : (load p).project = p.repaired := by
  rw [load_eq_ofProject, project_ofProject (Project.wellFormed_repaired p).elements.nodup]

end Workspace

end PanelSketch
