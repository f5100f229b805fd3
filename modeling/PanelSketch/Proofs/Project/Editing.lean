import PanelSketch.Proofs.Project.Located

/-!
# Editing Keeps Projects Well-Formed

Every operation on a nested project leaves a well-formed project behind. An
operation that succeeds has found what it is about, and what it leaves of the ids
is some of them, or all of them in another order. Only adding a screen or an
element issues an id, and then the counter that issued it moves on.

## Theorems

* `WellFormed.addScreen`, …, `WellFormed.removeAsset`: One operation each.
* `WellFormed.perform`, `WellFormed.run`: Any operation, and any run.
-/

namespace PanelSketch

namespace Project

variable {p p' : Project}

/-! ### One operation each -/

namespace WellFormed

theorem addScreen (h : p.WellFormed) (name? : Option String) :
    (p.addScreen name?).2.WellFormed := by
  let issued := p.counters.screens.issue screenStem p.screenIds
  have hids : (p.addScreen name?).2.screenIds = p.screenIds ++ [issued.1] :=
    screenIds_addScreen p name?
  have heids : (p.addScreen name?).2.elementIds = p.elementIds := by
    simp only [elementIds, Project.elements, Project.addScreen, Screen.new, List.flatMap_append,
      List.flatMap_singleton, List.append_nil]
  refine { h with
    screens_ne_nil := List.append_ne_nil_of_right_ne_nil _ (List.cons_ne_nil _ _)
    screens := ?_, elements := ?_, active_mem := ?_, selected_mem := ?_ }
  · rw [hids]
    exact h.screens.issue (List.Subset.refl _)
  · rw [heids]
    exact h.elements
  · rw [hids]
    exact List.mem_append_right _ List.mem_cons_self
  · rw [heids]
    exact h.selected_mem

theorem addElement (h : p.WellFormed) {screen : ScreenId} {kind : Primitive}
    {asset : Option String} {e : Element} (hadd : p.addElement screen kind asset = some (e, p')) :
    p'.WellFormed := by
  simp only [Project.addElement, Option.bind_eq_bind, Option.bind_eq_some_iff, Option.pure_def,
    Option.some.injEq, Prod.mk.injEq] at hadd
  rcases hadd with ⟨s, hs, he, rfl⟩
  rw [he]
  let issued := p.counters.elements.issue elementStem p.elementIds
  have hscreen : screen ∈ p.screenIds :=
    mem_screenIds.mpr ⟨s, (screen?_eq_some h.screens.nodup).mp hs⟩
  have hids := screenIds_push p screen e
  have heids : (p.updateScreen screen (·.push e)).elementIds.Perm (p.elementIds ++ [issued.1]) := by
    have hid : e.id = issued.1 := by rw [← he]; rfl
    rw [← hid]
    exact elementIds_push h.screens.nodup hscreen e
  refine { h with
    screens_ne_nil := fun hnil => h.screens_ne_nil (List.map_eq_nil_iff.mp hnil)
    screens := ?_, elements := ?_, active_mem := ?_, selected_mem := ?_ }
  · exact hids ▸ h.screens
  · exact (h.elements.issue (List.Subset.refl _)).subperm heids.subperm
  · exact hids ▸ h.active_mem
  · -- The new element is selected.
    intro id hid
    rw [← Option.some.inj hid]
    exact heids.mem_iff.mpr (List.mem_append_right _ List.mem_cons_self)

theorem removeScreen (h : p.WellFormed) {id : ScreenId} (hrem : p.removeScreen id = some p') :
    p'.WellFormed := by
  simp only [Project.removeScreen, Option.bind_eq_bind, Option.bind_eq_some_iff, guard_eq_some,
    Option.pure_def, Option.some.injEq] at hrem
  rcases hrem with ⟨s, hs, _, hlen, rfl⟩
  rcases (screen?_eq_some h.screens.nodup).mp hs with ⟨hmem, rfl⟩
  -- Different ids leave all other screens, so some screen is left of at least two.
  let rest : Project := { p with screens := p.screens.filter (·.id ≠ s.id) }
  have hrest : rest.screens ≠ [] := by
    rcases List.append_of_mem hmem with ⟨front, back, hsplit⟩
    have hn := h.screens.nodup
    rw [screenIds, hsplit] at hn
    have hfilter : rest.screens = front ++ back := by
      rw [show rest.screens = p.screens.filter (·.id ≠ s.id) from rfl, hsplit, filter_split hn]
    intro hnil
    rw [hfilter, List.append_eq_nil_iff] at hnil
    rw [hsplit, hnil.1, hnil.2] at hlen
    exact absurd hlen (Nat.lt_irrefl 1)
  have helements : rest.elementIds.Sublist p.elementIds := by
    rw [elementIds_eq_located, elementIds_eq_located, located_filterScreens]
    exact List.filter_sublist.map _
  refine h.of_subperm (List.filter_sublist.map _).subperm helements.subperm (List.Sublist.refl _)
    rfl ?_ ?_
  · -- The active screen is the first one left, or one that was not removed.
    by_cases hactive : p.active = s.id
    · rcases hr : rest.screens with _ | ⟨t, screens⟩
      · exact absurd hr hrest
      · refine mem_screenIds.mpr ⟨t, hr ▸ List.mem_cons_self, ?_⟩
        simp only [if_pos hactive, show p.screens.filter (·.id ≠ s.id) = t :: screens from hr,
          List.map_cons, List.headD_cons]
    · rcases mem_screenIds.mp h.active_mem with ⟨t, ht, hid⟩
      refine mem_screenIds.mpr ⟨t, List.mem_filter.mpr ⟨ht, ?_⟩, ?_⟩
      · rw [hid]
        exact decide_eq_true hactive
      · simp only [if_neg hactive, hid]
  · intro id hid
    rw [Option.filter_eq_some_iff] at hid
    rcases mem_elementIds.mp (h.selected_mem id hid.1) with ⟨t, ht, hmem'⟩
    refine mem_elementIds.mpr ⟨t, List.mem_filter.mpr ⟨ht, decide_eq_true fun htid => ?_⟩, hmem'⟩
    -- The selected element would stand on the removed screen, which clears the selection.
    rw [h.eq_of_screenId ht hmem htid] at hmem'
    exact absurd hmem' (by simpa only [decide_eq_true_eq] using hid.2)

theorem selectScreen (h : p.WellFormed) {id : ScreenId} (hsel : p.selectScreen id = some p') :
    p'.WellFormed := by
  unfold Project.selectScreen at hsel
  split at hsel
  case isFalse => exact absurd hsel (by simp only [reduceCtorEq, not_false_eq_true])
  case isTrue hid =>
    rw [← Option.some.inj hsel]
    exact h.of_subperm (List.Subperm.refl _) (List.Subperm.refl _) (List.Sublist.refl _) rfl hid
      fun _ hc => absurd hc (by simp only [reduceCtorEq, not_false_eq_true])

/-- The order of the screens does not matter. -/
theorem ofPermScreens (h : p.WellFormed) {screens : List Screen} (hperm : screens.Perm p.screens) :
    ({ p with screens } : Project).WellFormed := by
  have hids : ({ p with screens } : Project).screenIds.Perm p.screenIds := hperm.map _
  have helements : ({ p with screens } : Project).elementIds.Perm p.elementIds :=
    elementIds_perm (hperm.flatMap_right _)
  exact h.of_subperm hids.subperm helements.subperm (List.Sublist.refl _) rfl
    (hids.mem_iff.mpr h.active_mem) fun id hid => helements.mem_iff.mpr (h.selected_mem id hid)

theorem reorderScreen (h : p.WellFormed) {id : ScreenId} {target : Nat}
    (hre : p.reorderScreen id target = some p') : p'.WellFormed := by
  simp only [Project.reorderScreen, Option.bind_eq_bind, Option.bind_eq_some_iff, Option.pure_def,
    Option.some.injEq] at hre
  rcases hre with ⟨s, hs, rfl⟩
  rcases (screen?_eq_some h.screens.nodup).mp hs with ⟨hmem, rfl⟩
  exact h.ofPermScreens (insertIdx_filter_perm h.screens.nodup hmem target)

/-- Changing screens in place is harmless when it keeps their ids and keeps the ids
    of their elements in some order. -/
theorem updateScreen (h : p.WellFormed) {id : ScreenId} {change : Screen → Screen}
    (hid : ∀ s, s.id = id → (change s).id = id)
    (hc : ∀ s ∈ p.screens, s.id = id → (change s).elements.Perm s.elements) :
    (p.updateScreen id change).WellFormed := by
  have hids : (p.updateScreen id change).screenIds = p.screenIds := screenIds_updateScreen hid
  have helements := elementIds_perm (located_updateScreen_perm hid hc)
  exact h.of_subperm (hids ▸ List.Subperm.refl _) helements.subperm (List.Sublist.refl _) rfl
    (hids ▸ h.active_mem) fun id hid => helements.mem_iff.mpr (h.selected_mem id hid)

theorem editScreen (h : p.WellFormed) {id : ScreenId} {edit : ScreenRecord → ScreenRecord}
    (hedit : p.editScreen id edit = some p') : p'.WellFormed := by
  simp only [Project.editScreen, Option.bind_eq_bind, Option.bind_eq_some_iff, guard_eq_some,
    Option.pure_def, Option.some.injEq] at hedit
  rcases hedit with ⟨_, _, rfl⟩
  exact h.updateScreen (fun _ hs => hs) fun _ _ _ => List.Perm.refl _

theorem removeElement (h : p.WellFormed) {id : ElementId} (hrem : p.removeElement id = some p') :
    p'.WellFormed := by
  simp only [Project.removeElement, Option.bind_eq_bind, Option.bind_eq_some_iff, guard_eq_some,
    Option.pure_def, Option.some.injEq] at hrem
  rcases hrem with ⟨_, _, rfl⟩
  have hids := screenIds_dropElement p id
  have helements := elementIds_dropElement p id
  refine h.of_subperm (hids ▸ List.Subperm.refl _) (helements ▸ List.filter_sublist.subperm)
    (List.Sublist.refl _) rfl (hids ▸ h.active_mem) fun selected hsel => ?_
  rw [Option.filter_eq_some_iff] at hsel
  exact helements ▸ List.mem_filter.mpr ⟨h.selected_mem selected hsel.1, hsel.2⟩

/-- Dropping an element and pushing it on another screen keeps all ids. -/
theorem moveElement (h : p.WellFormed) {id : ElementId} {target : ScreenId}
    (hmove : p.moveElement id target = some p') : p'.WellFormed := by
  simp only [Project.moveElement, Option.bind_eq_bind, Option.bind_eq_some_iff, guard_eq_some,
    Option.pure_def, Option.some.injEq] at hmove
  rcases hmove with ⟨e, he, owner, _, _, ⟨htarget, _⟩, rfl⟩
  rcases (element?_eq_some h.elements.nodup).mp he with ⟨hmem, rfl⟩
  have hdrop := screenIds_dropElement p e.id
  have hids : ((p.dropElement e.id).updateScreen target (·.push e)).screenIds = p.screenIds := by
    rw [screenIds_push, hdrop]
  have helements : ((p.dropElement e.id).updateScreen target (·.push e)).elementIds.Perm
      p.elementIds := by
    -- Dropping the id and putting it at the end permutes the ids.
    have hpush := elementIds_push (hdrop ▸ h.screens.nodup) (hdrop ▸ htarget) e
    rw [elementIds_dropElement] at hpush
    have hn : (p.elementIds.map id).Nodup := by
      rw [List.map_id]
      exact h.elements.nodup
    exact hpush.trans (filter_concat_perm hn (List.mem_map_of_mem hmem : e.id ∈ p.elementIds))
  exact h.of_subperm (hids ▸ List.Subperm.refl _) helements.subperm (List.Sublist.refl _) rfl
    (hids ▸ h.active_mem) fun id hid => helements.mem_iff.mpr (h.selected_mem id hid)

theorem reorderElement (h : p.WellFormed) {screen : ScreenId} {id : ElementId} {target : Nat}
    (hre : p.reorderElement screen id target = some p') : p'.WellFormed := by
  simp only [Project.reorderElement, Option.bind_eq_bind, Option.bind_eq_some_iff, guard_eq_some,
    Option.pure_def, Option.some.injEq] at hre
  rcases hre with ⟨e, he, owner, ho, _, hscreen, rfl⟩
  refine h.updateScreen (fun _ hs => hs) fun s hs hid => ?_
  rcases (element?_eq_some h.elements.nodup).mp he with ⟨_, rfl⟩
  rcases (owner?_eq_some h).mp ho with ⟨howner, _⟩
  -- The screen named is the owner, which is where the element stands.
  rw [h.eq_of_screenId hs howner (hid.trans hscreen.symm)]
  exact insertIdx_filter_perm (h.elementIds_nodup_screen howner) (mem_owner h ho he) target

theorem editElement (h : p.WellFormed) {id : ElementId} {edit : Element → Element}
    (hedit : p.editElement id edit = some p') : p'.WellFormed := by
  simp only [Project.editElement, Option.bind_eq_bind, Option.bind_eq_some_iff, guard_eq_some,
    Option.pure_def, Option.some.injEq] at hedit
  rcases hedit with ⟨_, _, rfl⟩
  have hids := screenIds_updateElements p (·.editOnly id edit)
  have helements := elementIds_updateElements (Element.editOnly_id id edit) p
  exact h.of_subperm (hids ▸ List.Subperm.refl _) (helements ▸ List.Subperm.refl _)
    (List.Sublist.refl _) rfl (hids ▸ h.active_mem) fun id hid => helements ▸ h.selected_mem id hid

theorem addAsset (h : p.WellFormed) (asset : Asset) : (p.addAsset asset).2.WellFormed := by
  let name := Text.freshName (Text.identifier asset.name "asset") p.assetNames
  have hshape : Text.IsIdentifier name := Text.isIdentifier_storedName asset.name p.assetNames
  have hnames : (p.addAsset asset).2.assetNames = p.assetNames ++ [name] := by
    simp only [assetNames, Project.addAsset, List.map_append, List.map_singleton]
    rfl
  refine { h with assets_identifier := ?_, assetNames_nodup := ?_ }
  · intro a ha
    rcases List.mem_append.mp ha with ha | ha
    · exact h.assets_identifier a ha
    · rw [List.mem_singleton.mp ha]
      exact Text.identifier_eq_self hshape "asset"
  · rw [hnames, ← List.concat_eq_append, List.nodup_concat]
    exact ⟨Text.freshName_not_mem _ _, h.assetNames_nodup⟩

theorem removeAsset (h : p.WellFormed) {name : String} (hrem : p.removeAsset name = some p') :
    p'.WellFormed := by
  simp only [Project.removeAsset, Option.bind_eq_bind, Option.bind_eq_some_iff, guard_eq_some,
    Option.pure_def, Option.some.injEq] at hrem
  rcases hrem with ⟨_, _, rfl⟩
  -- Forgetting an asset changes references, and no id is one.
  let forgotten : Project := { p with
    assets := p.assets.eraseP (·.name == name), screens := p.screens.map (forgetAsset name) }
  have hids : forgotten.screenIds = p.screenIds := map_id_map (forgetAsset_id name)
  have helements : forgotten.elementIds = p.elementIds := by
    rw [elementIds_eq_flatMap, elementIds_eq_flatMap, List.flatMap_map]
    exact List.flatMap_congr fun s _ => elementIds_forgetAsset name s
  exact h.of_subperm (hids ▸ List.Subperm.refl _) (helements ▸ List.Subperm.refl _)
    (List.eraseP_sublist.map _) rfl (hids ▸ h.active_mem)
    fun id hid => helements ▸ h.selected_mem id hid

/-! ### Any operation -/

theorem addStyled (h : p.WellFormed) (screen : ScreenId) (styling : Styling) :
    (p.addStyled screen styling).WellFormed := by
  unfold Project.addStyled
  rcases hadd : p.addElement screen styling.kind none with _ | ⟨e, q⟩
  · exact h
  · have hq : q.WellFormed := h.addElement hadd
    simp only
    -- The styling is a second operation, on the element just added.
    rcases hedit : q.editElement e.id (Template.restyle styling) with _ | r
    · exact hq
    · exact hq.editElement hedit

theorem seed (h : p.WellFormed) (screen : ScreenId) (template : Template) :
    (p.seed screen template).WellFormed := by
  have hstyled : ∀ (stylings : List Styling) (q : Project), q.WellFormed →
      (stylings.foldl (Project.addStyled screen) q).WellFormed := by
    intro stylings
    induction stylings with
    | nil => exact fun q hq => hq
    | cons styling stylings ih => exact fun q hq => ih _ (hq.addStyled screen styling)
  have hscreens : ∀ (names : List String) (q : Project), q.WellFormed →
      (names.foldl (fun q name => (q.addScreen (some name)).2) q).WellFormed := by
    intro names
    induction names with
    | nil => exact fun q hq => hq
    | cons name names ih => exact fun q hq => ih _ (hq.addScreen (some name))
  exact hscreens _ _ (hstyled _ _ h)

/-- An operation that is refused leaves the project as it was. -/
theorem orStay (h : p.WellFormed) {result : Option Project}
    (hr : ∀ p', result = some p' → p'.WellFormed) : (p.orStay result).2.WellFormed := by
  cases result with
  | none => exact h
  | some p' => exact hr p' rfl

theorem perform (h : p.WellFormed) (operation : Operation) :
    (p.perform operation).2.WellFormed := by
  cases operation with
  | addScreen name? => exact h.addScreen name?
  | removeScreen id => exact h.orStay fun _ => h.removeScreen
  | selectScreen id => exact h.orStay fun _ => h.selectScreen
  | reorderScreen id target => exact h.orStay fun _ => h.reorderScreen
  | editScreen id edit => exact h.orStay fun _ => h.editScreen
  | addElement screen kind asset =>
      simp only [Project.perform]
      rcases hadd : p.addElement screen kind asset with _ | ⟨e, q⟩
      · exact h
      · exact h.addElement hadd
  | removeElement id => exact h.orStay fun _ => h.removeElement
  | moveElement id target => exact h.orStay fun _ => h.moveElement
  | reorderElement screen id target => exact h.orStay fun _ => h.reorderElement
  | editElement id edit => exact h.orStay fun _ => h.editElement
  | addAsset asset => exact h.addAsset asset
  | removeAsset name => exact h.orStay fun _ => h.removeAsset
  | rebuild => exact h
  | applyTemplate screen template => exact h.seed screen template

theorem run (h : p.WellFormed) (operations : List Operation) : (p.run operations).WellFormed := by
  induction operations generalizing p with
  | nil => exact h
  | cons operation operations ih => exact ih (h.perform operation)

end WellFormed

end Project

end PanelSketch
