import PanelSketch.Proofs.Workspace.Covering
import PanelSketch.Proofs.Workspace.Loading

/-!
# Screens in Their Places

Screen ids do not repeat, and the positions are those of the list. Both hold of every
workspace that can be reached, whatever is done to the records on the way: an edit may
exchange the ids of the elements that a screen lists, but not the id of the screen. So a
screen that is asked for is always the one that carries the id, and changing the record
at its position changes this one only.

## Main definitions

* `Workspace.Ranked`: Screens that stand where their positions say.

## Theorems

* `Workspace.Ranked.position?_eq_some`: A position is a place in the list.
* `Workspace.Ranked.screens_modifyScreen`: Changing one record.
* `Workspace.ranked_run`: Every workspace that can be reached.
-/

namespace PanelSketch

namespace Workspace

/-- Screen ids do not repeat, and the positions of the screens are read off their order. -/
structure Ranked (w : Workspace) : Prop where
  nodup : w.screenIds.Nodup
  positions : w.placement.positions = Placement.positionsOf w.screenIds

variable {w w' : Workspace}

/-! ### Looking up screens -/

theorem Ranked.position?_eq_some (hw : w.Ranked) {id : ScreenId} {k : Nat} :
    w.placement.position? id = some k ↔ w.screenIds[k]? = some id := by
  rw [Placement.position?, hw.positions, positionsOf_eq_table,
    getElem?_table (by rw [List.zipIdx_map_fst]; exact hw.nodup), List.mem_zipIdx_iff_getElem?]

theorem Ranked.position?_eq_none (hw : w.Ranked) {id : ScreenId} (h : id ∉ w.screenIds) :
    w.placement.position? id = none :=
  Option.eq_none_iff_forall_ne_some.mpr fun _ hk =>
    h (List.mem_of_getElem? (hw.position?_eq_some.mp hk))

theorem Ranked.mem_positions_keys (hw : w.Ranked) {id : ScreenId} :
    id ∈ w.placement.positions.keys ↔ id ∈ w.screenIds := by
  rw [Std.ExtTreeMap.mem_keys, hw.positions, positionsOf_eq_table, mem_table, List.zipIdx_map_fst]

/-- A screen that is listed is found where it stands. -/
theorem Ranked.exists_position (hw : w.Ranked) {record : ScreenRecord} (h : record ∈ w.screens) :
    ∃ k, w.placement.position? record.id = some k ∧ w.screenIds[k]? = some record.id
      ∧ w.screens[k]? = some record := by
  rcases List.mem_iff_getElem?.mp h with ⟨k, hk⟩
  have hid : w.screenIds[k]? = some record.id := by
    rw [screenIds, List.getElem?_map, hk]
    rfl
  exact ⟨k, hw.position?_eq_some.mpr hid, hid, hk⟩

theorem Ranked.screen?_eq_some (hw : w.Ranked) {record : ScreenRecord} (h : record ∈ w.screens) :
    w.screen? record.id = some record := by
  rcases hw.exists_position h with ⟨k, hposition, _, hk⟩
  rw [screen?, hposition, Option.bind_some, hk]

/-- Changing the record at the position of a screen changes the record with its id only. -/
theorem Ranked.screens_modifyScreen (hw : w.Ranked) {id : ScreenId} {k : Nat}
    (hk : w.screenIds[k]? = some id) (change : ScreenRecord → ScreenRecord) :
    (w.modifyScreen k change).screens
      = w.screens.map fun record => if record.id = id then change record else record :=
  modify_eq_map hw.nodup hk change

/-! ### What keeps screens in their places -/

/-- Positions that are read off the list are right. -/
theorem ranked_reposition (h : w.screenIds.Nodup) : w.reposition.Ranked :=
  ⟨h, rfl⟩

theorem Ranked.of_eq (hw : w.Ranked) (hscreens : w'.screenIds = w.screenIds)
    (hpositions : w'.placement.positions = w.placement.positions) : w'.Ranked :=
  ⟨hscreens ▸ hw.nodup, by rw [hpositions, hscreens, hw.positions]⟩

theorem ranked_ofProject {p : Project} (h : p.screenIds.Nodup) : (ofProject p).Ranked :=
  ⟨by rwa [screenIds_ofProject], by rw [screenIds_ofProject]; rfl⟩

theorem ranked_load (p : Project) : (load p).Ranked := by
  rw [load_eq_ofProject]
  exact ranked_ofProject (Project.wellFormed_repaired p).screens.nodup

/-! ### Operations -/

theorem screenIds_addScreen (w : Workspace) (name? : Option String) :
    (w.addScreen name?).2.screenIds = w.screenIds ++ [(w.addScreen name?).1.id] :=
  List.map_append

/-- A screen that is added is none of those that there are. -/
theorem Ranked.addScreen_id_not_mem (hw : w.Ranked) (name? : Option String) :
    (w.addScreen name?).1.id ∉ w.screenIds :=
  fun hmem => Counter.issue_not_mem screenStem w.placement.positions.keys w.numbering.screens
    (hw.mem_positions_keys.mpr hmem)

theorem Ranked.addScreen (hw : w.Ranked) (name? : Option String) :
    (w.addScreen name?).2.Ranked := by
  refine ⟨?_, rfl⟩
  rw [screenIds_addScreen, ← List.concat_eq_append, List.nodup_concat]
  exact ⟨hw.addScreen_id_not_mem name?, hw.nodup⟩

theorem Ranked.removeScreen (hw : w.Ranked) (id : ScreenId) : (w.removeScreen id).2.Ranked := by
  refine (w.decides_removeScreen id).keeps hw ?_
  rintro _ ⟨position, record, _, _, _, rfl⟩
  exact ranked_reposition (hw.nodup.sublist ((List.eraseIdx_sublist w.screens position).map _))

theorem Ranked.selectScreen (hw : w.Ranked) (id : ScreenId) : (w.selectScreen id).2.Ranked := by
  refine (w.decides_selectScreen id).keeps hw ?_
  rintro _ ⟨_, rfl⟩
  exact hw.of_eq rfl rfl

theorem Ranked.reorderScreen (hw : w.Ranked) (id : ScreenId) (target : Nat) :
    (w.reorderScreen id target).2.Ranked := by
  refine (w.decides_reorderScreen id target).keeps hw ?_
  rintro _ ⟨position, record, _, hrecord, rfl⟩
  have hperm : (putAt target record (w.screens.eraseIdx position)).Perm w.screens := by
    rcases List.getElem?_eq_some_iff.mp hrecord with ⟨hlt, rfl⟩
    exact (List.perm_insertIdx _ _ (Nat.min_le_right _ _)).trans
      (List.getElem_cons_eraseIdx_perm hlt)
  exact ranked_reposition ((hperm.map _).nodup_iff.mpr hw.nodup)

theorem Ranked.editScreen (hw : w.Ranked) (id : ScreenId) (edit : ScreenRecord → ScreenRecord) :
    (w.editScreen id edit).2.Ranked := by
  refine (w.decides_editScreen id edit).keeps hw ?_
  rintro _ ⟨position, hposition, rfl⟩
  refine hw.of_eq (screenIds_modifyScreen fun record hrecord => ?_) rfl
  -- The record at the position of a screen has its id, which is the one put back.
  have hid := hw.position?_eq_some.mp hposition
  rw [screenIds, List.getElem?_map, hrecord, Option.map_some, Option.some.injEq] at hid
  exact hid.symm

theorem Ranked.addElement (hw : w.Ranked) (screen : ScreenId) (kind : Primitive)
    (asset : Option String) : (w.addElement screen kind asset).2.Ranked := by
  rcases w.addElement_cases screen kind asset with hadd | ⟨position, record, e, _, _, _, hadd⟩
  · rw [hadd]
    exact hw
  · rw [hadd]
    exact hw.of_eq (screenIds_modifyScreen (f := fun s =>
      { s with elementIds := s.elementIds ++ [e.id] }) fun _ _ => rfl) rfl

theorem Ranked.removeElement (hw : w.Ranked) (id : ElementId) : (w.removeElement id).2.Ranked := by
  refine (w.decides_removeElement id).keeps hw ?_
  rintro _ ⟨_, position, _, _, rfl⟩
  exact hw.of_eq (screenIds_modifyScreen fun _ _ => rfl) rfl

theorem Ranked.moveElement (hw : w.Ranked) (id : ElementId) (target : ScreenId) :
    (w.moveElement id target).2.Ranked := by
  refine (w.decides_moveElement id target).keeps hw ?_
  rintro _ ⟨_, source, position, _, _, _, _, rfl⟩
  -- The element leaves one list, and then it enters another.
  have hleft : (w.modifyScreen source fun s =>
      { s with elementIds := s.elementIds.filter (· ≠ id) }).Ranked :=
    hw.of_eq (screenIds_modifyScreen fun _ _ => rfl) rfl
  exact hleft.of_eq (screenIds_modifyScreen fun _ _ => rfl) rfl

theorem Ranked.reorderElement (hw : w.Ranked) (screen : ScreenId) (id : ElementId) (target : Nat) :
    (w.reorderElement screen id target).2.Ranked := by
  refine (w.decides_reorderElement screen id target).keeps hw ?_
  rintro _ ⟨position, _, _, rfl⟩
  exact hw.of_eq (screenIds_modifyScreen fun _ _ => rfl) rfl

theorem Ranked.editElement (hw : w.Ranked) (id : ElementId) (edit : Element → Element) :
    (w.editElement id edit).2.Ranked := by
  refine (w.decides_editElement id edit).keeps hw ?_
  rintro _ ⟨_, _, rfl⟩
  exact hw.of_eq rfl rfl

theorem Ranked.removeAsset (hw : w.Ranked) (name : String) : (w.removeAsset name).2.Ranked := by
  refine (w.decides_removeAsset name).keeps hw ?_
  rintro _ ⟨_, _, rfl⟩
  refine hw.of_eq ?_ rfl
  rw [screenIds, List.map_map]
  refine List.map_congr_left fun record _ => ?_
  rw [Function.comp_apply, forgetBackground]
  split
  · rfl
  · rfl

theorem Ranked.rebuild (hw : w.Ranked) : w.rebuild.Ranked := by
  refine ⟨hw.nodup, ?_⟩
  have hids : w.outline.map (·.1) = w.screenIds := List.map_map
  exact congrArg Placement.positionsOf hids

theorem Ranked.addStyled (hw : w.Ranked) (screen : ScreenId) (styling : Styling) :
    (Template.addStyled screen w styling).Ranked := by
  have hadded := hw.addElement screen styling.kind none
  unfold Template.addStyled
  rcases hadd : w.addElement screen styling.kind none with ⟨_ | e, w'⟩
  · rwa [hadd] at hadded
  · rw [hadd] at hadded
    exact hadded.editElement e.id _

theorem Ranked.seed (hw : w.Ranked) (screen : ScreenId) (template : Template) :
    (template.apply w screen).Ranked := by
  have hstyled : (template.stylings.foldl (Template.addStyled screen) w).Ranked :=
    List.foldlRecOn template.stylings _ hw fun _ hw styling _ => hw.addStyled screen styling
  exact List.foldlRecOn template.furtherScreens _ hstyled fun _ hw name _ =>
    hw.addScreen (some name)

/-- Every operation leaves the screens in their places. -/
theorem Ranked.perform (hw : w.Ranked) (operation : Operation) :
    (w.perform operation).2.Ranked := by
  cases operation with
  | addScreen name? => exact hw.addScreen name?
  | removeScreen id => exact hw.removeScreen id
  | selectScreen id => exact hw.selectScreen id
  | reorderScreen id target => exact hw.reorderScreen id target
  | editScreen id edit => exact hw.editScreen id edit
  | addElement screen kind asset => exact hw.addElement screen kind asset
  | removeElement id => exact hw.removeElement id
  | moveElement id target => exact hw.moveElement id target
  | reorderElement screen id target => exact hw.reorderElement screen id target
  | editElement id edit => exact hw.editElement id edit
  | addAsset asset => exact hw.of_eq rfl rfl
  | removeAsset name => exact hw.removeAsset name
  | rebuild => exact hw.rebuild
  | applyTemplate screen template => exact hw.seed screen template

theorem Ranked.run (hw : w.Ranked) (operations : List Operation) : (w.run operations).Ranked := by
  induction operations generalizing w with
  | nil => exact hw
  | cons operation operations ih => exact ih (hw.perform operation)

theorem ranked_run (p : Project) (operations : List Operation) :
    ((load p).run operations).Ranked :=
  (ranked_load p).run operations

end Workspace

end PanelSketch
