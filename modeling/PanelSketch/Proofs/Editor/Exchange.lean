import Mathlib.Data.List.Pairwise
import PanelSketch.Proofs.Editor.Session
import PanelSketch.Proofs.Workspace.Covering

/-!
# Edits That Exchange a List

An edit of a screen is handed the whole record and may return any other. Its id is put back
afterwards, the list of its elements is not. A record that has been taken from another screen,
or from another workspace, brings its own list along, and neither the store nor the placement
hears of it.

What becomes of a sound workspace can be told from that list alone. It stays sound exactly
when the list that comes back is the one that was there, in any order: then every element is
still listed once, and the placement, which does not know about paint order, still describes
the lists. Who owns what, and in which order, is untouched exactly when the list is the same.

## Main definitions

* `Workspace.KeepsOwnership`: An edit of a screen leaves lists, owners and placement alone.

## Theorems

* `Workspace.describe_eq_of_perm`: The order of lists does not matter for the placement.
* `Workspace.Sound.modifyScreen_iff`: When a workspace stays sound.
* `Workspace.Sound.keepsOwnership_iff`: When it keeps who owns what.
* `Editor.editScreen_session`: Both, in every session.
-/

namespace PanelSketch

namespace Workspace

/-- Between two workspaces a screen keeps its id and its list, every element is on exactly one
    screen, and the placement is the one that rebuilding would give. -/
structure KeepsOwnership (before after : Workspace) (id : ScreenId) : Prop where
  list : ∀ r, before.screen? id = some r →
    ∃ r', after.screen? id = some r' ∧ r'.id = id ∧ r'.elementIds = r.elementIds
  once : ∀ e ∈ after.elements, ∃! s, s ∈ after.screens ∧ e ∈ s.elementIds
  rebuilt : after.rebuild = after

variable {w : Workspace} {id : ScreenId} {r : ScreenRecord}

/-! ### Listed once -/

/-- The owners that a workspace describes are told by the pairs of its lists. -/
theorem keys_outline (w : Workspace) :
    (w.outline.flatMap fun s => s.2.map fun e => (e, s.1)).map (·.1) = w.elementIds := by
  simp only [outline, elementIds, List.flatMap_map, List.map_flatMap, List.map_map]
  refine List.flatMap_congr fun s _ => ?_
  exact List.map_id _

/-- An element of a sound workspace is on one screen only. -/
theorem Sound.once (h : w.Sound) {e : ElementId} (he : e ∈ w.elements) :
    ∃! s, s ∈ w.screens ∧ e ∈ s.elementIds := by
  rcases List.mem_flatMap.mp ((h.mem_elements e).mp he) with ⟨s, hs, hes⟩
  refine ⟨s, ⟨hs, hes⟩, fun t ⟨ht, het⟩ => ?_⟩
  by_contra hne
  have : Std.Symm (Function.onFun List.Disjoint fun s : ScreenRecord => s.elementIds) :=
    ⟨fun _ _ hd _ he he' => hd he' he⟩
  exact (List.nodup_flatMap.mp h.elementIds_nodup).2.forall ht hs hne het hes

theorem Sound.rebuild_eq (h : w.Sound) : w.rebuild = w := by
  rw [rebuild, ← h.placement_eq]

/-- A screen that is found stands where the placement says, and carries its id. -/
theorem Sound.place (h : w.Sound) (hr : w.screen? id = some r) :
    ∃ k, w.placement.position? id = some k ∧ w.screens[k]? = some r ∧ r.id = id := by
  rcases Option.bind_eq_some_iff.mp hr with ⟨k, hk, hget⟩
  have hid := (h.position? id k).mp hk
  rw [screenIds, List.getElem?_map, hget, Option.map_some, Option.some.injEq] at hid
  exact ⟨k, hk, hget, hid⟩

/-! ### One record changed -/

/-- Owners are found by element, so a description does not depend on the order of the lists. -/
theorem describe_eq_of_perm {w' : Workspace} (hids : w'.screenIds = w.screenIds)
    (howners : (w'.outline.flatMap fun s => s.2.map fun e => (e, s.1)).Perm
      (w.outline.flatMap fun s => s.2.map fun e => (e, s.1)))
    (hn : w'.elementIds.Nodup) : w'.describe = w.describe := by
  have hpositions : w'.outline.map (·.1) = w.outline.map (·.1) := by
    rw [outline, outline, List.map_map, List.map_map]
    exact hids
  rw [describe, describe, Placement.ofScreens, Placement.ofScreens, hpositions, ownersOf_eq_table,
    ownersOf_eq_table, table_perm howners (keys_outline w' ▸ hn)]

/-- The screens in front of a changed one and those behind it stay. -/
theorem exists_split_modifyScreen {k : Nat} (hk : w.screens[k]? = some r)
    (change : ScreenRecord → ScreenRecord) : ∃ front back, w.screens = front ++ r :: back
      ∧ (w.modifyScreen k change).screens = front ++ change r :: back := by
  rcases List.getElem?_eq_some_iff.mp hk with ⟨hlt, hget⟩
  refine ⟨w.screens.take k, w.screens.drop (k + 1), ?_, ?_⟩
  · rw [← hget, ← List.drop_eq_getElem_cons hlt, List.take_append_drop]
  · rw [modifyScreen, List.modify_eq_take_cons_drop hlt, hget]

/-- With another record that has the same id in place of one, a workspace is sound exactly
    when the lists of the two agree up to their order. -/
theorem Sound.modifyScreen_iff (h : w.Sound) {k : Nat} (hk : w.screens[k]? = some r)
    {change : ScreenRecord → ScreenRecord} (hid : (change r).id = r.id) :
    (w.modifyScreen k change).Sound ↔ (change r).elementIds.Perm r.elementIds := by
  rcases exists_split_modifyScreen hk change with ⟨front, back, hbefore, hafter⟩
  have hscreens : (w.modifyScreen k change).screenIds = w.screenIds :=
    screenIds_modifyScreen fun r' hr' => by
      rw [hk, Option.some.injEq] at hr'
      rw [← hr', hid]
  have hlists : (w.modifyScreen k change).elementIds.Perm w.elementIds
      ↔ (change r).elementIds.Perm r.elementIds := by
    rw [elementIds, elementIds, hafter, hbefore, List.flatMap_append, List.flatMap_append,
      List.flatMap_cons, List.flatMap_cons, List.perm_append_left_iff, List.perm_append_right_iff]
  constructor
  · intro hsound
    -- Both list the elements of the store, once each.
    rw [← hlists, List.perm_ext_iff_of_nodup hsound.elementIds_nodup h.elementIds_nodup]
    exact fun e => (hsound.mem_elements e).symm.trans (h.mem_elements e)
  · intro hperm
    have hids := hlists.mpr hperm
    have hnodup := hids.nodup_iff.mpr h.elementIds_nodup
    have howners : ((w.modifyScreen k change).outline.flatMap fun s => s.2.map fun e => (e, s.1)).Perm
        (w.outline.flatMap fun s => s.2.map fun e => (e, s.1)) := by
      rw [outline, outline, hafter, hbefore, List.map_append, List.map_append, List.map_cons,
        List.map_cons, List.flatMap_append, List.flatMap_append, List.flatMap_cons,
        List.flatMap_cons, hid]
      exact ((hperm.map _).append_right _).append_left _
    exact {
      screens_ne_nil := by
        rw [hafter]
        exact List.append_ne_nil_of_right_ne_nil _ (List.cons_ne_nil _ _)
      screenIds_nodup := hscreens ▸ h.screenIds_nodup
      empty_not_mem_screenIds := hscreens ▸ h.empty_not_mem_screenIds
      elementIds_nodup := hnodup
      empty_not_mem_elementIds := fun hmem => h.empty_not_mem_elementIds (hids.mem_iff.mp hmem)
      mem_elements := fun e => (h.mem_elements e).trans hids.mem_iff.symm
      id_of_stored := h.id_of_stored
      placement_eq := h.placement_eq.trans (describe_eq_of_perm hscreens howners hnodup).symm
      position? := hscreens ▸ h.position?
      active_mem := hscreens ▸ h.active_mem
      selected_mem := h.selected_mem
      assets_identifier := h.assets_identifier
      assetNames_nodup := h.assetNames_nodup }

/-! ### Edits -/

/-- An edit of a screen that is not there is refused. -/
theorem Sound.editScreen_unknown (h : w.Sound) (hr : w.screen? id = none)
    (edit : ScreenRecord → ScreenRecord) : w.editScreen id edit = (false, w) := by
  rcases hk : w.placement.position? id with _ | k
  · rw [editScreen, hk]
    rfl
  · have hid := (h.position? id k).mp hk
    rw [screen?, hk, Option.bind_some] at hr
    rw [screenIds, List.getElem?_map, hr, Option.map_none] at hid
    exact absurd hid.symm (Option.some_ne_none id)

/-- An edit of a screen puts what it returns in place of the record, under the id that the
    screen had. -/
theorem Sound.editScreen_known (h : w.Sound) (hr : w.screen? id = some r)
    (edit : ScreenRecord → ScreenRecord) : ∃ k w', w.editScreen id edit = (true, w')
      ∧ w.screens[k]? = some r ∧ r.id = id ∧ w' = w.modifyScreen k (fun r => { edit r with id })
      ∧ w'.screen? id = some { edit r with id } := by
  rcases h.place hr with ⟨k, hk, hget, hid⟩
  refine ⟨k, w.modifyScreen k fun r => { edit r with id }, ?_, hget, hid, rfl, ?_⟩
  · rw [editScreen, hk]
    rfl
  · rw [screen?, modifyScreen, hk, Option.bind_some, List.getElem?_modify_eq, hget]
    rfl

theorem Sound.sound_editScreen_iff (h : w.Sound) (id : ScreenId)
    (edit : ScreenRecord → ScreenRecord) : (w.editScreen id edit).2.Sound
      ↔ ∀ r, w.screen? id = some r → (edit r).elementIds.Perm r.elementIds := by
  rcases hr : w.screen? id with _ | r
  · rw [h.editScreen_unknown hr]
    exact ⟨fun _ r hc => absurd hc.symm (Option.some_ne_none r), fun _ => h⟩
  · rcases h.editScreen_known hr edit with ⟨k, w', hw', hk, hid, rfl, _⟩
    rw [hw', h.modifyScreen_iff hk hid.symm]
    exact ⟨fun hperm r' hr' => Option.some.inj hr' ▸ hperm, fun hperm => hperm r rfl⟩

/-- A sound workspace keeps who owns what if the list stays. -/
theorem Sound.keepsOwnership {after : Workspace} (h : after.Sound)
    (hlist : ∀ r, w.screen? id = some r →
      ∃ r', after.screen? id = some r' ∧ r'.id = id ∧ r'.elementIds = r.elementIds) :
    w.KeepsOwnership after id :=
  ⟨hlist, fun _ => h.once, h.rebuild_eq⟩

theorem Sound.keepsOwnership_iff (h : w.Sound) (id : ScreenId)
    (edit : ScreenRecord → ScreenRecord) :
    w.KeepsOwnership (w.editScreen id edit).2 id
      ↔ ∀ r, w.screen? id = some r → (edit r).elementIds = r.elementIds := by
  constructor
  · intro hkeeps r hr
    rcases h.editScreen_known hr edit with ⟨k, w', hw', _, _, _, hedited⟩
    rw [hw'] at hkeeps
    rcases hkeeps.list r hr with ⟨r', hr', _, hsame⟩
    rw [hedited] at hr'
    rw [← hsame, ← Option.some.inj hr']
  · intro hsame
    have hsound := (h.sound_editScreen_iff id edit).mpr fun r hr => hsame r hr ▸ List.Perm.refl _
    refine hsound.keepsOwnership fun r hr => ?_
    rcases h.editScreen_known hr edit with ⟨k, w', hw', _, _, _, hedited⟩
    rw [hw']
    exact ⟨_, hedited, rfl, hsame r hr⟩

end Workspace

namespace Editor

/-- In every session, an edit of a screen keeps who owns what exactly when it returns the list
    that it was handed, and it keeps the workspace sound exactly when it returns the same
    elements in any order. -/
theorem editScreen_session (settings : Settings) (p : Project) {steps : List Step}
    (hkeep : ∀ step ∈ steps, step.KeepsLists) (id : ScreenId)
    (edit : ScreenRecord → ScreenRecord) :
    let w := ((ofProject settings p).session steps).workspace
    let after := (((ofProject settings p).session steps).step
      (.operation (.editScreen id edit))).workspace
    (w.KeepsOwnership after id
        ↔ ∀ r, w.screen? id = some r → (edit r).elementIds = r.elementIds)
      ∧ (after.Sound ↔ ∀ r, w.screen? id = some r → (edit r).elementIds.Perm r.elementIds) := by
  intro w after
  have hsound : w.Sound := ((holds_ofProject settings p).session hkeep).sound
  exact ⟨hsound.keepsOwnership_iff id edit, hsound.sound_editScreen_iff id edit⟩

/-- Turning the paint order around is harmless for the workspace, but the list is another. -/
theorem editScreen_session_reversed :
    let p : Project := { screens := [{ id := "s", name := "Start", elements := [{ id := "e" }, { id := "f" }] }] }
    let steps : List Step := [.request (.addScreen (some "Menu") none)]
    let edit (r : ScreenRecord) : ScreenRecord :=
      { r with name := "Home", elementIds := r.elementIds.reverse }
    let editor := (ofProject {} p).session steps
    let after := (editor.step (.operation (.editScreen "s" edit))).workspace
    (∀ step ∈ steps, step.KeepsLists) ∧ after.Sound
      ∧ ¬editor.workspace.KeepsOwnership after "s" := by
  intro p steps edit editor after
  have hkeep : ∀ step ∈ steps, step.KeepsLists := List.forall_mem_singleton.mpr trivial
  have hfound : editor.workspace.screen? "s"
      = some { id := "s", name := "Start", elementIds := ["e", "f"] } := by decide +kernel
  rcases editScreen_session {} p hkeep "s" edit with ⟨hkeeps, hsound⟩
  refine ⟨hkeep, hsound.mpr fun r _ => r.elementIds.reverse_perm, fun h => ?_⟩
  exact absurd (hkeeps.mp h _ hfound) (by decide)

/-- A screen is overwritten with the record of another one. Its element is on no screen any
    more, the element of the other is on two, and the placement does not know. -/
theorem not_keepsOwnership_other_record :
    let p : Project :=
      { screens := [{ id := "s", elements := [{ id := "e" }] }, { id := "t", elements := [{ id := "f" }] }] }
    let w := (ofProject {} p).workspace
    let edit (r : ScreenRecord) : ScreenRecord := (w.screen? "t").getD r
    let after := ((ofProject {} p).step (.operation (.editScreen "s" edit))).workspace
    ¬w.KeepsOwnership after "s" := by
  intro p w edit after h
  exact absurd h.rebuilt (by decide +kernel)

end Editor

end PanelSketch
