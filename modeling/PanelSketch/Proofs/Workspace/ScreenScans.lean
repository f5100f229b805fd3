import PanelSketch.Proofs.Workspace.Places

/-!
# Operations on Screens Are Scans

Performing an operation on a screen of the workspace that holds a project gives
the workspace that holds the project after the scan. The list of records changes
as the list of screens does. Only removing a screen touches the maps of elements,
and it erases what is located on that screen.

## Theorems

* `Workspace.addScreen_ofProject`, …, `Workspace.editScreen_ofProject`: One
  operation each.
-/

namespace PanelSketch

namespace Workspace

variable {p : Project}

theorem addScreen_ofProject (p : Project) (name? : Option String) :
    (ofProject p).addScreen name?
      = ((p.addScreen name?).1, ofProject (p.addScreen name?).2) := by
  have hissue : (ofProject p).numbering.issueScreen (ofProject p).placement.positions.keys
      = p.counters.issueScreen p.screenIds := by
    -- The placement lists the ids in another order, which a fresh name does not depend on.
    simp only [Numbering.issueScreen, Counter.issue_congr _ (mem_positions_keys p)]
    rfl
  have hlength : (ofProject p).screens.length = p.screens.length := by
    rw [ofProject, List.length_map]
  have hscreens : (ofProject p).screens ++ [(p.addScreen name?).1]
      = (p.addScreen name?).2.screens.map Screen.record := by
    simp only [Project.addScreen, List.map_append, List.map_singleton]
    rfl
  -- The new screen is empty, so no element and no owner is new.
  have hlocated : (p.addScreen name?).2.located = p.located := by
    simp only [Project.located, Project.addScreen, List.flatMap_append, List.flatMap_singleton,
      Screen.new, List.map_nil, List.append_nil]
  simp only [addScreen, hissue, hlength]
  refine Prod.ext rfl (eq_ofProject hscreens ?_ rfl rfl rfl rfl (positions_reposition hscreens) ?_)
  · rw [hlocated]
    rfl
  · rw [hlocated]
    rfl

theorem disownAll_owners (ids : List ElementId) (placement : Placement) :
    (ids.foldl (fun q e => q.disown e) placement).owners
      = ids.foldl (·.erase ·) placement.owners := by
  induction ids generalizing placement with
  | nil => rfl
  | cons id ids ih => exact ih (placement.disown id)

/-- Erasing the ids of a screen leaves what is located elsewhere. -/
theorem eraseAll_located {α : Type} (h : p.WellFormed) {s : Screen} (hs : s ∈ p.screens)
    (f : ScreenId × Element → α) :
    s.elementIds.foldl (·.erase ·) (table (p.located.map fun l => (l.2.id, f l)))
      = table ((p.located.filter (·.1 ≠ s.id)).map fun l => (l.2.id, f l)) := by
  rw [eraseAll_table, List.filter_map]
  congr 2
  -- An element is on the screen exactly when the screen lists its id.
  refine List.filter_congr fun l hl => ?_
  simp only [Function.comp_apply, h.mem_elementIds_iff_screen hl hs, ne_eq, eq_comm (a := s.id)]

theorem removeScreen_ofProject (h : p.WellFormed) (id : ScreenId) :
    (ofProject p).removeScreen id = scanned p (p.removeScreen id) := by
  rcases hs : p.screen? id with _ | s
  · have hnone := position?_eq_none (Project.screen?_eq_none.mp hs)
    simp only [removeScreen, Project.removeScreen, hs, hnone, Option.bind_eq_bind, Option.bind_none,
      ite_self]
    rfl
  · rcases exists_position h.screens.nodup hs with ⟨k, hpos, _, hget, herase⟩
    rcases (Project.screen?_eq_some h.screens.nodup).mp hs with ⟨hmem, rfl⟩
    have hlength : (ofProject p).screens.length = p.screens.length := by
      rw [ofProject, List.length_map]
    -- What is located elsewhere is located on the screens that are left.
    have hleft := fun (α : Type) (f : ScreenId × Element → α) =>
      (eraseAll_located h hmem f).trans
        (congrArg (fun ls => table (ls.map fun l => (l.2.id, f l)))
          (Project.located_filterScreens p s.id).symm)
    simp only [removeScreen, Project.removeScreen, hs, hpos, hget, herase, hlength,
      Option.bind_eq_bind, Option.bind_some, guard_bind, Option.pure_def]
    by_cases hone : p.screens.length ≤ 1
    · rw [if_pos hone, if_neg (Nat.not_lt.mpr hone)]
      rfl
    · rw [if_neg hone, if_pos (Nat.lt_of_not_le hone)]
      refine congrArg (Prod.mk true)
        (eq_ofProject rfl (hleft _ _) rfl ?_ rfl rfl (positions_reposition rfl) ?_)
      · simp only [reposition, List.map_map]
        rfl
      · exact (disownAll_owners _ _).trans (hleft _ _)

theorem selectScreen_ofProject (p : Project) (id : ScreenId) :
    (ofProject p).selectScreen id = scanned p (p.selectScreen id) := by
  simp only [selectScreen, Project.selectScreen, Bool.not_eq_true', Bool.eq_false_iff, ne_eq,
    hasScreen_ofProject]
  by_cases hid : id ∈ p.screenIds
  · rw [if_neg (not_not_intro hid), if_pos hid]
    rfl
  · rw [if_pos hid, if_neg hid]
    rfl

theorem reorderScreen_ofProject (h : p.WellFormed) (id : ScreenId) (target : Nat) :
    (ofProject p).reorderScreen id target = scanned p (p.reorderScreen id target) := by
  rcases hs : p.screen? id with _ | s
  · have hnone := position?_eq_none (Project.screen?_eq_none.mp hs)
    simp only [reorderScreen, Project.reorderScreen, hs, hnone, Option.bind_eq_bind,
      Option.bind_none]
    rfl
  · rcases exists_position h.screens.nodup hs with ⟨k, hpos, _, hget, herase⟩
    rcases (Project.screen?_eq_some h.screens.nodup).mp hs with ⟨hmem, rfl⟩
    simp only [reorderScreen, Project.reorderScreen, hs, hpos, hget, herase, Option.bind_eq_bind,
      Option.bind_some, Option.pure_def]
    let rest := p.screens.filter (·.id ≠ s.id)
    have hput : putAt target s.record (rest.map Screen.record)
        = (rest.insertIdx (min target rest.length) s).map Screen.record := by
      rw [putAt, List.length_map, List.map_insertIdx]
    have hperm : (rest.insertIdx (min target rest.length) s).Perm p.screens :=
      insertIdx_filter_perm h.screens.nodup hmem target
    -- The same elements are located on the same screens, only listed in another order.
    have hlocated := hperm.flatMap_right fun s => s.elements.map fun e => (s.id, e)
    have hmaps := fun (α : Type) => table_located (α := α) h.elements.nodup
      (q := { p with screens := rest.insertIdx (min target rest.length) s }) hlocated
    exact congrArg (Prod.mk true)
      (eq_ofProject hput (hmaps _ _) rfl rfl rfl rfl (positions_reposition hput) (hmaps _ _))

theorem editScreen_ofProject (h : p.WellFormed) (id : ScreenId) {edit : ScreenRecord → ScreenRecord}
    (hedit : ∀ r, (edit r).elementIds = r.elementIds) :
    (ofProject p).editScreen id edit = scanned p (p.editScreen id edit) := by
  simp only [editScreen, Project.editScreen, Option.bind_eq_bind, guard_bind, Option.pure_def]
  by_cases hid : id ∈ p.screenIds
  · rcases List.mem_iff_getElem?.mp hid with ⟨k, hk⟩
    rw [(position?_ofProject h.screens.nodup).mpr hk, if_pos hid]
    have hscreens := screens_modifyScreen (w := ofProject p) rfl h.screens.nodup hk
      (f := fun r => { edit r with id }) (g := (·.edit edit))
      fun s _ hs => by rw [Screen.record_edit hedit, hs]
    have hids : (p.updateScreen id (·.edit edit)).screenIds = p.screenIds :=
      Project.screenIds_updateScreen fun _ hs => hs
    have hlocated : (p.updateScreen id (·.edit edit)).located.Perm p.located :=
      Project.located_updateScreen_perm (fun _ hs => hs) fun _ _ _ => List.Perm.refl _
    exact congrArg (Prod.mk true) (eq_ofProject hscreens (table_located h.elements.nodup hlocated _)
      rfl rfl rfl rfl (positions_eq hids) (table_located h.elements.nodup hlocated _))
  · rw [position?_eq_none hid, if_neg hid]
    rfl

end Workspace

end PanelSketch
