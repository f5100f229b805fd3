import PanelSketch.Proofs.Workspace.Places

/-!
# Operations on Elements Are Scans

An operation on an element looks up the screen it is on and the place of that
screen, changes the one record that stands there, and changes the store and the
owners under the id of the element. Scanning changes whatever screen has the
element. Since ids do not repeat, that is the same screen and the same element.

## Theorems

* `Workspace.dropElement_eq_updateScreen`: Only one screen has an element.
* `Workspace.store_moved`: Moving an element leaves the store alone.
* `Workspace.addElement_ofProject`, …, `Workspace.editElement_ofProject`: One
  operation each.
-/

namespace PanelSketch

namespace Workspace

variable {p : Project}

/-- Only the screen that has an element is changed by dropping it. -/
theorem dropElement_eq_updateScreen (h : p.WellFormed) {s : Screen} (hs : s ∈ p.screens)
    {e : Element} (he : e ∈ s.elements) :
    p.updateScreen s.id (·.without e.id) = p.dropElement e.id := by
  have hl : (s.id, e) ∈ p.located := Project.mem_located.mpr ⟨s, hs, rfl, he⟩
  refine congrArg (fun screens => { p with screens }) (List.map_congr_left fun t ht => ?_)
  split
  · rfl
  · rename_i hid
    have hmem : e.id ∉ t.elementIds := fun hm => hid ((h.mem_elementIds_iff_screen hl ht).mp hm)
    have hkeep : t.elements.filter (·.id ≠ e.id) = t.elements := by
      refine List.filter_eq_self.mpr fun d hd => decide_eq_true fun heq => hmem ?_
      rw [← heq]
      exact List.mem_map_of_mem hd
    rw [Screen.without, hkeep]

theorem record_without (id : ElementId) (s : Screen) :
    (s.without id).record = { s.record with elementIds := s.elementIds.filter (· ≠ id) } := by
  simp only [Screen.record, Screen.without, Screen.info, Screen.elementIds, List.filter_map]
  rfl

theorem record_push (e : Element) (s : Screen) :
    (s.push e).record = { s.record with elementIds := s.elementIds ++ [e.id] } := by
  simp only [Screen.record, Screen.push, Screen.info, Screen.elementIds, List.map_append,
    List.map_singleton]

theorem record_reinsert (e : Element) (target : Nat) (s : Screen) : (s.reinsert e target).record
    = { s.record with elementIds := putAt target e.id (s.elementIds.filter (· ≠ e.id)) } := by
  have hfilter : s.elementIds.filter (· ≠ e.id) = (s.elements.filter (·.id ≠ e.id)).map (·.id) :=
    List.filter_map
  simp only [Screen.record, Screen.reinsert, Screen.info, Screen.elementIds, List.map_insertIdx]
  rw [← Screen.elementIds, hfilter, putAt, List.length_map]

theorem addElement_ofProject (h : p.WellFormed) (screen : ScreenId) (kind : Primitive)
    (asset : Option String) :
    (ofProject p).addElement screen kind asset
      = ((p.addElement screen kind asset).map (·.1),
        ofProject (((p.addElement screen kind asset).map (·.2)).getD p)) := by
  rcases hs : p.screen? screen with _ | s
  · have hnone := position?_eq_none (Project.screen?_eq_none.mp hs)
    simp only [addElement, Project.addElement, hs, hnone, Option.bind_eq_bind, Option.bind_none]
    rfl
  · rcases exists_position h.screens.nodup hs with ⟨k, hpos, hk, hget, _⟩
    have hscreen : screen ∈ p.screenIds := List.mem_of_getElem? hk
    have hissue : (ofProject p).numbering.issueElement (ofProject p).elements.keys
        = p.counters.issueElement p.elementIds := by
      simp only [Numbering.issueElement, Counter.issue_congr _ (mem_elements_keys p)]
      rfl
    have hcount : s.record.elementIds.length = s.elements.length := List.length_map _
    simp only [addElement, Project.addElement, hs, hpos, hget, hissue, hcount, Option.bind_eq_bind,
      Option.bind_some, Option.pure_def]
    let e := Project.newElement (p.counters.issueElement p.elementIds).1 kind asset
      s.elements.length
    have hscreens := screens_modifyScreen (w := ofProject p) rfl h.screens.nodup hk
      (f := fun r => { r with elementIds := r.elementIds ++ [e.id] }) (g := (·.push e))
      fun t _ _ => (record_push e t).symm
    have hlocated := Project.located_push h.screens.nodup hscreen e
    -- The id is new, so the map does not replace anything.
    have hkept : p.located.filter (·.2.id ≠ e.id) = p.located := by
      refine List.filter_eq_self.mpr fun l hl => decide_eq_true fun hid => ?_
      have hnew : e.id ∉ p.elementIds := Counter.issue_not_mem elementStem p.elementIds _
      rw [Project.elementIds_eq_located] at hnew
      exact hnew (hid ▸ List.mem_map_of_mem hl)
    rw [← hkept] at hlocated
    exact Prod.ext rfl (eq_ofProject hscreens
      (insert_located h.elements.nodup hlocated fun l => l.2) rfl rfl rfl rfl
      (positions_eq (Project.screenIds_push p screen e))
      (insert_located h.elements.nodup hlocated fun l => l.1))

theorem removeElement_ofProject (h : p.WellFormed) (id : ElementId) :
    (ofProject p).removeElement id = scanned p (p.removeElement id) := by
  simp only [removeElement, Project.removeElement, Option.bind_eq_bind, guard_bind, Option.pure_def]
  by_cases hid : id ∈ p.elementIds
  · rcases exists_place h hid with ⟨s, e, k, _, _, hs, he, rfl, howner, hpos, hk⟩
    simp only [howner, hpos, if_pos hid]
    have hscreens := screens_modifyScreen (w := ofProject p) rfl h.screens.nodup hk
      (f := fun r => { r with elementIds := r.elementIds.filter (· ≠ e.id) })
      (g := (·.without e.id)) fun t _ _ => (record_without e.id t).symm
    rw [dropElement_eq_updateScreen h hs he] at hscreens
    exact congrArg (Prod.mk true) (eq_ofProject hscreens (erase_located p e.id _) rfl rfl rfl rfl
      (positions_eq (Project.screenIds_dropElement p e.id)) (erase_located p e.id _))
  · rw [owner?_eq_none hid, if_neg hid]
    rfl

/-- Screens are different exactly when they stand in different places. -/
theorem place_ne_iff (h : p.screenIds.Nodup) {s t : ScreenId} {k j : Nat}
    (hk : p.screenIds[k]? = some s) (hj : p.screenIds[j]? = some t) : k ≠ j ↔ s ≠ t := by
  have hlt : k < p.screenIds.length := (List.getElem?_eq_some_iff.mp hk).1
  rw [ne_eq, ← List.getElem?_inj hlt h, hk, hj, Option.some.injEq]

/-- An element that is only located elsewhere does not change the store. -/
theorem store_moved (h : p.elementIds.Nodup) {q : Project} {s target : ScreenId} {e : Element}
    (he : (s, e) ∈ p.located)
    (hlocated : q.located.Perm (p.located.filter (·.2.id ≠ e.id) ++ [(target, e)])) :
    table (p.located.map fun l => (l.2.id, l.2))
      = table (q.located.map fun l => (l.2.id, l.2)) := by
  have hback : (p.located.filter (·.2.id ≠ e.id) ++ [(s, e)]).Perm p.located :=
    filter_concat_perm (Project.elementIds_eq_located p ▸ h) he
  refine table_perm ?_ (pairs_nodup h _)
  calc
    (p.located.map fun l => (l.2.id, l.2)).Perm
        ((p.located.filter (·.2.id ≠ e.id) ++ [(s, e)]).map fun l => (l.2.id, l.2)) :=
      (hback.map _).symm
    _ = (p.located.filter (·.2.id ≠ e.id) ++ [(target, e)]).map fun l => (l.2.id, l.2) := by
        rw [List.map_append, List.map_append]
        rfl
    List.Perm _ (q.located.map fun l => (l.2.id, l.2)) := (hlocated.map _).symm

theorem moveElement_ofProject (h : p.WellFormed) (id : ElementId) (target : ScreenId) :
    (ofProject p).moveElement id target = scanned p (p.moveElement id target) := by
  by_cases hid : id ∈ p.elementIds
  · rcases exists_place h hid with ⟨s, e, k, hos, hes, hs, he, rfl, howner, hpos, hk⟩
    simp only [moveElement, Project.moveElement, howner, hpos, hos, hes, Option.bind_eq_bind,
      Option.bind_some, guard_bind, Option.pure_def]
    by_cases ht : target ∈ p.screenIds
    · rcases List.mem_iff_getElem?.mp ht with ⟨j, hj⟩
      have hne := place_ne_iff h.screens.nodup hk hj
      simp only [(position?_ofProject h.screens.nodup).mpr hj, ht, true_and]
      by_cases hsame : k = j
      · rw [if_pos hsame, if_neg fun hc => hne.mpr hc hsame]
        rfl
      · rw [if_neg hsame, if_pos (hne.mp hsame)]
        let q := p.dropElement e.id
        have hids : q.screenIds = p.screenIds := Project.screenIds_dropElement p e.id
        -- The move is a drop on one screen and a push on the other.
        have hdropped := screens_modifyScreen (w := ofProject p) rfl h.screens.nodup hk
          (f := fun r => { r with elementIds := r.elementIds.filter (· ≠ e.id) })
          (g := (·.without e.id)) fun t _ _ => (record_without e.id t).symm
        rw [dropElement_eq_updateScreen h hs he] at hdropped
        have hscreens := screens_modifyScreen hdropped (hids ▸ h.screens.nodup) (hids ▸ hj)
          (f := fun r => { r with elementIds := r.elementIds ++ [e.id] }) (g := (·.push e))
          fun t _ _ => (record_push e t).symm
        have hlocated : (q.updateScreen target (·.push e)).located.Perm
            (p.located.filter (·.2.id ≠ e.id) ++ [(target, e)]) := by
          rw [← Project.located_dropElement]
          exact Project.located_push (hids ▸ h.screens.nodup) (hids ▸ ht) e
        exact congrArg (Prod.mk true) (eq_ofProject hscreens
          (store_moved h.elements.nodup (Project.mem_located.mpr ⟨s, hs, rfl, he⟩) hlocated)
          rfl rfl rfl rfl (positions_eq ((Project.screenIds_push q target e).trans hids))
          (insert_located h.elements.nodup hlocated fun l => l.1))
    · rw [position?_eq_none ht, if_neg (fun hc => ht hc.1)]
      rfl
  · simp only [moveElement, Project.moveElement, owner?_eq_none hid,
      Project.element?_eq_none.mpr hid, Option.bind_eq_bind, Option.bind_none]
    rfl

theorem reorderElement_ofProject (h : p.WellFormed) (screen : ScreenId) (id : ElementId)
    (target : Nat) : (ofProject p).reorderElement screen id target
      = scanned p (p.reorderElement screen id target) := by
  by_cases hid : id ∈ p.elementIds
  · rcases exists_place h hid with ⟨s, e, k, hos, hes, hs, he, rfl, howner, hpos, hk⟩
    simp only [reorderElement, Project.reorderElement, howner, hos, hes, Option.bind_eq_bind,
      Option.bind_some, guard_bind, Option.pure_def, ne_eq, Option.some.injEq]
    by_cases hscreen : s.id = screen
    · rcases hscreen with rfl
      rw [if_neg (not_not_intro rfl), if_pos rfl, hpos]
      have hscreens := screens_modifyScreen (w := ofProject p) rfl h.screens.nodup hk
        (f := fun r => { r with elementIds := putAt target e.id (r.elementIds.filter (· ≠ e.id)) })
        (g := (·.reinsert e target)) fun t _ _ => (record_reinsert e target t).symm
      have hlocated : (p.updateScreen s.id (·.reinsert e target)).located.Perm p.located := by
        refine Project.located_updateScreen_perm (fun _ ht => ht) fun t ht htid => ?_
        -- Only the owner has that id, and the owner has the element.
        rw [h.eq_of_screenId ht hs htid]
        exact insertIdx_filter_perm (h.elementIds_nodup_screen hs) he target
      exact congrArg (Prod.mk true) (eq_ofProject hscreens (table_located h.elements.nodup hlocated _)
        rfl rfl rfl rfl (positions_eq (Project.screenIds_updateScreen fun _ ht => ht))
        (table_located h.elements.nodup hlocated _))
    · rw [if_pos hscreen, if_neg hscreen]
      rfl
  · simp only [reorderElement, Project.reorderElement, owner?_eq_none hid,
      Project.element?_eq_none.mpr hid, Option.bind_eq_bind, Option.bind_none, ne_eq,
      reduceCtorEq, not_false_eq_true, if_true]
    rfl

/-- Elements that keep their ids can be changed behind the lists of ids. -/
theorem screens_updateElements {change : Element → Element} (hkeep : ∀ e, (change e).id = e.id)
    (p : Project) :
    (ofProject p).screens = (p.updateElements change).screens.map Screen.record := by
  rw [Project.updateElements, List.map_map]
  refine List.map_congr_left fun s _ => ?_
  simp only [Function.comp_apply, Screen.record, Screen.info, Screen.elementIds, List.map_map]
  rw [show (Element.id ∘ change) = Element.id from funext hkeep]

theorem owners_updateElements {change : Element → Element} (hkeep : ∀ e, (change e).id = e.id)
    (p : Project) : (ofProject p).placement.owners
      = table ((p.updateElements change).located.map fun l => (l.2.id, l.1)) := by
  rw [Project.located_updateElements, List.map_map]
  exact congrArg table (List.map_congr_left fun l _ => congrArg (·, l.1) (hkeep l.2).symm)

theorem located_editOnly_perm (h : p.elementIds.Nodup) (edit : Element → Element) {s : ScreenId}
    {e : Element} (he : (s, e) ∈ p.located) :
    (p.updateElements (·.editOnly e.id edit)).located.Perm
      (p.located.filter (·.2.id ≠ e.id) ++ [(s, { edit e with id := e.id })]) := by
  have hmap : (p.updateElements (·.editOnly e.id edit)).located = p.located.map fun l =>
      if l.2.id = e.id then (l.1, { edit l.2 with id := e.id }) else l := by
    rw [Project.located_updateElements]
    refine List.map_congr_left fun l _ => ?_
    by_cases hl : l.2.id = e.id
    · rw [Element.editOnly, if_pos hl, if_pos hl]
    · rw [Element.editOnly, if_neg hl, if_neg hl]
  rw [hmap]
  exact map_update_perm (Project.elementIds_eq_located p ▸ h) he
    fun l => (l.1, { edit l.2 with id := e.id })

theorem editElement_ofProject (h : p.WellFormed) (id : ElementId) (edit : Element → Element) :
    (ofProject p).editElement id edit = scanned p (p.editElement id edit) := by
  simp only [editElement, Project.editElement, Option.bind_eq_bind, guard_bind, Option.pure_def]
  by_cases hid : id ∈ p.elementIds
  · rcases exists_place h hid with ⟨s, e, _, _, _, hs, he, rfl, _⟩
    have hfound := (getElem?_ofProject h.elements.nodup).mpr ⟨List.mem_flatMap.mpr ⟨s, hs, he⟩, rfl⟩
    rw [hfound, if_pos hid]
    let edited : Element := { edit e with id := e.id }
    have hlocated := located_editOnly_perm h.elements.nodup edit
      (Project.mem_located.mpr ⟨s, hs, rfl, he⟩)
    exact congrArg (Prod.mk true) (eq_ofProject (screens_updateElements (Element.editOnly_id e.id edit) p)
      (insert_located (e := edited) h.elements.nodup hlocated fun l => l.2) rfl rfl rfl rfl
      (positions_eq (Project.screenIds_updateElements p _))
      (owners_updateElements (Element.editOnly_id e.id edit) p))
  · have hnone : (ofProject p).elements[id]? = none :=
      Std.ExtTreeMap.getElem?_eq_none fun hc => hid (mem_elements_ofProject.mp hc)
    rw [hnone, if_neg hid]
    rfl

end Workspace

end PanelSketch
