import PanelSketch.Proofs.Project.Scanning
import PanelSketch.Proofs.Workspace.Issues
import PanelSketch.Proofs.Workspace.Outcomes
import PanelSketch.Proofs.Workspace.Table

/-!
# Histories That Cover a Workspace

A history covers a workspace when it has seen what the workspace holds and the
counters are ahead of all it has seen. Nothing else is asked of the workspace than
that its maps are right about ids: an element is stored under its own id, and the
position of a screen is one at which it stands. So the lists of ids that screens
have may be edited at will.

An operation that issues nothing holds on to ids it has found, and the history goes
on to cover the workspace. One that issues ids extends the history by just these.

## Main definitions

* `History.Covers`: What is held has been seen, and the counters are ahead.
* `Workspace.Covered`: The same for a workspace, whose positions are right.

## Theorems

* `History.Covers.addScreen`, `History.Covers.addElement`: An id that is issued.
* `Workspace.Covered.of_subset`: Holding on to ids.
* `Workspace.Covered.perform`: One operation.
-/

namespace PanelSketch

/-! ### Counters, screens and elements -/

/-- What is held has been seen, elements are stored under their own ids, and the
    counters are ahead of all that has been seen. -/
structure History.Covers (h : History) (n : Numbering) (screenIds : List ScreenId)
    (stored : Std.ExtTreeMap ElementId Element) : Prop where
  screens : ∀ id ∈ screenIds, h .screen id
  elements : ∀ (id : ElementId) (e : Element), stored[id]? = some e → e.id = id ∧ h .element id
  ahead : n.AheadOf h

namespace History.Covers

variable {h : History} {n : Numbering} {screenIds : List ScreenId}
  {stored : Std.ExtTreeMap ElementId Element}

theorem mem_elements (hc : h.Covers n screenIds stored) {id : ElementId} (hid : id ∈ stored) :
    h .element id := by
  rw [Std.ExtTreeMap.mem_iff_isSome_getElem?, Option.isSome_iff_exists] at hid
  rcases hid with ⟨e, he⟩
  exact (hc.elements id e he).2

/-- A screen under an id that is issued. -/
theorem addScreen (hc : h.Covers n screenIds stored) {taken : List ScreenId}
    (htaken : ∀ id ∈ taken, h .screen id) :
    h.Fresh [n.issueOf .screen taken] ∧ (h.record (n.issueOf .screen taken)).Covers
      (n.issueScreen taken).2 (screenIds ++ [(n.issueScreen taken).1]) stored := by
  have hissue := hc.ahead.issue .screen htaken
  refine ⟨hissue.1, fun id hid => ?_, fun id e he => (hc.elements id e he).imp_right Or.inl,
    hissue.2⟩
  rcases List.mem_append.mp hid with hid | hid
  · exact Or.inl (hc.screens id hid)
  · exact Or.inr ⟨rfl, List.mem_singleton.mp hid⟩

/-- An element under an id that is issued. -/
theorem addElement (hc : h.Covers n screenIds stored) {taken : List ElementId}
    (htaken : ∀ id ∈ taken, h .element id) {e : Element} (he : e.id = (n.issueElement taken).1) :
    h.Fresh [n.issueOf .element taken] ∧ (h.record (n.issueOf .element taken)).Covers
      (n.issueElement taken).2 screenIds (stored.insert (n.issueElement taken).1 e) := by
  have hissue := hc.ahead.issue .element htaken
  refine ⟨hissue.1, fun id hid => Or.inl (hc.screens id hid), fun id e' he' => ?_, hissue.2⟩
  rw [getElem?_insert_eq] at he'
  split at he'
  · rename_i hid
    rw [Option.some.injEq] at he'
    rw [← he', ← hid]
    exact ⟨he, Or.inr ⟨rfl, rfl⟩⟩
  · exact (hc.elements id e' he').imp_right Or.inl

/-- An element under an id that has been seen. -/
theorem insert (hc : h.Covers n screenIds stored) {id : ElementId} (hid : h .element id)
    {e : Element} (he : e.id = id) : h.Covers n screenIds (stored.insert id e) where
  screens := hc.screens
  elements other e' he' := by
    rw [getElem?_insert_eq] at he'
    split at he'
    · rename_i heq
      rw [Option.some.injEq] at he'
      rw [← he', ← heq]
      exact ⟨he, hid⟩
    · exact hc.elements other e' he'
  ahead := hc.ahead

/-- What is no more than has been held is covered as well. -/
theorem of_subset (hc : h.Covers n screenIds stored) {n' : Numbering} {screenIds' : List ScreenId}
    {stored' : Std.ExtTreeMap ElementId Element} (hn : n' = n) (hscreens : screenIds' ⊆ screenIds)
    (helements : ∀ (id : ElementId) (e' : Element), stored'[id]? = some e' →
      ∃ e, stored[id]? = some e ∧ e'.id = e.id) : h.Covers n' screenIds' stored' where
  screens id hid := hc.screens id (hscreens hid)
  elements id e' he' := by
    rcases helements id e' he' with ⟨e, he, hid⟩
    rw [hid]
    exact hc.elements id e he
  ahead := hn ▸ hc.ahead

end History.Covers

namespace Workspace

/-- A history covers a workspace whose positions are those of its screens. -/
structure Covered (h : History) (w : Workspace) : Prop extends
    h.Covers w.numbering w.screenIds w.elements where
  placed : ∀ (id : ScreenId) (k : Nat), w.placement.position? id = some k → w.screenIds[k]? = some id

variable {h : History} {w w' : Workspace}

/-! ### Positions -/

theorem getElem?_of_positionsOf {order : List ScreenId} {id : ScreenId} {k : Nat}
    (hk : (Placement.positionsOf order)[id]? = some k) : order[k]? = some id :=
  List.mem_zipIdx_iff_getElem?.mp (mem_of_getElem?_table hk)

/-- Positions that are read off the list are those of the list. -/
theorem placed_reposition (w : Workspace) (id : ScreenId) (k : Nat)
    (hk : w.reposition.placement.position? id = some k) : w.reposition.screenIds[k]? = some id :=
  getElem?_of_positionsOf hk

theorem placed_describe (w : Workspace) (id : ScreenId) (k : Nat)
    (hk : w.describe.position? id = some k) : w.screenIds[k]? = some id := by
  have hk := getElem?_of_positionsOf hk
  rwa [outline, List.map_map] at hk

theorem Covered.placed_mem (hw : w.Covered h) {id : ScreenId} (hid : id ∈ w.placement.positions.keys) :
    h .screen id := by
  rw [Std.ExtTreeMap.mem_keys, Std.ExtTreeMap.mem_iff_isSome_getElem?, Option.isSome_iff_exists]
    at hid
  rcases hid with ⟨k, hk⟩
  exact hw.screens id (List.mem_of_getElem? (hw.placed id k hk))

/-- Changing a record without its id leaves the ids as they are. -/
theorem screenIds_modifyScreen {k : Nat} {f : ScreenRecord → ScreenRecord}
    (hf : ∀ r, w.screens[k]? = some r → (f r).id = r.id) :
    (w.modifyScreen k f).screenIds = w.screenIds := by
  refine List.ext_getElem? fun i => ?_
  rw [screenIds, screenIds, modifyScreen, List.getElem?_map, List.getElem?_map,
    List.getElem?_modify]
  rcases hi : w.screens[i]? with _ | r
  · rfl
  · rw [Option.map_eq_map, Option.map_some, Option.map_some, Option.map_some]
    by_cases hk : k = i
    · rw [if_pos hk, hf r (hk ▸ hi)]
    · rw [if_neg hk]

/-! ### Holding on to ids -/

/-- What has the same screens in the same places is covered when its counters and
    elements are. -/
theorem Covered.of_covers {h' : History} (hw : w.Covered h) (hscreens : w'.screenIds = w.screenIds)
    (hplaced : w'.placement.positions = w.placement.positions)
    (hc : h'.Covers w'.numbering w.screenIds w'.elements) : w'.Covered h' where
  toCovers := hscreens ▸ hc
  placed id k hk := by
    rw [Placement.position?, hplaced] at hk
    rw [hscreens]
    exact hw.placed id k hk

/-- Nothing changes for ids that stay as they are. -/
theorem Covered.of_screenIds_eq (hw : w.Covered h) (hnumbering : w'.numbering = w.numbering)
    (hscreens : w'.screenIds = w.screenIds)
    (hplaced : w'.placement.positions = w.placement.positions)
    (helements : ∀ (id : ElementId) (e' : Element), w'.elements[id]? = some e' →
      ∃ e, w.elements[id]? = some e ∧ e'.id = e.id) : w'.Covered h :=
  hw.of_covers hscreens hplaced (hw.toCovers.of_subset hnumbering (List.Subset.refl _) helements)

theorem exists_getElem?_erase {id : ElementId} (other : ElementId) (e' : Element)
    (he' : (w.elements.erase id)[other]? = some e') :
    ∃ e, w.elements[other]? = some e ∧ e'.id = e.id := by
  rw [getElem?_erase_eq] at he'
  split at he'
  · exact absurd he' (Option.some_ne_none e').symm
  · exact ⟨e', he', rfl⟩

theorem Covered.removeScreen (hw : w.Covered h) (id : ScreenId) :
    (w.removeScreen id).2.Covered h := by
  refine (w.decides_removeScreen id).keeps hw ?_
  rintro _ ⟨position, record, _, _, _, rfl⟩
  -- Some screens and elements are left, and the positions are read off anew.
  refine ⟨hw.toCovers.of_subset rfl ?_ fun other e' he' => ⟨e', getElem?_of_eraseAll he', rfl⟩,
    placed_reposition _⟩
  exact ((List.eraseIdx_sublist w.screens position).map _).subset

theorem Covered.selectScreen (hw : w.Covered h) (id : ScreenId) :
    (w.selectScreen id).2.Covered h := by
  refine (w.decides_selectScreen id).keeps hw ?_
  rintro _ ⟨_, rfl⟩
  exact hw.of_screenIds_eq rfl rfl rfl fun _ e' he' => ⟨e', he', rfl⟩

theorem Covered.reorderScreen (hw : w.Covered h) (id : ScreenId) (target : Nat) :
    (w.reorderScreen id target).2.Covered h := by
  refine (w.decides_reorderScreen id target).keeps hw ?_
  rintro _ ⟨position, record, _, hrecord, rfl⟩
  refine ⟨hw.toCovers.of_subset rfl ?_ fun _ e' he' => ⟨e', he', rfl⟩, placed_reposition _⟩
  -- The record comes from the list, and so do the others.
  refine List.map_subset _ fun r hr => ?_
  rcases (List.mem_insertIdx (Nat.min_le_right _ _)).mp hr with rfl | hr
  · exact List.mem_of_getElem? hrecord
  · exact List.mem_of_mem_eraseIdx hr

theorem Covered.editScreen (hw : w.Covered h) (id : ScreenId) (edit : ScreenRecord → ScreenRecord) :
    (w.editScreen id edit).2.Covered h := by
  refine (w.decides_editScreen id edit).keeps hw ?_
  rintro _ ⟨position, hposition, rfl⟩
  refine hw.of_screenIds_eq rfl (screenIds_modifyScreen fun r hr => ?_) rfl
    fun _ e' he' => ⟨e', he', rfl⟩
  -- The record at the position of a screen has its id, which is the one put back.
  have hid := hw.placed id position hposition
  rw [screenIds, List.getElem?_map, hr, Option.map_some, Option.some.injEq] at hid
  exact hid.symm

theorem Covered.removeElement (hw : w.Covered h) (id : ElementId) :
    (w.removeElement id).2.Covered h := by
  refine (w.decides_removeElement id).keeps hw ?_
  rintro _ ⟨_, position, _, _, rfl⟩
  exact hw.of_screenIds_eq rfl (screenIds_modifyScreen fun _ _ => rfl) rfl exists_getElem?_erase

theorem Covered.moveElement (hw : w.Covered h) (id : ElementId) (target : ScreenId) :
    (w.moveElement id target).2.Covered h := by
  refine (w.decides_moveElement id target).keeps hw ?_
  rintro _ ⟨_, source, position, _, _, _, _, rfl⟩
  refine hw.of_screenIds_eq rfl ?_ rfl fun _ e' he' => ⟨e', he', rfl⟩
  refine Eq.trans (screenIds_modifyScreen (w := w.modifyScreen source _) ?_)
    (screenIds_modifyScreen ?_)
  · exact fun _ _ => rfl
  · exact fun _ _ => rfl

theorem Covered.reorderElement (hw : w.Covered h) (screen : ScreenId) (id : ElementId)
    (target : Nat) : (w.reorderElement screen id target).2.Covered h := by
  refine (w.decides_reorderElement screen id target).keeps hw ?_
  rintro _ ⟨position, _, _, rfl⟩
  exact hw.of_screenIds_eq rfl (screenIds_modifyScreen fun _ _ => rfl) rfl
    fun _ e' he' => ⟨e', he', rfl⟩

theorem Covered.editElement (hw : w.Covered h) (id : ElementId) (edit : Element → Element) :
    (w.editElement id edit).2.Covered h := by
  refine (w.decides_editElement id edit).keeps hw ?_
  rintro _ ⟨e, he, rfl⟩
  refine hw.of_screenIds_eq rfl rfl rfl fun other e' he' => ?_
  rw [getElem?_insert_eq] at he'
  split at he'
  · rename_i hid
    rw [Option.some.injEq] at he'
    exact ⟨e, hid ▸ he, by rw [← he', (hw.elements id e he).1]⟩
  · exact ⟨e', he', rfl⟩

theorem Covered.addAsset (hw : w.Covered h) (asset : Asset) : (w.addAsset asset).2.Covered h :=
  hw.of_screenIds_eq rfl rfl rfl fun _ e' he' => ⟨e', he', rfl⟩

theorem Covered.removeAsset (hw : w.Covered h) (name : String) :
    (w.removeAsset name).2.Covered h := by
  refine (w.decides_removeAsset name).keeps hw ?_
  rintro _ ⟨_, _, rfl⟩
  refine hw.of_screenIds_eq rfl ?_ rfl fun id e' he' => ?_
  · rw [screenIds, List.map_map]
    refine List.map_congr_left fun r _ => ?_
    rw [Function.comp_apply, forgetBackground]
    split
    · rfl
    · rfl
  · rw [Std.ExtTreeMap.getElem?_map, Option.map_eq_some_iff] at he'
    rcases he' with ⟨e, he, rfl⟩
    refine ⟨e, he, ?_⟩
    rw [forgetImage]
    split
    · rfl
    · rfl

theorem Covered.rebuild (hw : w.Covered h) : w.rebuild.Covered h :=
  ⟨hw.toCovers, placed_describe w⟩

/-! ### Issuing ids -/

open History (Extends)

theorem Covered.addScreen (hw : w.Covered h) (name? : Option String) :
    Extends Covered h (w.screenIssues name?) (w.addScreen name?).2 := by
  -- The id is kept clear of the screens that are placed, and these are all listed.
  have hadd := hw.toCovers.addScreen fun id hid => hw.placed_mem hid
  refine ⟨hadd.1, ?_, placed_reposition _⟩
  have hids : (w.addScreen name?).2.screenIds
      = w.screenIds ++ [(w.numbering.issueScreen w.placement.positions.keys).1] :=
    List.map_append
  rw [hids]
  exact hadd.2

theorem Covered.addElement (hw : w.Covered h) (screen : ScreenId) (kind : Primitive)
    (asset : Option String) :
    Extends Covered h (w.elementIssues screen kind asset) (w.addElement screen kind asset).2 := by
  rcases w.addElement_cases screen kind asset with hadd | ⟨position, record, e, _, _, he, hadd⟩
  · rw [elementIssues_of_none (congrArg Prod.fst hadd), hadd]
    exact Extends.nil hw
  · have hissues : w.elementIssues screen kind asset
        = [⟨.element, w.numbering.elements.next, e.id⟩] := by
      rw [elementIssues, hadd]
    -- The id is kept clear of the store, and all in it has been seen.
    have hfree : ∀ id ∈ w.elements.keys, h .element id := fun id hid =>
      hw.mem_elements (Std.ExtTreeMap.mem_keys.mp hid)
    rw [hissues, hadd, he]
    refine ⟨(hw.ahead.issue .element hfree).1, hw.of_covers ?_ rfl
      (hw.toCovers.addElement hfree he).2⟩
    exact screenIds_modifyScreen (f := fun s =>
      { s with elementIds := s.elementIds ++ [(w.numbering.issueElement w.elements.keys).1] })
      fun _ _ => rfl

theorem Covered.addStyled (hw : w.Covered h) (screen : ScreenId) (styling : Styling) :
    Extends Covered h (w.elementIssues screen styling.kind none)
      (Template.addStyled screen w styling) := by
  have hnew := hw.addElement screen styling.kind none
  refine ⟨hnew.fresh, ?_⟩
  have hadded := hnew.holds
  unfold Template.addStyled
  rcases hadd : w.addElement screen styling.kind none with ⟨_ | e, w'⟩
  · rwa [hadd] at hadded
  · -- The styling is a second operation, on the element just added.
    rw [hadd] at hadded
    exact hadded.editElement e.id _

theorem Covered.seed (hw : w.Covered h) (screen : ScreenId) (template : Template) :
    Extends Covered h (w.templateIssues screen template) (template.apply w screen) := by
  have hstyled : Extends Covered h _ (template.stylings.foldl (Template.addStyled screen) w) :=
    History.extends_along (fun styling _ _ _ hw => hw.addStyled screen styling) hw
  exact Extends.append hstyled.fresh
    (History.extends_along (fun name _ _ _ hw => hw.addScreen (some name)) hstyled.holds)

/-- An operation extends the history by what it issues, and no more is held then. -/
theorem Covered.perform (hw : w.Covered h) (operation : Operation) :
    Extends Covered h (w.issues operation) (w.perform operation).2 := by
  cases operation with
  | addScreen name? => exact hw.addScreen name?
  | removeScreen id => exact Extends.nil (hw.removeScreen id)
  | selectScreen id => exact Extends.nil (hw.selectScreen id)
  | reorderScreen id target => exact Extends.nil (hw.reorderScreen id target)
  | editScreen id edit => exact Extends.nil (hw.editScreen id edit)
  | addElement screen kind asset => exact hw.addElement screen kind asset
  | removeElement id => exact Extends.nil (hw.removeElement id)
  | moveElement id target => exact Extends.nil (hw.moveElement id target)
  | reorderElement screen id target => exact Extends.nil (hw.reorderElement screen id target)
  | editElement id edit => exact Extends.nil (hw.editElement id edit)
  | addAsset asset => exact Extends.nil (hw.addAsset asset)
  | removeAsset name => exact Extends.nil (hw.removeAsset name)
  | rebuild => exact Extends.nil hw.rebuild
  | applyTemplate screen template => exact hw.seed screen template

end Workspace

end PanelSketch
