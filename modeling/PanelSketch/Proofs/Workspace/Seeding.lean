import Mathlib.Data.List.Forall2
import Mathlib.Logic.Function.Iterate
import PanelSketch.Proofs.Workspace.Ranking

/-!
# Seeding a Screen

A template is a row of operations, and nothing holds them together: styled elements are
put on a screen one after the other, and then screens are appended. What has been done so
far is kept in view by naming what is new. One more styled element is one more new element,
one more screen is one more further screen, and everything that was there before is as it
was. That needs no more of a workspace than that its screens are in their places, so it
holds of every workspace that can be reached.

Each of the operations finds out for itself whether there is the screen. Without it no
element is put anywhere, but a screen is appended all the same, so the menu template leaves
a trace where the other one does not.

## Main definitions

* `Styling.element`: The element that a styling describes.
* `ScreenRecord.extend`: A record with more elements.
* `Workspace.Seeded`: What is new once a screen has been seeded, and what is as it was.

## Theorems

* `Workspace.Seeded.addStyled`, `Workspace.Seeded.addScreen`: One step of a template.
* `Workspace.Ranked.seeded`: All of them.
* `Workspace.Seeded.snapshot?_eq`: What the screens show.
* `Workspace.Ranked.apply_eq_self_iff`: A screen that there is not.
* `Workspace.seeding_run`: All of it, for every workspace that can be reached.
-/

namespace PanelSketch

/-- A new element of a kind, for a screen that has `count` elements already. -/
def Primitive.newElement (kind : Primitive) (count : Nat) (id : ElementId) : Element :=
  { id, kind
    name := kind.tag ++ "_" ++ (count + 1).repr
    x := Workspace.cascade count
    y := Workspace.cascade count
    w := if kind.isCircle then 60 else 80
    h := if kind.isCircle then 60 else 40 }

/-- The element that a styling describes, for a screen that has `count` elements already. -/
def Styling.element (styling : Styling) (count : Nat) (id : ElementId) : Element :=
  Template.restyle styling (styling.kind.newElement count id)

/-- A record with further elements in front, if it is the one of a screen. -/
def ScreenRecord.extend (screen : ScreenId) (ids : List ElementId) (record : ScreenRecord) :
    ScreenRecord :=
  if record.id = screen then { record with elementIds := record.elementIds ++ ids } else record

namespace ScreenRecord

theorem id_extend (screen : ScreenId) (ids : List ElementId) (record : ScreenRecord) :
    (record.extend screen ids).id = record.id := by
  rw [extend]
  split
  · rfl
  · rfl

theorem extend_nil (screen : ScreenId) (record : ScreenRecord) :
    record.extend screen [] = record := by
  rw [extend, List.append_nil, ite_self]

theorem extend_extend (screen : ScreenId) (first second : List ElementId)
    (record : ScreenRecord) :
    (record.extend screen first).extend screen second = record.extend screen (first ++ second) := by
  by_cases h : record.id = screen
  · rw [extend, extend, if_pos h, if_pos h, extend, if_pos h, List.append_assoc]
  · rw [extend, extend, if_neg h, if_neg h, extend, if_neg h]

end ScreenRecord

namespace Workspace

/-- A screen has been seeded. Elements in given styles are new, and they are in front of those
    that the screen had; screens with given names are new, and they are behind all others.
    Whatever there was before is as it was, except for the selection, the active screen and
    the counters. -/
structure Seeded (w : Workspace) (target : ScreenRecord) (stylings : List Styling)
    (names : List String) (new : List Element) (further : List ScreenRecord) (w' : Workspace) :
    Prop where
  described : List.Forall₂ (fun styling e => e = styling.1.element styling.2 e.id)
    (stylings.zipIdx target.elementIds.length) new
  nodup : (new.map (·.id)).Nodup
  fresh : ∀ e ∈ new, e.id ∉ w.elements
  named : further.map (·.name) = names
  /-- There is nothing else to the further screens. -/
  empty : ∀ record ∈ further, record = { id := record.id, name := record.name }
  /-- Screen ids do not repeat, so the further ones are new. -/
  ranked : w'.Ranked
  screens : w'.screens = w.screens.map (ScreenRecord.extend target.id (new.map (·.id))) ++ further
  stored : ∀ e ∈ new, w'.elements[e.id]? = some e
  kept : ∀ id ∉ new.map (·.id), w'.elements[id]? = w.elements[id]?
  owned : ∀ e ∈ new, w'.placement.owner? e.id = some target.id
  owners : ∀ id ∉ new.map (·.id), w'.placement.owner? id = w.placement.owner? id
  assets : w'.assets = w.assets
  active : w'.active = (further.getLast?.map (·.id)).getD w.active
  selected : w'.selected = (new.getLast?.map (·.id)).or w.selected
  numbering : w'.numbering = ⟨⟨Nat.iterate Counter.successor new.length w.numbering.elements.next⟩,
    ⟨Nat.iterate Counter.successor further.length w.numbering.screens.next⟩⟩

variable {w w' : Workspace} {target : ScreenRecord} {stylings : List Styling} {names : List String}
  {new : List Element} {further : List ScreenRecord}

/-! ### One element -/

/-- What becomes of a workspace when an element is put on a screen that it has. -/
def push (w : Workspace) (screen : ScreenId) (e : Element) : Workspace :=
  { w with
    screens := w.screens.map (ScreenRecord.extend screen [e.id])
    elements := w.elements.insert e.id e
    selected := some e.id
    numbering := (w.numbering.issueElement w.elements.keys).2
    placement := w.placement.own e.id screen }

theorem getElem?_push (w : Workspace) (screen : ScreenId) (e : Element) (id : ElementId) :
    (w.push screen e).elements[id]? = if e.id = id then some e else w.elements[id]? :=
  getElem?_insert_eq w.elements e.id id e

theorem owner?_push (w : Workspace) (screen : ScreenId) (e : Element) (id : ElementId) :
    (w.push screen e).placement.owner? id
      = if e.id = id then some screen else w.placement.owner? id :=
  getElem?_insert_eq w.placement.owners e.id id screen

theorem Ranked.addElement_eq (hw : w.Ranked) (ht : target ∈ w.screens) (kind : Primitive) :
    let e := kind.newElement target.elementIds.length (w.numbering.issueElement w.elements.keys).1
    w.addElement target.id kind none = (some e, w.push target.id e) := by
  rcases hw.exists_position ht with ⟨k, hposition, hk, hrecord⟩
  -- The record at the position is the one with the id, and no other changes.
  simp only [Workspace.addElement, hposition, hrecord, hw.screens_modifyScreen hk]
  rfl

theorem Ranked.addStyled_eq (hw : w.Ranked) (ht : target ∈ w.screens) (styling : Styling) :
    Template.addStyled target.id w styling = w.push target.id (styling.element
      target.elementIds.length (w.numbering.issueElement w.elements.keys).1) := by
  let plain := styling.kind.newElement target.elementIds.length
    (w.numbering.issueElement w.elements.keys).1
  have hstored : (w.push target.id plain).elements[plain.id]? = some plain :=
    Std.ExtTreeMap.getElem?_insert_self
  -- The element is stored once as it is new, and then in its style.
  have hinsert : (w.elements.insert plain.id plain).insert plain.id (Template.restyle styling plain)
      = w.elements.insert plain.id (Template.restyle styling plain) := by
    refine Std.ExtTreeMap.ext_getElem? fun id => ?_
    simp only [getElem?_insert_eq]
    split
    · rfl
    · rfl
  have hedit : (w.push target.id plain).editElement plain.id (Template.restyle styling)
      = (true, w.push target.id (Template.restyle styling plain)) := by
    rw [Workspace.editElement, hstored]
    exact congrArg (fun elements =>
      (true, { w.push target.id (Template.restyle styling plain) with elements })) hinsert
  rw [Template.addStyled, hw.addElement_eq ht]
  exact congrArg Prod.snd hedit

/-! ### Step by step -/

theorem Ranked.seeded_self (hw : w.Ranked) (target : ScreenRecord) :
    w.Seeded target [] [] [] [] w where
  described := List.Forall₂.nil
  nodup := List.nodup_nil
  fresh := List.forall_mem_nil _
  named := rfl
  empty := List.forall_mem_nil _
  ranked := hw
  screens := by
    rw [List.append_nil, List.map_nil,
      List.map_congr_left fun record _ => ScreenRecord.extend_nil target.id record, List.map_id']
  stored := List.forall_mem_nil _
  kept _ _ := rfl
  owned := List.forall_mem_nil _
  owners _ _ := rfl
  assets := rfl
  active := rfl
  selected := rfl
  numbering := rfl

/-- A map with one more new element answers with each new element when asked for its id. -/
theorem answer_concat {α : Type} {f f' : ElementId → Option α} {g : Element → α} {e : Element}
    (hf : ∀ id, f' id = if e.id = id then some (g e) else f id) (he : e.id ∉ new.map (·.id))
    (h : ∀ e ∈ new, f e.id = some (g e)) : ∀ other ∈ new ++ [e], f' other.id = some (g other) := by
  intro other hother
  rcases List.mem_append.mp hother with hother | hother
  · have hne : e.id ≠ other.id := fun heq => he (heq ▸ List.mem_map_of_mem hother)
    rw [hf, if_neg hne, h other hother]
  · rw [List.mem_singleton.mp hother, hf, if_pos rfl]

/-- A map with one more new element answers as before when asked for an id that is not new. -/
theorem answer_concat_of_not_mem {α : Type} {f f' f₀ : ElementId → Option α} {a : α}
    {e : Element} (hf : ∀ id, f' id = if e.id = id then some a else f id)
    (h : ∀ id ∉ new.map (·.id), f id = f₀ id) :
    ∀ id ∉ (new ++ [e]).map (·.id), f' id = f₀ id := by
  intro id hid
  rw [List.map_append, List.mem_append, not_or] at hid
  have hne : e.id ≠ id := fun heq => hid.2 (heq ▸ List.mem_cons_self)
  rw [hf, if_neg hne, h id hid.1]

namespace Seeded

/-- The screen that is seeded, as it is by now. -/
theorem extend_mem (h : w.Seeded target stylings names new further w') {record : ScreenRecord}
    (hr : record ∈ w.screens) : record.extend target.id (new.map (·.id)) ∈ w'.screens := by
  rw [h.screens]
  exact List.mem_append_left _ (List.mem_map_of_mem hr)

/-- What is not stored now is none of the new elements. -/
theorem not_mem_new (h : w.Seeded target stylings names new further w') {id : ElementId}
    (hid : id ∉ w'.elements) : id ∉ new.map (·.id) := by
  intro hmem
  rcases List.mem_map.mp hmem with ⟨e, he, rfl⟩
  have hstored := h.stored e he
  rw [Std.ExtTreeMap.getElem?_eq_none hid] at hstored
  exact absurd hstored.symm (Option.some_ne_none e)

/-- The element that comes next is new, and it is described by how many there are. -/
theorem exists_push (h : w.Seeded target stylings [] new [] w') (ht : target ∈ w.screens)
    (styling : Styling) :
    ∃ e, e = styling.element (target.elementIds.length + stylings.length) e.id
      ∧ Template.addStyled target.id w' styling = w'.push target.id e ∧ e.id ∉ w'.elements := by
  -- By now the screen has one more element for every styling before this one.
  have hlength : new.length = stylings.length := by
    rw [← h.described.length_eq, List.length_zipIdx]
  have hcount : (target.extend target.id (new.map (·.id))).elementIds.length
      = target.elementIds.length + stylings.length := by
    rw [ScreenRecord.extend, if_pos rfl, List.length_append, List.length_map, hlength]
  have hpush := h.ranked.addStyled_eq (h.extend_mem ht) styling
  rw [ScreenRecord.id_extend, hcount] at hpush
  exact ⟨_, rfl, hpush, fun hmem => Counter.issue_not_mem elementStem w'.elements.keys
    w'.numbering.elements (Std.ExtTreeMap.mem_keys.mpr hmem)⟩

/-- One more element. -/
theorem addStyled (h : w.Seeded target stylings [] new [] w') (ht : target ∈ w.screens)
    (styling : Styling) : ∃ e, w.Seeded target (stylings ++ [styling]) [] (new ++ [e]) []
      (Template.addStyled target.id w' styling) := by
  rcases h.exists_push ht styling with ⟨e, he, hpush, hfresh⟩
  have hnew := h.not_mem_new hfresh
  have hranked := h.ranked.addStyled target.id styling
  rw [hpush] at hranked ⊢
  -- The maps have one more answer, and the rest is as the steps before have left it.
  refine ⟨e,
    { described := ?_, nodup := ?_, fresh := ?_, named := h.named, empty := h.empty,
      ranked := hranked, screens := ?_,
      stored := answer_concat (getElem?_push w' target.id e) hnew h.stored,
      kept := answer_concat_of_not_mem (getElem?_push w' target.id e) h.kept,
      owned := answer_concat (owner?_push w' target.id e) hnew h.owned,
      owners := answer_concat_of_not_mem (owner?_push w' target.id e) h.owners,
      assets := h.assets, active := h.active, selected := ?_, numbering := ?_ }⟩
  · rw [List.zipIdx_append]
    exact List.rel_append h.described (List.Forall₂.cons he List.Forall₂.nil)
  · rw [List.map_append, List.map_singleton, ← List.concat_eq_append, List.nodup_concat]
    exact ⟨hnew, h.nodup⟩
  · refine List.forall_mem_append.mpr ⟨h.fresh, List.forall_mem_singleton.mpr ?_⟩
    rwa [Std.ExtTreeMap.mem_iff_isSome_getElem?, ← h.kept e.id hnew,
      ← Std.ExtTreeMap.mem_iff_isSome_getElem?]
  · show w'.screens.map (ScreenRecord.extend target.id [e.id]) = _
    rw [h.screens, List.append_nil, List.append_nil, List.map_map, List.map_append]
    exact List.map_congr_left fun record _ => ScreenRecord.extend_extend target.id _ [e.id] record
  · rw [List.getLast?_concat]
    rfl
  · show (w'.numbering.issueElement w'.elements.keys).2 = _
    rw [h.numbering, List.length_append, List.length_singleton, Nat.add_comm,
      Function.iterate_add_apply]
    rfl

/-- One more screen. -/
theorem addScreen (h : w.Seeded target stylings names new further w') (name : String) :
    ∃ record, w.Seeded target stylings (names ++ [name]) new (further ++ [record])
      (w'.addScreen (some name)).2 := by
  refine ⟨(w'.addScreen (some name)).1,
    { described := h.described, nodup := h.nodup, fresh := h.fresh, named := ?_, empty := ?_,
      ranked := h.ranked.addScreen (some name), screens := ?_, stored := h.stored, kept := h.kept,
      owned := h.owned, owners := h.owners, assets := h.assets, active := ?_,
      selected := h.selected, numbering := ?_ }⟩
  · rw [List.map_append, h.named]
    rfl
  · exact List.forall_mem_append.mpr ⟨h.empty, List.forall_mem_singleton.mpr rfl⟩
  · have hadded : (w'.addScreen (some name)).2.screens
        = w'.screens ++ [(w'.addScreen (some name)).1] := rfl
    rw [hadded, h.screens, List.append_assoc]
  · rw [List.getLast?_concat]
    rfl
  · show (w'.numbering.issueScreen w'.placement.positions.keys).2 = _
    rw [h.numbering, List.length_append, List.length_singleton, Nat.add_comm,
      Function.iterate_add_apply]
    rfl

/-- Any number of screens. -/
theorem foldl_addScreen (h : w.Seeded target stylings [] new [] w') (names : List String) :
    ∃ further, w.Seeded target stylings names new further
      (names.foldl (fun w name => (w.addScreen (some name)).2) w') := by
  induction names using List.reverseRecOn with
  | nil => exact ⟨[], h⟩
  | append_singleton names name ih =>
      rcases ih with ⟨further, h⟩
      rcases h.addScreen name with ⟨record, h⟩
      rw [List.foldl_append]
      exact ⟨further ++ [record], h⟩

end Seeded

/-- Any number of elements. -/
theorem Ranked.seeded_foldl (hw : w.Ranked) (ht : target ∈ w.screens) (stylings : List Styling) :
    ∃ new, w.Seeded target stylings [] new []
      (stylings.foldl (Template.addStyled target.id) w) := by
  induction stylings using List.reverseRecOn with
  | nil => exact ⟨[], hw.seeded_self target⟩
  | append_singleton stylings styling ih =>
      rcases ih with ⟨new, h⟩
      rcases h.addStyled ht styling with ⟨e, h⟩
      rw [List.foldl_append]
      exact ⟨new ++ [e], h⟩

/-- Seeding a screen that there is. -/
theorem Ranked.seeded (hw : w.Ranked) (ht : target ∈ w.screens) (template : Template) :
    ∃ new further, w.Seeded target template.stylings template.furtherScreens new further
      (template.apply w target.id) := by
  rcases hw.seeded_foldl ht template.stylings with ⟨new, hstyled⟩
  exact ⟨new, hstyled.foldl_addScreen template.furtherScreens⟩

/-! ### What is shown -/

/-- A screen that lists nothing but stored elements is shown as before, and the one that is
    seeded has the new elements in front. -/
theorem Seeded.snapshot?_eq (h : w.Seeded target stylings names new further w')
    {record : ScreenRecord} (hr : record ∈ w.screens)
    (hlisted : ∀ id ∈ record.elementIds, id ∈ w.elements) :
    w'.snapshot? record.id = some (if record.id = target.id then
        { w.assemble record with elements := w.elementsOf record ++ new }
      else w.assemble record) := by
  have hfound := h.ranked.screen?_eq_some (h.extend_mem hr)
  rw [ScreenRecord.id_extend] at hfound
  have hearlier :
      record.elementIds.filterMap (fun id => w'.elements[id]?) = w.elementsOf record := by
    refine List.filterMap_congr fun id hid => h.kept id fun hmem => ?_
    rcases List.mem_map.mp hmem with ⟨e, he, rfl⟩
    exact h.fresh e he (hlisted e.id hid)
  have hnew : (new.map (·.id)).filterMap (fun id => w'.elements[id]?) = new := by
    rw [List.filterMap_map]
    calc new.filterMap ((fun id => w'.elements[id]?) ∘ (·.id))
        = new.filterMap some := List.filterMap_congr h.stored
      _ = new := List.filterMap_some
  rw [snapshot?, hfound, Option.map_some, ScreenRecord.extend]
  split
  · rw [assemble, elementsOf, List.filterMap_append, hearlier, hnew]
    rfl
  · rw [assemble, elementsOf, hearlier]
    rfl

/-! ### Screens that there are not -/

/-- Without the screen there are no styled elements. -/
theorem Ranked.addStyled_of_not_mem (hw : w.Ranked) {screen : ScreenId} (h : screen ∉ w.screenIds)
    (styling : Styling) : Template.addStyled screen w styling = w := by
  rw [Template.addStyled, Workspace.addElement, hw.position?_eq_none h]
  rfl

theorem Ranked.apply_of_not_mem (hw : w.Ranked) {screen : ScreenId} (h : screen ∉ w.screenIds)
    (template : Template) : template.apply w screen
      = template.furtherScreens.foldl (fun w name => (w.addScreen (some name)).2) w := by
  have hstyled (stylings : List Styling) : stylings.foldl (Template.addStyled screen) w = w := by
    induction stylings with
    | nil => rfl
    | cons styling stylings ih => rw [List.foldl_cons, hw.addStyled_of_not_mem h, ih]
  rw [Template.apply, hstyled]

/-- A template leaves a workspace alone when there is no screen to seed, unless it appends a
    screen. -/
theorem Ranked.apply_eq_self_iff (hw : w.Ranked) {screen : ScreenId} (h : screen ∉ w.screenIds)
    (template : Template) : template.apply w screen = w ↔ template ≠ .menu := by
  rw [hw.apply_of_not_mem h]
  cases template with
  | loading => exact iff_of_true rfl Template.noConfusion
  | menu =>
      refine iff_of_false (fun heq => ?_) (fun hne => hne rfl)
      have hlength : (w.screens ++ [(w.addScreen (some "SubMenu")).1]).length = w.screens.length :=
        congrArg (·.screens.length) heq
      rw [List.length_append] at hlength
      exact absurd hlength (Nat.succ_ne_self _)

/-- Whatever has been done to a workspace, seeding a screen that it has leaves all screens and
    elements as they are and puts the elements of the template in front of those of the screen,
    and its screens behind all others. Without the screen no template but the menu does
    anything, and that one appends its screen all the same. -/
theorem seeding_run (p : Project) (operations : List Operation) (template : Template) :
    let w := (load p).run operations
    (∀ screen ∉ w.screenIds, (template.apply w screen = w ↔ template ≠ .menu)
        ∧ (template = .menu → template.apply w screen = (w.addScreen (some "SubMenu")).2))
      ∧ ∀ target ∈ w.screens, ∃ new further, w.Seeded target template.stylings
          template.furtherScreens new further (template.apply w target.id)
        ∧ ∀ record ∈ w.screens, (∀ id ∈ record.elementIds, id ∈ w.elements) →
          (template.apply w target.id).snapshot? record.id
            = some (if record.id = target.id then
                { w.assemble record with elements := w.elementsOf record ++ new }
              else w.assemble record) := by
  intro w
  have hw : w.Ranked := ranked_run p operations
  refine ⟨fun screen hscreen => ⟨hw.apply_eq_self_iff hscreen template, ?_⟩, fun target ht => ?_⟩
  · rintro rfl
    exact hw.apply_of_not_mem hscreen .menu
  · rcases hw.seeded ht template with ⟨new, further, h⟩
    exact ⟨new, further, h, fun record hr hlisted => h.snapshot?_eq hr hlisted⟩

/-- The menu appends its screen to a workspace without the one that is to be seeded. -/
theorem not_apply_menu_eq_self :
    let w := load {}
    ¬("nowhere" ∉ w.screenIds → Template.menu.apply w "nowhere" = w) := by
  intro w h
  have hscreen : "nowhere" ∉ w.screenIds := by decide +kernel
  exact ((ranked_load {}).apply_eq_self_iff hscreen .menu).mp (h hscreen) rfl

end Workspace

end PanelSketch
