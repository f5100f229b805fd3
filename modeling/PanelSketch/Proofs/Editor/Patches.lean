import PanelSketch.Proofs.Editor.LastWord
import PanelSketch.Proofs.Editor.Session
import PanelSketch.Proofs.Text.Signed

/-!
# Patches of Elements

A patch of an element changes one entry of the store. Each of the eight fields that it can
reach is settled by the last key that names it with a value of use, and every field has a
use of its own for values: a name and a color need a text that is not empty, coordinates and
sizes need an integer that fits a word, sizes a positive one, and the two references take
any value, so that one without text clears them.

No value is rejected as a whole. What is of no use for a field leaves it as it was, and the
other fields of the same patch still change. Since the outcome depends on the patch and not
on the order of its keys, a second time changes nothing.

## Main definitions

* `Json.Value.GivesLabel`, …, `Json.Value.GivesSize`: What a value gives each sort of field.
* `Element.Patched`: An element before and after a patch.
* `Editor.SettlesPatch`: What an editor makes of a patch.

## Theorems

* `Element.patched`: All fields of an element are settled.
* `Element.patch_coordinate`: A patch of a coordinate alone.
* `Editor.settlesPatch_session`: Both, in every session.
-/

namespace PanelSketch

/-! ### Values -/

namespace Json.Value

/-- A text that is not empty. -/
def GivesLabel (v : Value) (label : String) : Prop :=
  patchText v = some label ∧ label ≠ ""

/-- A name of an asset, which every value gives; the empty text is no name. -/
def GivesReference (v : Value) (name? : Option String) : Prop :=
  name? = (patchText v).filter (· ≠ "")

/-- A screen to go to, which every value gives. -/
def GivesTarget (v : Value) (screen? : Option ScreenId) : Prop :=
  screen? = patchText v

/-- A text that, trimmed, writes an integer of 32 bits. -/
def GivesPixels (v : Value) (x : Int32) : Prop :=
  ∃ s, patchText v = some s ∧ Text.WritesInteger (Text.trim s).toList x.toInt

/-- The same with an integer that is positive. -/
def GivesSize (v : Value) (x : Int32) : Prop :=
  v.GivesPixels x ∧ 0 < x

variable {v : Value}

theorem patchLabel_eq_some_iff {label : String} :
    patchLabel v = some label ↔ v.GivesLabel label := by
  rw [patchLabel, Option.filter_eq_some_iff, GivesLabel, decide_eq_true_eq]

theorem patchPixels_eq_some_iff {x : Int32} : patchPixels v = some x ↔ v.GivesPixels x := by
  rw [patchPixels, Option.bind_eq_some_iff, GivesPixels]
  simp only [Text.pixels?_eq_some_iff]

theorem patchSize_eq_some_iff {x : Int32} : patchSize v = some x ↔ v.GivesSize x := by
  rw [patchSize, Option.filter_eq_some_iff, patchPixels_eq_some_iff, GivesSize, decide_eq_true_eq]

/-- A number that fits a word is read back from its digits. -/
theorem patchPixels_integer (x : Int32) : patchPixels (.number (.integer x.toInt)) = some x := by
  refine patchPixels_eq_some_iff.mpr ⟨x.toInt.repr, rfl, ?_⟩
  rw [Text.trim_repr]
  exact Text.writesInteger_repr x.toInt

end Json.Value

/-! ### Elements -/

namespace Element

/-- An element before and after a patch. -/
structure Patched (changes : Patch) (e e' : Element) : Prop where
  name : changes.Settles "name" Json.Value.GivesLabel e.name e'.name
  color : changes.Settles "color" Json.Value.GivesLabel e.color e'.color
  asset : changes.Settles "asset" Json.Value.GivesReference e.asset e'.asset
  target : changes.Settles "targetScreenId" Json.Value.GivesTarget e.target e'.target
  x : changes.Settles "x" Json.Value.GivesPixels e.x e'.x
  y : changes.Settles "y" Json.Value.GivesPixels e.y e'.y
  w : changes.Settles "w" Json.Value.GivesSize e.w e'.w
  h : changes.Settles "h" Json.Value.GivesSize e.h e'.h
  id : e'.id = e.id
  kind : e'.kind = e.kind
  bindings : e'.bindings = e.bindings

theorem patched (changes : Patch) (e : Element) : Patched changes e (e.patch changes) := by
  rw [patch_eq]
  exact {
    name := changes.settles (by decide +kernel) (fun _ _ => Json.Value.patchLabel_eq_some_iff) _
    color := changes.settles (by decide +kernel) (fun _ _ => Json.Value.patchLabel_eq_some_iff) _
    asset := changes.settles (by decide +kernel) (fun _ _ => Option.some_inj.trans eq_comm) _
    target := changes.settles (by decide +kernel) (fun _ _ => Option.some_inj.trans eq_comm) _
    x := changes.settles (by decide +kernel) (fun _ _ => Json.Value.patchPixels_eq_some_iff) _
    y := changes.settles (by decide +kernel) (fun _ _ => Json.Value.patchPixels_eq_some_iff) _
    w := changes.settles (by decide +kernel) (fun _ _ => Json.Value.patchSize_eq_some_iff) _
    h := changes.settles (by decide +kernel) (fun _ _ => Json.Value.patchSize_eq_some_iff) _
    id := rfl
    kind := rfl
    bindings := rfl }

/-- A size that a patch settles is what it was, or positive. -/
theorem eq_or_pos_of_settles {changes : Patch} {field : String} {size size' : Int32}
    (h : changes.Settles field Json.Value.GivesSize size size') : size' = size ∨ 0 < size' := by
  cases h with
  | byKey _ hgives => exact Or.inr hgives.2
  | kept _ => exact Or.inl rfl

/-- A patch of a coordinate alone sets it, whatever word it is. -/
theorem patch_coordinate (e : Element) (x : Int32) :
    e.patch (Patch.ofMembers [("x", .number (.integer x.toInt))]) = { e with x } := by
  have hmembers : (Patch.ofMembers [("x", .number (.integer x.toInt))]).toList
      = [("x", .number (.integer x.toInt))] := rfl
  have hsmall : "x".toLower = "x" := by decide +kernel
  rw [patch, hmembers]
  simp only [List.foldl_cons, List.foldl_nil, patchField, hsmall, Json.Value.patchPixels_integer,
    Option.getD_some]

end Element

/-! ### Editors -/

/-- No element is stored under the empty id, so looking one up needs no exception. -/
theorem Workspace.Sound.element?_eq {w : Workspace} (h : w.Sound) (id : ElementId) :
    w.element? id = w.elements[id]? := by
  unfold element?
  split
  case isFalse => rfl
  case isTrue hempty =>
    have hnot : "" ∉ w.elements := fun hmem =>
      h.empty_not_mem_elementIds ((h.mem_elements "").mp hmem)
    rw [String.isEmpty_iff.mp hempty, getElem?_neg w.elements "" hnot]

namespace Editor

/-- An editor with another element in place of the one with an id. -/
def replaceElement (editor : Editor) (id : ElementId) (e : Element) : Editor :=
  { editor with workspace :=
    { editor.workspace with elements := editor.workspace.elements.insert id e } }

/-- What an editor makes of a patch. An id that no element has is refused. An element is
    replaced by the patched one, and there is nothing to do for the same patch again. -/
structure SettlesPatch (editor : Editor) (id : ElementId) (changes : Patch) : Prop where
  unknown : editor.workspace.element? id = none →
    editor.handle (.patchElement id changes) = (.done false, editor)
  known : ∀ e, editor.workspace.element? id = some e → ∃ e', Element.Patched changes e e'
    ∧ (e'.w = e.w ∨ 0 < e'.w) ∧ (e'.h = e.h ∨ 0 < e'.h)
    ∧ editor.handle (.patchElement id changes) = (.done true, editor.replaceElement id e')
  again : let after := (editor.handle (.patchElement id changes)).2
    (after.handle (.patchElement id changes)).2 = after

variable {editor : Editor} {id : ElementId}

theorem handle_patchElement_unknown (h : editor.workspace.elements[id]? = none) (changes : Patch) :
    editor.handle (.patchElement id changes) = (.done false, editor) := by
  rw [handle, Workspace.editElement, h]
  rfl

theorem handle_patchElement_stored {e : Element} (h : editor.workspace.elements[id]? = some e)
    (changes : Patch) : editor.handle (.patchElement id changes)
      = (.done true, editor.replaceElement id { e.patch changes with id }) := by
  rw [handle, Workspace.editElement, h]
  rfl

/-- A patch has no key for the id, so there is nothing to put back. -/
theorem handle_patchElement_known {e : Element} (h : editor.workspace.elements[id]? = some e)
    (hid : e.id = id) (changes : Patch) : editor.handle (.patchElement id changes)
      = (.done true, editor.replaceElement id (e.patch changes)) := by
  have hkept : { e.patch changes with id } = e.patch changes := by
    rw [← hid, ← (Element.patched changes e).id]
  rw [handle_patchElement_stored h, hkept]

theorem getElem?_replaceElement (editor : Editor) (id : ElementId) (e : Element) :
    (editor.replaceElement id e).workspace.elements[id]? = some e := by
  rw [replaceElement, getElem?_insert_eq, if_pos rfl]

/-- Of two elements in one place the later stays. -/
theorem replaceElement_replaceElement (editor : Editor) (id : ElementId) (e e' : Element) :
    (editor.replaceElement id e).replaceElement id e' = editor.replaceElement id e' := by
  have hinsert : (editor.workspace.elements.insert id e).insert id e'
      = editor.workspace.elements.insert id e' := by
    refine Std.ExtTreeMap.ext_getElem? fun k => ?_
    simp only [getElem?_insert_eq]
    split
    · rfl
    · rfl
  rw [replaceElement, replaceElement, hinsert]
  rfl

theorem Holds.settlesPatch (h : editor.Holds) (id : ElementId) (changes : Patch) :
    editor.SettlesPatch id changes := by
  have hfind := h.sound.element?_eq id
  constructor
  case unknown => exact fun hnone => handle_patchElement_unknown (hfind ▸ hnone) changes
  case known =>
    intro e he
    have hpatched := Element.patched changes e
    have hstored : editor.workspace.elements[id]? = some e := hfind ▸ he
    exact ⟨e.patch changes, hpatched, Element.eq_or_pos_of_settles hpatched.w,
      Element.eq_or_pos_of_settles hpatched.h,
      handle_patchElement_known hstored (h.sound.id_of_stored id e hstored) changes⟩
  case again =>
    intro after
    rcases hstored : editor.workspace.elements[id]? with _ | e
    · have hstay := handle_patchElement_unknown hstored changes
      simp only [after, hstay]
    · -- The second patch finds the element that the first one has left.
      have hid := h.sound.id_of_stored id e hstored
      have honce := handle_patchElement_known hstored hid changes
      have htwice := handle_patchElement_known
        (getElem?_replaceElement editor id (e.patch changes))
        ((Element.patched changes e).id.trans hid) changes
      simp only [after, honce, htwice, Element.patch_idem, replaceElement_replaceElement]

/-- In every session, a patch of an element settles its fields and touches nothing else, and
    a coordinate can be set to any word. -/
theorem settlesPatch_session (settings : Settings) (p : Project) {steps : List Step}
    (hkeep : ∀ step ∈ steps, step.KeepsLists) (id : ElementId) (changes : Patch) :
    let editor := (ofProject settings p).session steps
    editor.SettlesPatch id changes ∧ ∀ e x, editor.workspace.element? id = some e →
      (editor.handle (.patchElement id (Patch.ofMembers [("x", .number (.integer x.toInt))]))).2
        = editor.replaceElement id { e with x } := by
  intro editor
  have hholds : editor.Holds := (holds_ofProject settings p).session hkeep
  refine ⟨hholds.settlesPatch id changes, fun e x he => ?_⟩
  have hstored : editor.workspace.elements[id]? = some e := hholds.sound.element?_eq id ▸ he
  rw [handle_patchElement_known hstored (hholds.sound.id_of_stored id e hstored),
    Element.patch_coordinate]

/-- Of two widths the later one is not positive, so the earlier one counts, with the sign and
    the blanks that it has. -/
theorem settlesPatch_session_two_widths :
    let e : Element := { id := "e", kind := .fillRect, name := "Box" }
    let p : Project := { screens := [{ id := "s", elements := [e] }] }
    let steps : List Step := [.request (.addElement "s" "drawRect" none)]
    let editor := (ofProject {} p).session steps
    let changes := Patch.ofMembers [("w", .text "-5"), ("W", .text " +70 "), ("NAME", .text "")]
    (∀ step ∈ steps, step.KeepsLists) ∧ editor.SettlesPatch "e" changes
      ∧ (editor.handle (.patchElement "e" changes)).2.workspace.element? "e"
        = some { e with w := 70 }
      ∧ (editor.handle (.patchElement "e"
        (Patch.ofMembers [("x", .number (.integer (-7 : Int32).toInt))]))).2
        = editor.replaceElement "e" { e with x := -7 } := by
  intro e p steps editor changes
  have hkeep : ∀ step ∈ steps, step.KeepsLists := List.forall_mem_singleton.mpr trivial
  have he : editor.workspace.element? "e" = some e := by decide +kernel
  have hsettles := settlesPatch_session {} p hkeep "e" changes
  exact ⟨hkeep, hsettles.1, by decide +kernel, hsettles.2 e (-7) he⟩

end Editor

end PanelSketch
