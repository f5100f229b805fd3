import PanelSketch.Proofs.Editor.Session
import PanelSketch.Proofs.Sketch.Locality

/-!
# Edits Are Local

A patch of an element shows up in the exports where the element is drawn and nowhere
else. The header and the files of an archive do not look at elements. In the sketch, the
routines of other screens stay, and so does the text in front of the element and behind
it.

What is not drawn does not show up at all. A patch that only says where a tap leads, a
selection and a rebuilt placement leave every export as it was, and so does any other
change of ids, counters and bindings.

The first is about one place of a project. Ids do not repeat in it, so the place of an
element is the only one that a patch reaches.

## Main definitions

* `Editor.ElementEdited`: What changes when an element does.
* `Editor.SameText`: The sketch and the header read alike.
* `Element.drawnKeys`: The keys of a patch that change what is drawn.

## Theorems

* `Project.editElement_split`: Editing an element changes one place.
* `Project.shown_editElement`: A patch without such keys changes nothing that is shown.
* `Editor.edits_local`: Both, in every session.
-/

namespace PanelSketch

/-! ### One place -/

/-- Elements of other ids are left alone. -/
theorem map_editOnly_of_not_mem {id : ElementId} {edit : Element → Element} {es : List Element}
    (h : id ∉ es.map (·.id)) : es.map (·.editOnly id edit) = es := by
  have hother : ∀ e ∈ es, e.editOnly id edit = e := by
    intro e he
    have hne : e.id ≠ id := by
      rintro rfl
      exact h (List.mem_map_of_mem he)
    rw [Element.editOnly, if_neg hne]
  exact (List.map_congr_left hother).trans (List.map_id _)

/-- Editing an element changes it where it stands. -/
theorem Project.editElement_split {p : Project} (h : p.WellFormed) {screens screens' : List Screen}
    {s : Screen} {front back : List Element} {e : Element}
    (hscreens : p.screens = screens ++ s :: screens') (helements : s.elements = front ++ e :: back)
    (edit : Element → Element) :
    p.editElement e.id edit = some { p with screens := screens
      ++ { s with elements := front ++ { edit e with id := e.id } :: back } :: screens' } := by
  have hs : s ∈ p.screens := hscreens ▸ List.mem_append_right _ List.mem_cons_self
  have he : e ∈ s.elements := helements ▸ List.mem_append_right _ List.mem_cons_self
  have hlocated : (s.id, e) ∈ p.located := mem_located.mpr ⟨s, hs, rfl, he⟩
  have hguard : e.id ∈ p.elementIds := mem_elementIds.mpr ⟨s, hs, List.mem_map_of_mem he⟩
  let change (t : Screen) : Screen := { t with elements := t.elements.map (·.editOnly e.id edit) }
  -- Only the screen that has the element has its id.
  have hother : ∀ t ∈ p.screens, change t = if t.id = s.id then change t else t := by
    intro t ht
    split
    · rfl
    · rename_i hid
      have hnot : e.id ∉ t.elementIds := fun hmem =>
        hid ((h.mem_elementIds_iff_screen hlocated ht).mp hmem)
      rw [show change t = { t with elements := t.elements.map (·.editOnly e.id edit) } from rfl,
        map_editOnly_of_not_mem hnot]
  have hupdated : p.screens.map change = screens ++ change s :: screens' := by
    have hn := h.screens.nodup
    rw [screenIds, hscreens] at hn
    rw [List.map_congr_left hother, hscreens]
    exact map_update_split hn change
  -- And only the element has it on that screen.
  have hedited : s.elements.map (·.editOnly e.id edit)
      = front ++ { edit e with id := e.id } :: back := by
    have hn := h.elementIds_nodup_screen hs
    rw [Screen.elementIds, helements] at hn
    rw [helements]
    exact map_update_split hn fun d => { edit d with id := e.id }
  rw [editElement, Option.bind_eq_bind, guard_bind, if_pos hguard, updateElements,
    show (p.screens.map fun t => { t with elements := t.elements.map (·.editOnly e.id edit) })
      = p.screens.map change from rfl, hupdated, ← hedited]
  rfl

/-! ### Patches -/

/-- The keys of a patch that change what is drawn. -/
def Element.drawnKeys : List String :=
  ["name", "color", "asset", "x", "y", "w", "h"]

theorem Element.shown_patchField {key : String} (h : key.toLower ∉ drawnKeys) (e : Element)
    (v : Json.Value) : (e.patchField key v).shown = e.shown := by
  unfold patchField
  split <;> first
    | rfl
    | exact absurd (by assumption) fun hkey => h (by rw [hkey]; decide)

theorem Element.shown_patch {changes : Patch} (h : ∀ key ∈ changes, key.toLower ∉ drawnKeys)
    (e : Element) : (e.patch changes).shown = e.shown := by
  have hmembers : ∀ member ∈ changes.toList, member.1.toLower ∉ drawnKeys := by
    intro member hmember
    refine h member.1 (Std.ExtTreeMap.mem_iff_isSome_getElem?.mpr ?_)
    rw [Std.ExtTreeMap.mem_toList_iff_getElem?_eq_some.mp hmember]
    rfl
  rw [Element.patch]
  generalize changes.toList = members at hmembers
  induction members generalizing e with
  | nil => rfl
  | cons member members ih =>
      rw [List.forall_mem_cons] at hmembers
      rw [List.foldl_cons, ih _ hmembers.2, shown_patchField hmembers.1]

/-- A patch without such a key changes nothing that is shown. -/
theorem Project.shown_editElement {changes : Patch}
    (h : ∀ key ∈ changes, key.toLower ∉ Element.drawnKeys) {p p' : Project} {id : ElementId}
    (hedit : p.editElement id (Element.patch changes) = some p') : p'.shown = p.shown := by
  simp only [Project.editElement, Option.bind_eq_bind, Option.bind_eq_some_iff, guard_eq_some,
    Option.pure_def, Option.some.injEq] at hedit
  rcases hedit with ⟨_, _, rfl⟩
  have helement (e : Element) : (e.editOnly id (Element.patch changes)).shown = e.shown := by
    unfold Element.editOnly
    split
    · exact Element.shown_patch h e
    · rfl
  have hscreen (s : Screen) :
      ({ s with elements := s.elements.map (·.editOnly id (Element.patch changes)) } : Screen).shown
        = s.shown := by
    rw [Screen.shown, List.map_map, Screen.shown]
    exact congrArg (Screen.mk _ _ _ _ _) (List.map_congr_left fun e _ => helement e)
  rw [shown, updateElements, List.map_map, shown]
  exact congrArg (Project.mk · _ _ _ _ _) (List.map_congr_left fun s _ => hscreen s)

/-- Neither does a selection. -/
theorem Project.shown_selectScreen {p p' : Project} {id : ScreenId}
    (hselect : p.selectScreen id = some p') : p'.shown = p.shown := by
  unfold selectScreen at hselect
  split at hselect
  · rw [← Option.some.inj hselect]
    rfl
  · exact absurd hselect (by simp only [reduceCtorEq, not_false_eq_true])

/-! ### Sessions -/

namespace Editor

/-- The sketch and the header read alike. -/
structure SameText (before after : Editor) : Prop where
  sketch : after.sketch.render = before.sketch.render
  header : after.header.render = before.header.render

/-- What changes in the exports when an element of a screen does: its own lines, with the
    same text around them. -/
structure ElementEdited (before after : Editor) (s : Screen) (e e' : Element) : Prop where
  header : after.header = before.header
  /-- Either both archives can be put together or neither, and besides the sketch they
      hold and report the same. -/
  bundle : after.bundle = before.bundle.map fun bundle =>
    ⟨Bundle.textEntry before.settings.files.sketchFile after.sketch.render
      :: bundle.entries.tail, bundle.skipped⟩
  sketch : after.sketch = { before.sketch with routines := after.sketch.routines }
  routines : ∃ screens screens' front back routines name lines lines' routines',
    before.project.screens = screens ++ s :: screens' ∧ s.elements = front ++ e :: back
      ∧ routines.length = screens.length
      ∧ before.sketch.routines = routines ++ ⟨name, lines⟩ :: routines'
      ∧ after.sketch.routines = routines ++ ⟨name, lines'⟩ :: routines'
      ∧ Routine.text ⟨name, lines⟩
        = s.textAround (AssetSymbols.ofAssets before.project.assets) before.settings.panel name
          front back (e.text (AssetSymbols.ofAssets before.project.assets)
            before.settings.panel.cornerRadius.toNat)
      ∧ Routine.text ⟨name, lines'⟩
        = s.textAround (AssetSymbols.ofAssets before.project.assets) before.settings.panel name
          front back (e'.text (AssetSymbols.ofAssets before.project.assets)
            before.settings.panel.cornerRadius.toNat)

theorem elementEdited (settings : Settings) {p : Project} (h : p.WellFormed) {s : Screen}
    (hs : s ∈ p.screens) {e : Element} (he : e ∈ s.elements) (edit : Element → Element) :
    ∃ p', p.editElement e.id edit = some p'
      ∧ ElementEdited (holding settings p) (holding settings p') s e
        { edit e with id := e.id } := by
  rcases List.append_of_mem hs with ⟨screens, screens', hscreens⟩
  rcases List.append_of_mem he with ⟨front, back, helements⟩
  have hedit := Project.editElement_split h hscreens helements edit
  have hedited := h.editElement hedit
  rcases routines_split settings p screens screens' s hscreens with
    ⟨routines, name, routines', hlength, hroutines⟩
  -- Before the edit, the gaps are filled with the screen and the element that are there.
  have hbefore := hroutines s rfl
  have htext := text_routine_split (AssetSymbols.ofAssets p.assets) settings.panel name s front
    back e
  rw [← hscreens] at hbefore
  rw [← helements] at htext
  refine ⟨_, hedit, ?_⟩
  refine { header := ?_, bundle := ?_, sketch := rfl, routines := ?_ } <;>
    simp only [Editor.header, Editor.bundle, Editor.sketch, project_holding settings h,
      project_holding settings hedited]
  · rfl
  · exact Bundle.ofProject_eq_map settings rfl
  · exact ⟨screens, screens', front, back, routines, name, _, _, routines', hscreens, helements,
      hlength, hbefore, hroutines { s with elements := _ } rfl, htext,
      text_routine_split _ _ _ s front back _⟩

/-- A project that shows the same is exported by the same texts. -/
theorem sameText_of_shown (settings : Settings) {p p' : Project} (h : p.WellFormed)
    (h' : p'.WellFormed) (hshown : p'.shown = p.shown) :
    SameText (holding settings p) (holding settings p') := by
  refine { sketch := ?_, header := ?_ } <;>
    simp only [Editor.header, Editor.sketch, project_holding settings h,
      project_holding settings h']
  · exact congrArg Sketch.render (sketch_eq_of_shown settings hshown)
  · exact congrArg Header.render (header_eq_of_shown settings hshown)

/-- A request that is refused, or leaves a project that shows the same. -/
theorem sameText_report (settings : Settings) {p : Project} (h : p.WellFormed)
    {outcome : Bool × Workspace} {result : Option Project}
    (heq : outcome = Workspace.scanned p result)
    (hshown : ∀ p', result = some p' → p'.WellFormed ∧ p'.shown = p.shown) :
    SameText (holding settings p) ((holding settings p).report outcome).2 := by
  rw [heq]
  rcases result with _ | p'
  · exact ⟨rfl, rfl⟩
  · exact sameText_of_shown settings h (hshown p' rfl).1 (hshown p' rfl).2

/-- In every session, a patch of an element changes the lines of that element and no
    others. What is not drawn changes nothing: neither a patch of the target of an element
    nor a selection nor a rebuilt placement, and no other change of ids, counters and
    bindings between two projects. -/
theorem edits_local (settings : Settings) (p : Project) {steps : List Step}
    (hkeep : ∀ step ∈ steps, step.KeepsLists) :
    let editor := (ofProject settings p).session steps
    (∀ s ∈ editor.project.screens, ∀ e ∈ s.elements, ∀ changes : Patch,
        (editor.handle (.patchElement e.id changes)).1 = .done true
          ∧ ElementEdited editor (editor.handle (.patchElement e.id changes)).2 s e
            { e.patch changes with id := e.id })
      ∧ (∀ (id : ElementId) (changes : Patch),
        (∀ key ∈ changes, key.toLower ∉ ["name", "color", "asset", "x", "y", "w", "h"]) →
          SameText editor (editor.handle (.patchElement id changes)).2)
      ∧ (∀ id : ScreenId, SameText editor (editor.handle (.selectScreen id)).2)
      ∧ SameText editor (editor.step (.operation .rebuild))
      ∧ ∀ q q' : Project, q.shown = q'.shown →
        (Sketch.ofProject settings q).render = (Sketch.ofProject settings q').render
          ∧ (Header.ofProject settings q).render = (Header.ofProject settings q').render := by
  intro editor
  have hholds : editor.Holds := (holds_ofProject settings p).session hkeep
  rcases hholds.eq_holding with ⟨q, hq, heditor⟩
  rw [heditor, project_holding _ hq]
  refine ⟨fun s hs e he changes => ?_, fun id changes hkeys => ?_, fun id => ?_, ⟨rfl, rfl⟩,
    fun q q' hshown => ⟨?_, ?_⟩⟩
  · rcases elementEdited editor.settings hq hs he (Element.patch changes) with ⟨q', hedit, hedited⟩
    have hhandle : (holding editor.settings q).handle (.patchElement e.id changes)
        = (.done true, holding editor.settings q') := by
      rw [handle, holding, Workspace.editElement_ofProject hq, hedit]
      rfl
    rw [hhandle]
    exact ⟨rfl, hedited⟩
  · exact sameText_report _ hq (Workspace.editElement_ofProject hq id (Element.patch changes))
      fun q' hedit => ⟨hq.editElement hedit, Project.shown_editElement hkeys hedit⟩
  · exact sameText_report _ hq (Workspace.selectScreen_ofProject q id) fun q' hselect =>
      ⟨hq.selectScreen hselect, Project.shown_selectScreen hselect⟩
  · rw [sketch_eq_of_shown settings hshown]
  · rw [header_eq_of_shown settings hshown]

/-- Of two texts on a screen, the first is renamed, and then it is only said where a tap on
    it leads. Ids and a counter tell two projects apart that are exported alike. -/
theorem edits_local_renamed_and_retargeted :
    let first : Element := { id := "e", kind := .drawString, name := "Hi" }
    let second : Element := { id := "f", kind := .drawString, name := "Hi" }
    let s : Screen := { id := "s", name := "Home", elements := [first, second] }
    let p : Project := { screens := [s, { id := "t", name := "Home" }], active := "s" }
    let steps : List Step := [.request (.selectScreen "t")]
    let editor := (ofProject {} p).session steps
    let rename : Patch := (∅ : Patch).insert "NAME" (.text "Ho")
    let retarget : Patch := (∅ : Patch).insert "TargetScreenId" (.text "t")
    let q : Project := { screens := [{ id := "a" }] }
    let q' : Project := { screens := [{ id := "b" }], elementSeq := 7 }
    (∀ step ∈ steps, step.KeepsLists) ∧ s ∈ editor.project.screens ∧ first ∈ s.elements
      ∧ ElementEdited editor (editor.handle (.patchElement "e" rename)).2 s first
        { first.patch rename with id := "e" }
      ∧ (∀ key ∈ retarget, key.toLower ∉ ["name", "color", "asset", "x", "y", "w", "h"])
      ∧ SameText editor (editor.handle (.patchElement "e" retarget)).2
      ∧ q.shown = q'.shown
      ∧ (Sketch.ofProject {} q).render = (Sketch.ofProject {} q').render := by
  intro first second s p steps editor rename retarget q q'
  have hkeep : ∀ step ∈ steps, step.KeepsLists := List.forall_mem_singleton.mpr trivial
  have hs : s ∈ editor.project.screens := by decide +kernel
  have hfirst : first ∈ s.elements := List.mem_cons_self
  have hkeys : ∀ key ∈ retarget,
      key.toLower ∉ ["name", "color", "asset", "x", "y", "w", "h"] := by
    intro key hkey
    rcases Std.ExtTreeMap.mem_insert.mp hkey with hkey | hkey
    · rw [← Std.LawfulEqOrd.eq_of_compare hkey]
      decide +kernel
    · exact absurd hkey Std.ExtTreeMap.not_mem_empty
  have hshown : q.shown = q'.shown := rfl
  rcases edits_local {} p hkeep with ⟨hlocal, htarget, _, _, hexports⟩
  exact ⟨hkeep, hs, hfirst, (hlocal s hs first hfirst rename).2, hkeys, htarget "e" retarget hkeys,
    hshown, (hexports q q' hshown).1⟩

end Editor

end PanelSketch
