import PanelSketch.Proofs.Editor.Patches

/-!
# Lists and Objects in Patches

A list or an object has no text, and neither has null. For most fields that means that the
value is of no use and is skipped. The two references of an element and the background color
of a screen take a value without text as a wish to clear them, and so a list does the same
to them as null.

This is where a patch differs from the same patch without its lists and objects. It differs
nowhere else: the two leave the same editor unless a list or an object has the last word on
one of the three fields, and what the rest of the patch leaves there is not empty anyway.

## Main definitions

* `Json.Value.isCompound`: Lists and objects.
* `Patch.plain`: A patch without them.
* `Patch.EndsCompound`: One of them has the last word on a field.

## Theorems

* `lastWord?_plain`: Fields that need a text skip them.
* `getD_plain_iff`: Fields that can be cleared do not.
* `Editor.skipsCompound_iff`: When a patch does the same without them.
-/

namespace PanelSketch

/-- Whether a value is a list or an object. -/
def Json.Value.isCompound : Json.Value → Bool
  | .list _ | .object _ => true
  | .null | .boolean _ | .number _ | .text _ => false

/-- A patch without its lists and objects. -/
def Patch.plain (changes : Patch) : Patch :=
  changes.filter fun _ v => !v.isCompound

/-- The last key that names a field comes with a list or an object. -/
def Patch.EndsCompound (changes : Patch) (field : String) : Prop :=
  ∃ key v, changes.LastOf (fun key _ => Names key field) key v ∧ v.isCompound = true

theorem patchText_of_isCompound {v : Json.Value} (h : v.isCompound = true) :
    patchText v = none := by
  cases v with
  | list _ | object _ => rfl
  | null | boolean _ | number _ | text _ => exact absurd h Bool.false_ne_true

theorem patchLabel_of_isCompound {v : Json.Value} (h : v.isCompound = true) :
    patchLabel v = none := by
  rw [patchLabel, patchText_of_isCompound h, Option.filter_none]

theorem patchPixels_of_isCompound {v : Json.Value} (h : v.isCompound = true) :
    patchPixels v = none := by
  rw [patchPixels, patchText_of_isCompound h, Option.bind_none]

theorem patchSize_of_isCompound {v : Json.Value} (h : v.isCompound = true) :
    patchSize v = none := by
  rw [patchSize, patchPixels_of_isCompound h, Option.filter_none]

/-! ### Words -/

section Words

variable {α : Type} {changes : Patch} {field small : String} {use : Json.Value → Option α}

theorem toList_plain (changes : Patch) :
    changes.plain.toList = changes.toList.filter fun member => !member.2.isCompound :=
  Std.ExtTreeMap.toList_filter

/-- A field that lists and objects are of no use for skips them. -/
theorem lastWord?_plain (huse : ∀ v, v.isCompound = true → use v = none) (changes : Patch)
    (small : String) :
    lastWord? small use changes.plain.toList = lastWord? small use changes.toList := by
  rw [toList_plain]
  induction changes.toList with
  | nil => rfl
  | cons member members ih =>
      rw [lastWord?_cons]
      by_cases hmember : member.2.isCompound = true
      · -- The member has no word on the field, so it may as well be missing.
        have hsilent : wordOn small use member = none := by
          rw [wordOn, huse member.2 hmember, ite_self]
        rw [List.filter_cons_of_neg (by simp [hmember]), ih, hsilent, Option.or_none]
      · rw [List.filter_cons_of_pos (by simp [hmember]), lastWord?_cons, ih]

/-- A field that takes any value takes the last one. -/
theorem lastWord?_comp (small : String) (use : Json.Value → Option α)
    (members : List (String × Json.Value)) :
    lastWord? small (some ∘ use) members = (lastWord? small some members).map use := by
  rw [lastWord?, lastWord?, List.map_findSome?]
  refine congrArg₂ _ (funext fun member => ?_) rfl
  rw [Function.comp_apply, wordOn, wordOn, apply_ite (Option.map use)]
  rfl

/-- The last value stays the last if it is no list and no object. -/
theorem lastWord?_some_plain
    (h : ∀ v, lastWord? small some changes.toList = some v → v.isCompound = false) :
    lastWord? small some changes.plain.toList = lastWord? small some changes.toList := by
  rw [toList_plain]
  generalize changes.toList = members at h
  induction members with
  | nil => rfl
  | cons member members ih =>
      rw [lastWord?_cons] at h ⊢
      -- Whatever the later members say, they say it with plain values.
      have hlater := ih fun v hv => h v (by rw [hv, Option.some_or])
      by_cases hmember : member.2.isCompound = true
      · rw [List.filter_cons_of_neg (by simp [hmember]), hlater]
        rcases hword : lastWord? small some members with _ | v
        · rw [Option.none_or, wordOn]
          split
          case isFalse => rfl
          case isTrue hkey =>
            have hplain := h member.2 (by rw [hword, Option.none_or, wordOn, if_pos hkey])
            rw [hplain] at hmember
            exact absurd hmember Bool.false_ne_true
        · rw [Option.some_or]
      · rw [List.filter_cons_of_pos (by simp [hmember]), lastWord?_cons, hlater]

theorem endsCompound_iff (hfield : field.toLower = small) :
    changes.EndsCompound field
      ↔ ∃ v, lastWord? small some changes.toList = some v ∧ v.isCompound = true := by
  have hnames : (fun (key : String) (v : Json.Value) => key.toLower = small ∧ (some v).isSome = true)
      = fun key _ => Names key field := by
    funext key v
    rw [Names, hfield, Option.isSome_some, eq_self, and_true]
  constructor
  · rintro ⟨key, v, hlast, hv⟩
    rcases hword : lastWord? small some changes.toList with _ | v'
    · -- The key names the field, and every value has a say about it.
      have hkey : key.toLower = small := hfield ▸ hlast.holds
      exact absurd (Patch.eq_none_of_lastWord? hword hlast.mem hkey) (Option.some_ne_none v)
    · rcases Patch.lastOf_of_lastWord? hword with ⟨key', v'', hlast', hv'⟩
      rw [hnames] at hlast'
      rw [← Option.some.inj hv', ← hlast.unique hlast']
      exact ⟨v, rfl, hv⟩
  · rintro ⟨v, hword, hv⟩
    rcases Patch.lastOf_of_lastWord? hword with ⟨key, v', hlast, hv'⟩
    rw [hnames] at hlast
    exact ⟨key, v', hlast, by rwa [Option.some.inj hv']⟩

/-- A field that takes any value comes out the same without lists and objects, unless one of
    them has cleared it and it would not be empty otherwise. -/
theorem getD_plain_iff (huse : ∀ v, v.isCompound = true → use v = none)
    (hfield : field.toLower = small) (old : Option α) :
    (lastWord? small (some ∘ use) changes.plain.toList).getD old
        = (lastWord? small (some ∘ use) changes.toList).getD old
      ↔ (changes.EndsCompound field →
        (lastWord? small (some ∘ use) changes.plain.toList).getD old = none) := by
  rw [endsCompound_iff hfield]
  by_cases hends : ∃ v, lastWord? small some changes.toList = some v ∧ v.isCompound = true
  · have hcleared : (lastWord? small (some ∘ use) changes.toList).getD old = none := by
      rcases hends with ⟨v, hword, hv⟩
      rw [lastWord?_comp, hword, Option.map_some, Option.getD_some, huse v hv]
    rw [hcleared]
    exact ⟨fun h _ => h, fun h => h hends⟩
  · have hplain : lastWord? small some changes.plain.toList = lastWord? small some changes.toList :=
      lastWord?_some_plain fun v hv =>
        Bool.eq_false_iff.mpr fun hcompound => hends ⟨v, hv, hcompound⟩
    rw [lastWord?_comp, lastWord?_comp, hplain]
    exact ⟨fun _ h => absurd h hends, fun _ => rfl⟩

end Words

/-! ### Elements and screens -/

theorem Element.patch_plain_iff (e : Element) (changes : Patch) :
    e.patch changes.plain = e.patch changes
      ↔ (changes.EndsCompound "asset" → (e.patch changes.plain).asset = none)
        ∧ (changes.EndsCompound "targetScreenId" → (e.patch changes.plain).target = none) := by
  simp only [patch_eq, lastWord?_plain fun _ => patchLabel_of_isCompound,
    lastWord?_plain fun _ => patchPixels_of_isCompound,
    lastWord?_plain fun _ => patchSize_of_isCompound, Element.mk.injEq, true_and, and_true]
  have hasset : "asset".toLower = "asset" := by decide +kernel
  have htarget : "targetScreenId".toLower = "targetscreenid" := by decide +kernel
  rw [getD_plain_iff (fun _ => patchLabel_of_isCompound) hasset,
    getD_plain_iff (fun _ => patchText_of_isCompound) htarget]

theorem ScreenInfo.patch_plain_iff (s : ScreenInfo) (changes : Patch) :
    s.patch changes.plain = s.patch changes
      ↔ (changes.EndsCompound "backgroundColor" →
        (s.patch changes.plain).backgroundColor = none) := by
  simp only [patch_eq, lastWord?_plain fun _ => patchLabel_of_isCompound, ScreenInfo.mk.injEq,
    true_and]
  have hcolor : "backgroundColor".toLower = "backgroundcolor" := by decide +kernel
  rw [getD_plain_iff (fun _ => patchText_of_isCompound) hcolor]

/-! ### Editors -/

/-- Giving two elements the same id makes them equal only if they were, given that theirs
    were the same. -/
theorem Element.withId_inj {e e' : Element} (h : e.id = e'.id) (id : ElementId) :
    ({ e with id } : Element) = { e' with id } ↔ e = e' := by
  rcases e
  rcases e'
  simp only at h
  simp only [Element.mk.injEq, h, true_and]

/-- The same for a record that gets the rest of a screen, but not its elements, from one of two
    others. -/
theorem ScreenRecord.withInfo_inj {info info' : ScreenInfo} (h : info.id = info'.id) (id : ScreenId)
    (r : ScreenRecord) :
    ({ ({ r with toScreenInfo := info } : ScreenRecord) with id } : ScreenRecord)
      = { ({ r with toScreenInfo := info' } : ScreenRecord) with id } ↔ info = info' := by
  rcases info
  rcases info'
  simp only at h
  simp only [ScreenRecord.mk.injEq, ScreenInfo.mk.injEq, h, true_and, and_true]

/-- Two changes of an item come to the same when they agree on the item that is there. -/
theorem modify_eq_modify_iff {α : Type} {items : List α} {k : Nat} {change change' : α → α} :
    items.modify k change = items.modify k change'
      ↔ ∀ a, items[k]? = some a → change a = change' a := by
  constructor
  · intro h a ha
    have hitem := congrArg (·[k]?) h
    simpa only [List.getElem?_modify_eq, ha, Option.map_eq_map, Option.map_some,
      Option.some.injEq] using hitem
  · intro h
    refine List.ext_getElem? fun j => ?_
    rw [List.getElem?_modify, List.getElem?_modify]
    rcases hj : items[j]? with _ | a
    · rfl
    · by_cases hkj : k = j
      · rw [Option.map_eq_map, Option.map_some, Option.map_eq_map, Option.map_some, if_pos hkj,
          if_pos hkj, h a (hkj ▸ hj)]
      · rw [Option.map_eq_map, Option.map_some, Option.map_eq_map, Option.map_some, if_neg hkj,
          if_neg hkj]

namespace Editor

/-- A patch does the same to an element without its lists and objects. -/
def SkipsInElement (editor : Editor) (id : ElementId) (changes : Patch) : Prop :=
  (editor.handle (.patchElement id changes.plain)).2 = (editor.handle (.patchElement id changes)).2

/-- A patch does the same to a screen without its lists and objects. -/
def SkipsInScreen (editor : Editor) (id : ScreenId) (changes : Patch) : Prop :=
  (editor.handle (.patchScreen id changes.plain)).2 = (editor.handle (.patchScreen id changes)).2

theorem replaceElement_inj {editor : Editor} {id : ElementId} {e e' : Element} :
    editor.replaceElement id e = editor.replaceElement id e' ↔ e = e' := by
  constructor
  · intro h
    have hentry := getElem?_replaceElement editor id e
    rw [h, getElem?_replaceElement] at hentry
    exact (Option.some.inj hentry).symm
  · rintro rfl
    rfl

theorem skipsInElement_iff (editor : Editor) (id : ElementId) (changes : Patch) :
    editor.SkipsInElement id changes ↔ ∀ e, editor.workspace.elements[id]? = some e →
      e.patch changes.plain = e.patch changes := by
  rw [SkipsInElement]
  rcases hstored : editor.workspace.elements[id]? with _ | e
  · rw [handle_patchElement_unknown hstored, handle_patchElement_unknown hstored]
    exact ⟨fun _ e he => absurd he.symm (Option.some_ne_none e), fun _ => rfl⟩
  · have hid : (e.patch changes.plain).id = (e.patch changes).id :=
      (Element.patched _ e).id.trans (Element.patched _ e).id.symm
    rw [handle_patchElement_stored hstored, handle_patchElement_stored hstored,
      replaceElement_inj, Element.withId_inj hid]
    exact ⟨fun h e' he' => Option.some.inj he' ▸ h, fun h => h e rfl⟩

theorem skipsInScreen_iff (editor : Editor) (id : ScreenId) (changes : Patch) :
    editor.SkipsInScreen id changes ↔ ∀ r, editor.workspace.screen? id = some r →
      r.toScreenInfo.patch changes.plain = r.toScreenInfo.patch changes := by
  have hid (s : ScreenInfo) (patch : Patch) : (s.patch patch).id = s.id := by
    rw [ScreenInfo.patch_eq]
  have hinfo (r : ScreenRecord) := ScreenRecord.withInfo_inj
    ((hid r.toScreenInfo changes.plain).trans (hid r.toScreenInfo changes).symm) id r
  rw [SkipsInScreen, handle, handle, Workspace.editScreen, Workspace.editScreen, Workspace.screen?]
  rcases editor.workspace.placement.position? id with _ | k
  · exact ⟨fun _ r hr => absurd hr.symm (Option.some_ne_none r), fun _ => rfl⟩
  · have hscreens (change change' : ScreenRecord → ScreenRecord) :
        (editor.report (true, editor.workspace.modifyScreen k change)).2
            = (editor.report (true, editor.workspace.modifyScreen k change')).2
          ↔ editor.workspace.screens.modify k change = editor.workspace.screens.modify k change' :=
      ⟨fun h => congrArg (·.workspace.screens) h,
        fun h => by rw [Workspace.modifyScreen, Workspace.modifyScreen, h]⟩
    refine (hscreens _ _).trans (modify_eq_modify_iff.trans ?_)
    simp only [hinfo, Option.bind_some]

/-- A patch does the same without its lists and objects, unless one of them has the last word
    on a field that it clears and that the rest of the patch does not leave empty. -/
theorem skipsCompound_iff (editor : Editor) (id : String) (changes : Patch) :
    (editor.SkipsInElement id changes ↔ ∀ e, editor.workspace.elements[id]? = some e →
        (changes.EndsCompound "asset" → (e.patch changes.plain).asset = none)
          ∧ (changes.EndsCompound "targetScreenId" → (e.patch changes.plain).target = none))
      ∧ (editor.SkipsInScreen id changes ↔ ∀ r, editor.workspace.screen? id = some r →
        changes.EndsCompound "backgroundColor" →
          (r.toScreenInfo.patch changes.plain).backgroundColor = none) := by
  rw [skipsInElement_iff, skipsInScreen_iff]
  simp only [Element.patch_plain_iff, ScreenInfo.patch_plain_iff, and_self]

/-- A list for the asset of an element clears it. -/
theorem not_skipsInElement_list_of_names :
    let e : Element := { id := "e", kind := .pushImage, name := "Logo", asset := some "logo" }
    let p : Project := { screens := [{ id := "s", elements := [e] }], assets := [{ name := "logo" }] }
    let changes := Patch.ofMembers [("asset", .list [.text "logo"])]
    ¬(ofProject {} p).SkipsInElement "e" changes := by
  intro e p changes h
  have hassets := congrArg (fun editor => editor.workspace.elements["e"]?.map (·.asset)) h
  exact absurd hassets (by decide +kernel)

end Editor

end PanelSketch
