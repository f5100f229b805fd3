import PanelSketch.Workspace.Operation

/-!
# What Operations Come To

Every operation that can be refused has one of two outcomes. It finds that something
stands in its way, and then it has not touched the workspace. Or it finds everything
that it has looked for, and then it leaves one particular workspace. Each operation is
gone through once here, step by step; what is proved of operations later only asks what
the workspace is that they leave.

## Main definitions

* `Workspace.Decides`: An outcome is one of the two.

## Theorems

* `Workspace.Decides.eq_self`: A refusal leaves the workspace as it was.
* `Workspace.Decides.of_done`: What has been carried out leaves what is described.
* `Workspace.Decides.keeps`: What holds either way.
* `Workspace.decides_removeScreen`, …, `Workspace.decides_removeAsset`: One operation
  each.
* `Workspace.addElement_cases`: The operation that answers with an element.
-/

namespace PanelSketch

namespace Workspace

/-- An outcome is a refusal that leaves the workspace as it was, or says that the
    operation has been carried out and leaves a workspace as described. -/
def Decides (w : Workspace) (outcome : Bool × Workspace) (leaves : Workspace → Prop) : Prop :=
  outcome = (false, w) ∨ ∃ w', leaves w' ∧ outcome = (true, w')

section

variable {w : Workspace} {outcome : Bool × Workspace} {leaves : Workspace → Prop}

theorem Decides.eq_self (h : w.Decides outcome leaves) (hrefused : outcome.1 = false) :
    outcome.2 = w := by
  rcases h with rfl | ⟨w', _, rfl⟩
  · rfl
  · exact Bool.noConfusion hrefused

/-- The workspace of an operation that has been carried out is one of those described. -/
theorem Decides.of_done {w' : Workspace} (h : w.Decides outcome leaves)
    (hdone : outcome = (true, w')) : leaves w' := by
  rcases h with rfl | ⟨w'', hw'', rfl⟩
  · exact Bool.noConfusion (congrArg Prod.fst hdone)
  · rwa [← (Prod.mk.inj hdone).2]

/-- What holds of the workspace that there was and of those that may be left. -/
theorem Decides.keeps (h : w.Decides outcome leaves) {P : Workspace → Prop} (hw : P w)
    (hleaves : ∀ w', leaves w' → P w') : P outcome.2 := by
  rcases h with rfl | ⟨w', hw', rfl⟩
  · exact hw
  · exact hleaves w' hw'

end

variable (w : Workspace)

/-! ### Screens -/

theorem decides_removeScreen (id : ScreenId) :
    w.Decides (w.removeScreen id) fun w' => ∃ position record,
      w.placement.position? id = some position ∧ w.screens[position]? = some record
        ∧ 1 < w.screens.length ∧ w' = reposition { w with
          screens := w.screens.eraseIdx position
          elements := record.elementIds.foldl (·.erase ·) w.elements
          selected := w.selected.filter (· ∉ record.elementIds)
          active := if w.active = id then
              ((w.screens.eraseIdx position).map (·.id)).headD w.active
            else w.active
          placement := record.elementIds.foldl (fun p e => p.disown e) w.placement } := by
  unfold removeScreen
  by_cases hlength : w.screens.length ≤ 1
  · rw [if_pos hlength]
    exact Or.inl rfl
  · rw [if_neg hlength]
    rcases w.placement.position? id with _ | position
    · exact Or.inl rfl
    · rcases hrecord : w.screens[position]? with _ | record
      · simp only [hrecord]
        exact Or.inl rfl
      · simp only [hrecord]
        exact Or.inr ⟨_, ⟨position, record, rfl, hrecord, Nat.lt_of_not_le hlength, rfl⟩, rfl⟩

theorem decides_selectScreen (id : ScreenId) :
    w.Decides (w.selectScreen id) fun w' =>
      w.placement.hasScreen id = true ∧ w' = { w with active := id, selected := none } := by
  unfold selectScreen
  cases w.placement.hasScreen id with
  | false => exact Or.inl rfl
  | true => exact Or.inr ⟨_, ⟨rfl, rfl⟩, rfl⟩

theorem decides_reorderScreen (id : ScreenId) (target : Nat) :
    w.Decides (w.reorderScreen id target) fun w' => ∃ position record,
      w.placement.position? id = some position ∧ w.screens[position]? = some record
        ∧ w' = reposition { w with
          screens := putAt target record (w.screens.eraseIdx position) } := by
  unfold reorderScreen
  rcases w.placement.position? id with _ | position
  · exact Or.inl rfl
  · rcases hrecord : w.screens[position]? with _ | record
    · simp only [hrecord]
      exact Or.inl rfl
    · simp only [hrecord]
      exact Or.inr ⟨_, ⟨position, record, rfl, hrecord, rfl⟩, rfl⟩

theorem decides_editScreen (id : ScreenId) (edit : ScreenRecord → ScreenRecord) :
    w.Decides (w.editScreen id edit) fun w' => ∃ position,
      w.placement.position? id = some position
        ∧ w' = w.modifyScreen position fun record => { edit record with id } := by
  unfold editScreen
  rcases w.placement.position? id with _ | position
  · exact Or.inl rfl
  · exact Or.inr ⟨_, ⟨position, rfl, rfl⟩, rfl⟩

/-! ### Elements -/

/-- The answer is the element here, so a refusal is the answer that there is none. -/
theorem addElement_cases (screen : ScreenId) (kind : Primitive) (asset : Option String) :
    w.addElement screen kind asset = (none, w) ∨ ∃ position record e,
      w.placement.position? screen = some position ∧ w.screens[position]? = some record
        ∧ e.id = (w.numbering.issueElement w.elements.keys).1
        ∧ w.addElement screen kind asset = (some e, { w with
          screens := w.screens.modify position fun s =>
            { s with elementIds := s.elementIds ++ [e.id] }
          elements := w.elements.insert e.id e
          selected := some e.id
          numbering := (w.numbering.issueElement w.elements.keys).2
          placement := w.placement.own e.id screen }) := by
  unfold addElement
  rcases w.placement.position? screen with _ | position
  · exact Or.inl rfl
  · rcases hrecord : w.screens[position]? with _ | record
    · simp only [hrecord]
      exact Or.inl rfl
    · simp only [hrecord]
      exact Or.inr ⟨position, record, _, rfl, hrecord, rfl, rfl⟩

theorem decides_removeElement (id : ElementId) :
    w.Decides (w.removeElement id) fun w' => ∃ owner position,
      w.placement.owner? id = some owner ∧ w.placement.position? owner = some position
        ∧ w' = { w.modifyScreen position fun s =>
            { s with elementIds := s.elementIds.filter (· ≠ id) } with
          elements := w.elements.erase id
          selected := w.selected.filter (· ≠ id)
          placement := w.placement.disown id } := by
  unfold removeElement
  rcases w.placement.owner? id with _ | owner
  · exact Or.inl rfl
  · rcases hposition : w.placement.position? owner with _ | position
    · simp only [hposition]
      exact Or.inl rfl
    · simp only [hposition]
      exact Or.inr ⟨_, ⟨owner, position, rfl, hposition, rfl⟩, rfl⟩

theorem decides_moveElement (id : ElementId) (target : ScreenId) :
    w.Decides (w.moveElement id target) fun w' => ∃ owner source position,
      w.placement.owner? id = some owner ∧ w.placement.position? owner = some source
        ∧ w.placement.position? target = some position ∧ source ≠ position
        ∧ w' = { (w.modifyScreen source fun s =>
              { s with elementIds := s.elementIds.filter (· ≠ id) }).modifyScreen position fun s =>
            { s with elementIds := s.elementIds ++ [id] } with
          placement := w.placement.own id target } := by
  unfold moveElement
  rcases w.placement.owner? id with _ | owner
  · exact Or.inl rfl
  · rcases hsource : w.placement.position? owner with _ | source
    · simp only [hsource]
      exact Or.inl rfl
    · simp only [hsource]
      rcases w.placement.position? target with _ | position
      · exact Or.inl rfl
      · by_cases hne : source = position
        · simp only [if_pos hne]
          exact Or.inl rfl
        · simp only [if_neg hne]
          exact Or.inr ⟨_, ⟨owner, source, position, rfl, hsource, rfl, hne, rfl⟩, rfl⟩

theorem decides_reorderElement (screen : ScreenId) (id : ElementId) (target : Nat) :
    w.Decides (w.reorderElement screen id target) fun w' => ∃ position,
      w.placement.owner? id = some screen ∧ w.placement.position? screen = some position
        ∧ w' = w.modifyScreen position fun s =>
          { s with elementIds := putAt target id (s.elementIds.filter (· ≠ id)) } := by
  unfold reorderElement
  by_cases howner : w.placement.owner? id = some screen
  · rw [if_neg (not_not_intro howner)]
    rcases w.placement.position? screen with _ | position
    · exact Or.inl rfl
    · exact Or.inr ⟨_, ⟨position, howner, rfl, rfl⟩, rfl⟩
  · rw [if_pos howner]
    exact Or.inl rfl

theorem decides_editElement (id : ElementId) (edit : Element → Element) :
    w.Decides (w.editElement id edit) fun w' => ∃ e, w.elements[id]? = some e
      ∧ w' = { w with elements := w.elements.insert id { edit e with id } } := by
  unfold editElement
  rcases w.elements[id]? with _ | e
  · exact Or.inl rfl
  · exact Or.inr ⟨_, ⟨e, rfl, rfl⟩, rfl⟩

/-! ### Assets -/

theorem decides_removeAsset (name : String) :
    w.Decides (w.removeAsset name) fun w' => ∃ position,
      w.assets.findIdx? (·.name == name) = some position ∧ w' = { w with
        assets := w.assets.eraseIdx position
        screens := w.screens.map (forgetBackground name)
        elements := w.elements.map fun _ e => forgetImage name e } := by
  unfold removeAsset
  rcases hfind : w.assets.findIdx? (·.name == name) with _ | position
  · simp only [hfind]
    exact Or.inl rfl
  · simp only [hfind]
    exact Or.inr ⟨_, ⟨position, rfl, rfl⟩, rfl⟩

end Workspace

end PanelSketch
