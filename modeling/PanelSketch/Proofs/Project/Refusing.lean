import PanelSketch.Proofs.Project.Located

/-!
# What Editing Refuses

When an operation cannot be carried out, said for the nested project: something
it names is not there, the only screen would go, or an element would move to the
screen it is on. Whoever looks at the project can tell beforehand.

For every scan, finding nothing to do comes down to that condition.

## Main definitions

* `Project.Refuses`: The operations that cannot be carried out.

## Theorems

* `Project.removeScreen_eq_none`, …, `Project.removeAsset_eq_none`: One scan each.
-/

namespace PanelSketch

namespace Project

/-- What keeps an operation from being carried out. The operations that are left out
    always can be. -/
def Refuses (p : Project) : Operation → Prop
  | .removeScreen id => id ∉ p.screenIds ∨ p.screens.length ≤ 1
  | .selectScreen id | .reorderScreen id _ | .editScreen id _ | .addElement id _ _ =>
    id ∉ p.screenIds
  | .removeElement id | .editElement id _ => id ∉ p.elementIds
  | .moveElement id target => id ∉ p.elementIds ∨ target ∉ p.screenIds
    ∨ ∃ s ∈ p.screens, s.id = target ∧ id ∈ s.elementIds
  | .reorderElement screen id _ => ∀ s ∈ p.screens, s.id = screen → id ∉ s.elementIds
  | .removeAsset name => name ∉ p.assetNames
  | .addScreen _ | .addAsset _ | .rebuild | .applyTemplate _ _ => False

variable {p : Project}

theorem removeScreen_eq_none {id : ScreenId} :
    p.removeScreen id = none ↔ p.Refuses (.removeScreen id) := by
  change _ ↔ id ∉ p.screenIds ∨ p.screens.length ≤ 1
  rw [← screen?_eq_none]
  rcases hs : p.screen? id with _ | s
  · simp [removeScreen, hs]
  · simp [removeScreen, hs, guard_bind]

theorem selectScreen_eq_none {id : ScreenId} :
    p.selectScreen id = none ↔ p.Refuses (.selectScreen id) := by
  change _ ↔ id ∉ p.screenIds
  simp [selectScreen]

theorem reorderScreen_eq_none {id : ScreenId} {target : Nat} :
    p.reorderScreen id target = none ↔ p.Refuses (.reorderScreen id target) := by
  change _ ↔ id ∉ p.screenIds
  rw [← screen?_eq_none]
  rcases hs : p.screen? id with _ | s
  · simp [reorderScreen, hs]
  · simp [reorderScreen, hs]

theorem addElement_eq_none (screen : ScreenId) (kind : Primitive) (asset : Option String) :
    p.addElement screen kind asset = none ↔ p.Refuses (.addElement screen kind asset) := by
  change _ ↔ screen ∉ p.screenIds
  rw [← screen?_eq_none]
  rcases hs : p.screen? screen with _ | s
  · simp [addElement, hs]
  · simp [addElement, hs]

theorem removeElement_eq_none {id : ElementId} :
    p.removeElement id = none ↔ p.Refuses (.removeElement id) := by
  change _ ↔ id ∉ p.elementIds
  simp [removeElement, guard_bind]

theorem editElement_eq_none {id : ElementId} {edit : Element → Element} :
    p.editElement id edit = none ↔ p.Refuses (.editElement id edit) := by
  change _ ↔ id ∉ p.elementIds
  simp [editElement, guard_bind]

theorem removeAsset_eq_none {name : String} :
    p.removeAsset name = none ↔ p.Refuses (.removeAsset name) := by
  change _ ↔ name ∉ p.assetNames
  simp [removeAsset, guard_bind]

/-- The screen that has an element is the only one of its id that has it. -/
theorem owner_id_eq_iff (h : p.WellFormed) {id : ElementId} {owner : Screen}
    (howner : p.owner? id = some owner) (screen : ScreenId) :
    owner.id = screen ↔ ∃ s ∈ p.screens, s.id = screen ∧ id ∈ s.elementIds := by
  constructor
  · rintro rfl
    rcases (owner?_eq_some h).mp howner with ⟨hs, hid⟩
    exact ⟨owner, hs, rfl, hid⟩
  · rintro ⟨s, hs, rfl, hid⟩
    have heq := (owner?_eq_some h).mpr ⟨hs, hid⟩
    rw [howner, Option.some.injEq] at heq
    rw [heq]

theorem moveElement_eq_none (h : p.WellFormed) {id : ElementId} {target : ScreenId} :
    p.moveElement id target = none ↔ p.Refuses (.moveElement id target) := by
  change _ ↔ id ∉ p.elementIds ∨ target ∉ p.screenIds
    ∨ ∃ s ∈ p.screens, s.id = target ∧ id ∈ s.elementIds
  by_cases hid : id ∈ p.elementIds
  · rcases exists_owner h hid with ⟨s, e, howner, helement, _⟩
    rw [← owner_id_eq_iff h howner target]
    simp [moveElement, howner, helement, guard_bind, hid, imp_iff_not_or]
  · simp [moveElement, element?_eq_none.mpr hid, hid]

theorem reorderElement_eq_none (h : p.WellFormed) {screen : ScreenId} {id : ElementId}
    {target : Nat} : p.reorderElement screen id target = none
      ↔ p.Refuses (.reorderElement screen id target) := by
  change _ ↔ ∀ s ∈ p.screens, s.id = screen → id ∉ s.elementIds
  by_cases hid : id ∈ p.elementIds
  · rcases exists_owner h hid with ⟨s, e, howner, helement, _⟩
    have howned := owner_id_eq_iff h howner screen
    simp [reorderElement, howner, helement, guard_bind, howned]
  · -- An element that is nowhere is not on that screen either.
    have hnone : ∀ s ∈ p.screens, s.id = screen → id ∉ s.elementIds :=
      fun s hs _ hmem => hid (mem_elementIds.mpr ⟨s, hs, hmem⟩)
    simpa [reorderElement, element?_eq_none.mpr hid] using hnone

end Project

end PanelSketch
