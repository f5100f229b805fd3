import PanelSketch.Proofs.Project.Preserved

/-!
# What Is Shown After Loading

A file says which screen is shown and which element is selected, and it may say so with
ids that do not exist. Then the first screen is shown, and nothing is selected.

Loading looks for these ids among the ids that it has given. An id of the file is among
them, as no id but the empty one is lost. But an id that the file does not have may be
among them as well: a new id keeps clear of the ids of screens and elements, and not of
those that say what is shown or selected. So an id that leads nowhere in the file may
lead to a screen or an element that is only there because another id was given up.

## Main definitions

* `Project.KeepsFocus`: What is to be shown and selected after loading.

## Theorems

* `KeepsIds.mem_iff_kept`: When an id that is found is one that has been kept.
* `KeepsIds.ite_mem_eq_iff`, `KeepsIds.filter_mem_eq_iff`: When it makes no difference
  among which ids one looks.
* `Project.active_load`, `Project.selected_load`: What is shown and selected after
  loading.
* `Project.keepsFocus_load_iff`: When that is what is to be shown and selected.
-/

namespace PanelSketch

/-! ### Ids of the file among the new ids -/

namespace KeepsIds

variable {old new : List String}

/-- Among the new ids are those of the file that are kept, and others that the file does
    not have. -/
theorem mem_iff_kept (h : KeepsIds old new) (hne : "" ∉ new) {id : String}
    (hold : id ∈ new → id ∈ old) : id ∈ new ↔ id ≠ "" ∧ id ∈ old :=
  ⟨fun hnew => ⟨fun hempty => hne (hempty ▸ hnew), hold hnew⟩,
    fun hkept => h.mem_of_mem hkept.2 hkept.1⟩

theorem ite_mem_eq_iff (h : KeepsIds old new) (hne : "" ∉ new) (id : String) :
    (if id ∈ new then some id else new.head?)
        = (if id ≠ "" ∧ id ∈ old then some id else new.head?)
      ↔ (id ∈ new → id ∈ old ∨ new.head? = some id) := by
  by_cases hold : id ∈ new → id ∈ old
  · rw [if_congr (h.mem_iff_kept hne hold) rfl rfl]
    exact iff_of_true rfl fun hnew => Or.inl (hold hnew)
  · -- The id is looked for among the new ids only, and found there.
    rcases Classical.not_imp.mp hold with ⟨hnew, hold⟩
    rw [if_pos hnew, if_neg fun hkept => hold hkept.2, eq_comm]
    exact ⟨fun hfirst _ => Or.inr hfirst, fun hfirst => (hfirst hnew).resolve_left hold⟩

theorem filter_mem_eq_iff (h : KeepsIds old new) (hne : "" ∉ new) (selected : Option String) :
    selected.filter (· ∈ new) = selected.filter (fun id => id ≠ "" ∧ id ∈ old)
      ↔ ∀ id ∈ selected, id ∈ new → id ∈ old := by
  rcases selected with _ | id
  · exact iff_of_true rfl fun _ hid => absurd hid (Option.not_mem_none _)
  · simp only [Option.filter_some, decide_eq_true_eq, Option.mem_some_iff, forall_eq']
    by_cases hold : id ∈ new → id ∈ old
    · rw [if_congr (h.mem_iff_kept hne hold) rfl rfl]
      exact iff_of_true rfl hold
    · rcases Classical.not_imp.mp hold with ⟨hnew, hgone⟩
      rw [if_pos hnew, if_neg fun hkept => hgone hkept.2]
      exact iff_of_false (Option.some_ne_none id) hold

end KeepsIds

namespace Project

/-- What is to be shown and selected after loading. An id of the file is kept; any other
    gives way to the first screen, or to no selection. -/
@[mk_iff]
structure KeepsFocus (p q : Project) : Prop where
  active : some q.active = if p.active ≠ "" ∧ p.active ∈ p.screenIds then some p.active
    else q.screenIds.head?
  selected : q.selected = p.selected.filter fun id => id ≠ "" ∧ id ∈ p.elementIds

/-- Loading looks for the active screen among the ids it has given. -/
theorem active_load (p : Project) :
    some (Workspace.load p).project.active
      = if p.active ∈ (Workspace.load p).project.screenIds then some p.active
        else (Workspace.load p).project.screenIds.head? := by
  rw [Workspace.project_load]
  have hactive : p.repaired.active = if p.active ∈ p.repaired.screenIds then p.active
      else p.repaired.screenIds.headD p.active := rfl
  rw [hactive]
  split
  · rfl
  · -- There is a first screen, so the fallback is its id.
    rcases hids : p.repaired.screenIds with _ | ⟨id, ids⟩
    · exact absurd (List.map_eq_nil_iff.mp hids) (wellFormed_repaired p).screens_ne_nil
    · rfl

/-- Loading looks for the selection among the ids it has given. -/
theorem selected_load (p : Project) :
    (Workspace.load p).project.selected
      = p.selected.filter (· ∈ (Workspace.load p).project.elementIds) := by
  rw [Workspace.project_load]
  rfl

/-- Loading shows and selects what it should, exactly when neither id comes to exist by
    the loading. A new id of the first screen does no harm, as that screen is shown
    anyway. -/
theorem keepsFocus_load_iff (p : Project) :
    p.KeepsFocus (Workspace.load p).project
      ↔ (p.active ∈ (Workspace.load p).project.screenIds →
          p.active ∈ p.screenIds
            ∨ (Workspace.load p).project.screenIds.head? = some p.active)
        ∧ ∀ id ∈ p.selected, id ∈ (Workspace.load p).project.elementIds →
          id ∈ p.elementIds := by
  have hwell := wellFormed_repaired p
  rw [keepsFocus_iff, active_load, selected_load, Workspace.project_load,
    (keepsIds_screenIds p).ite_mem_eq_iff hwell.screens.empty_not_mem,
    (keepsIds_elementIds p).filter_mem_eq_iff hwell.elements.empty_not_mem]

/-- The screen and the element that are given a new id become the ones that are shown and
    selected, since the file names just these ids. -/
theorem not_keepsFocus_new_ids :
    let shown : Project :=
      { screens := [{ id := "screen_1", name := "Main" }, { id := "screen_1", name := "Menu" }]
        active := "screen_2" }
    let selected : Project :=
      { screens := [{ id := "screen_1", elements := [{ id := "el_1" }, { id := "el_1" }] }]
        selected := some "el_2" }
    ¬shown.KeepsFocus (Workspace.load shown).project
      ∧ ¬selected.KeepsFocus (Workspace.load selected).project := by
  intro shown selected
  constructor
  · intro h
    exact absurd h.active (by decide)
  · intro h
    exact absurd h.selected (by decide)

end Project

end PanelSketch
