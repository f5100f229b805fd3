import PanelSketch.Proofs.Workspace.Places

/-!
# Operations on Assets Are Scans

Assets are a list in a workspace as in a project. Removing one takes away every
reference to its name, in the records and in the store, and no id changes by
that. So the lists of ids stay, and so does the placement.

## Theorems

* `Workspace.addAsset_ofProject`, `Workspace.removeAsset_ofProject`: One operation
  each.
-/

namespace PanelSketch

namespace Workspace

variable {p : Project}

theorem addAsset_ofProject (p : Project) (asset : Asset) :
    (ofProject p).addAsset asset = ((p.addAsset asset).1, ofProject (p.addAsset asset).2) := rfl

theorem record_forgetAsset (name : String) (s : Screen) :
    forgetBackground name s.record = (Project.forgetAsset name s).record := by
  have hrecord : (Project.forgetAsset name s).record
      = { toScreenInfo := (Project.forgetAsset name s).info, elementIds := s.elementIds } := by
    rw [Screen.record, Project.elementIds_forgetAsset]
  rw [hrecord]
  unfold forgetBackground Project.forgetAsset
  by_cases hname : s.backgroundAsset = some name
  · rw [if_pos (show s.record.backgroundAsset = some name from hname), if_pos hname]
    rfl
  · rw [if_neg (show ¬s.record.backgroundAsset = some name from hname), if_neg hname]
    rfl

theorem located_forgetAsset (p : Project) (name : String) :
    ({ p with screens := p.screens.map (Project.forgetAsset name) } : Project).located
      = p.located.map fun l => (l.1, forgetImage name l.2) := by
  rw [Project.located, Project.located, List.flatMap_map, List.map_flatMap]
  refine List.flatMap_congr fun s _ => ?_
  have helements : (Project.forgetAsset name s).elements = s.elements.map (forgetImage name) := by
    unfold Project.forgetAsset
    split
    · rfl
    · rfl
  rw [Project.forgetAsset_id, helements, List.map_map, List.map_map]
  rfl

theorem removeAsset_ofProject (p : Project) (name : String) :
    (ofProject p).removeAsset name = scanned p (p.removeAsset name) := by
  simp only [removeAsset, Project.removeAsset, Option.bind_eq_bind, guard_bind, Option.pure_def]
  rcases hfind : p.assets.findIdx? (·.name == name) with _ | k
  · have hname : name ∉ p.assetNames := by
      intro hmem
      rcases List.mem_map.mp hmem with ⟨a, ha, rfl⟩
      -- An asset with the name would have been found.
      have hne := List.findIdx?_eq_none_iff.mp hfind a ha
      rw [beq_self_eq_true] at hne
      exact absurd hne (by decide)
    rw [show (ofProject p).assets = p.assets from rfl, hfind, if_neg hname]
    rfl
  · have hname : name ∈ p.assetNames := by
      rcases List.findIdx?_eq_some_iff_getElem.mp hfind with ⟨hlt, heq, _⟩
      exact List.mem_map.mpr ⟨p.assets[k], List.getElem_mem hlt, beq_iff_eq.mp heq⟩
    -- The asset at the position found is the first one with the name.
    have herase : p.assets.eraseP (·.name == name) = p.assets.eraseIdx k := by
      rw [List.eraseP_eq_eraseIdx, hfind]
    rw [show (ofProject p).assets = p.assets from rfl, hfind, if_pos hname]
    simp only [← herase]
    let q : Project := { p with screens := p.screens.map (Project.forgetAsset name) }
    have hids : q.screenIds = p.screenIds := Project.map_id_map (Project.forgetAsset_id name)
    have hscreens : (ofProject p).screens.map (forgetBackground name)
        = q.screens.map Screen.record := by
      simp only [ofProject, q, List.map_map]
      exact List.map_congr_left fun s _ => record_forgetAsset name s
    have hid : ∀ e, (forgetImage name e).id = e.id := by
      intro e
      unfold forgetImage
      split
      · rfl
      · rfl
    have helements : table (q.located.map fun l => (l.2.id, l.2))
        = (ofProject p).elements.map fun _ e => forgetImage name e := by
      rw [located_forgetAsset, List.map_map, ofProject, map_table, List.map_map]
      exact congrArg table (List.map_congr_left fun l _ => congrArg (·, _) (hid l.2))
    have howners : table (q.located.map fun l => (l.2.id, l.1))
        = (ofProject p).placement.owners := by
      rw [located_forgetAsset, List.map_map]
      exact congrArg table (List.map_congr_left fun l _ => congrArg (·, _) (hid l.2))
    exact congrArg (Prod.mk true) (eq_ofProject hscreens helements.symm rfl rfl rfl rfl (positions_eq hids)
      howners.symm)

end Workspace

end PanelSketch
