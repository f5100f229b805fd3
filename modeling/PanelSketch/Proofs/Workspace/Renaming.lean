import PanelSketch.Proofs.Text.Identifier
import PanelSketch.Workspace.Load

/-!
# Names of Loaded Assets

Loading names the assets of a file one after the other. Every name is an
identifier, because it is a free name among an identifier and its numbered forms,
and it is free of the names given before. Assets that are named like that already
keep their names, and then no reference is changed either.

## Theorems

* `Renaming.identifier_ofAssets`, `Renaming.names_ofAssets_nodup`: How assets are
  named.
* `Renaming.ofAssets_eq_self`: What happens to assets that are named well.
-/

namespace PanelSketch

namespace Renaming

/-- Whatever is kept by naming one more asset holds after naming a list of them. -/
theorem foldl_add_induction {motive : Renaming → Prop} {r : Renaming} (h : motive r)
    (step : ∀ r a, motive r → motive (r.add a)) (assets : List Asset) :
    motive (assets.foldl add r) := by
  induction assets generalizing r with
  | nil => exact h
  | cons a assets ih => exact ih (step r a h)

theorem identifier_ofAssets {assets : List Asset} :
    ∀ a ∈ (ofAssets assets).assets, Text.identifier a.name "asset" = a.name := by
  refine foldl_add_induction
    (motive := fun r => ∀ a ∈ r.assets, Text.identifier a.name "asset" = a.name)
    (fun a ha => absurd ha List.not_mem_nil) (fun r a h b hb => ?_) assets
  rcases List.mem_append.mp hb with hb | hb
  · exact h b hb
  · rw [List.mem_singleton.mp hb]
    exact Text.identifier_eq_self (Text.isIdentifier_storedName a.name _) "asset"

theorem names_ofAssets_nodup (assets : List Asset) :
    ((ofAssets assets).assets.map (·.name)).Nodup := by
  refine foldl_add_induction (r := {}) (motive := fun r => (r.assets.map (·.name)).Nodup)
    List.nodup_nil
    (fun r a h => ?_) assets
  simp only [add, List.map_append, List.map_singleton]
  rw [← List.concat_eq_append, List.nodup_concat]
  exact ⟨Text.freshName_not_mem _ _, h⟩

/-- Assets whose names are identifiers and do not repeat are kept as they are. -/
theorem foldl_add_eq_self {r : Renaming} {assets : List Asset}
    (hid : ∀ a ∈ assets, Text.identifier a.name "asset" = a.name)
    (hn : ((r.assets ++ assets).map (·.name)).Nodup) :
    (assets.foldl add r).assets = r.assets ++ assets
      ∧ (assets.foldl add r).renamed = r.renamed := by
  induction assets generalizing r with
  | nil => exact ⟨(List.append_nil _).symm, rfl⟩
  | cons a assets ih =>
      rw [List.forall_mem_cons] at hid
      have hfree : a.name ∉ r.assets.map (·.name) := by
        rw [List.map_append, List.nodup_append] at hn
        exact fun hmem => hn.2.2 a.name hmem a.name List.mem_cons_self rfl
      have hname : Text.freshName (Text.identifier a.name "asset") (r.assets.map (·.name))
          = a.name := by
        rw [hid.1, Text.freshName_of_not_mem hfree]
      -- Nothing is renamed, so no reference has to follow.
      have hadd : (r.add a).assets = r.assets ++ [a] ∧ (r.add a).renamed = r.renamed := by
        simp only [add, hname, ne_eq, not_true_eq_false, false_and, if_false, and_self]
      have hrest := ih (r := r.add a) hid.2 (by rwa [hadd.1, List.append_assoc])
      rw [hadd.1, hadd.2, List.append_assoc] at hrest
      exact hrest

theorem ofAssets_eq_self {assets : List Asset}
    (hid : ∀ a ∈ assets, Text.identifier a.name "asset" = a.name)
    (hn : (assets.map (·.name)).Nodup) :
    (ofAssets assets).assets = assets ∧ (ofAssets assets).renamed = [] :=
  foldl_add_eq_self (r := {}) hid hn

/-- Without renamed assets a reference stays where it is. -/
theorem follow_eq_self {r : Renaming} (h : r.renamed = []) (reference : Option String) :
    r.follow reference = reference := by
  cases reference with
  | none => rfl
  | some name => simp only [follow, h, List.lookup_nil, Option.getD_none, Option.map_some]

end Renaming

end PanelSketch
