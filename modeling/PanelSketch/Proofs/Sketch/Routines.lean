import PanelSketch.Proofs.Project.Pairing
import PanelSketch.Proofs.Text.NamePool
import PanelSketch.Sketch.Basic

/-!
# The Routines of a Sketch

There is a routine for every screen, in display order. The names they go by are
different identifiers, since they come from one pool, whatever the screens are called.

## Theorems

* `Sketch.isIdentifier_screenNames`, `Sketch.nodup_screenNames`: The names of the
  screens in a sketch.
* `Sketch.screens_routines`: The routines go by these names.
* `Sketch.forall₂_routines`: Every screen has its routine.
-/

namespace PanelSketch

namespace Sketch

theorem length_screenNames (ss : List Screen) : (screenNames ss).length = ss.length := by
  rw [screenNames, Text.NamePool.length_claimAll, List.length_map]

theorem isIdentifier_screenNames (ss : List Screen) :
    ∀ name ∈ screenNames ss, Text.IsIdentifier name :=
  @Text.NamePool.isIdentifier_claimAll ⟨"screen", []⟩ Text.isIdentifier_screen _

theorem nodup_screenNames (ss : List Screen) : (screenNames ss).Nodup :=
  Text.NamePool.nodup_claimAll _ _

/-- The routines go by the names of the screens. -/
theorem screens_routines (settings : Settings) (p : Project) :
    (ofProject settings p).routines.map (·.screen) = screenNames p.screens := by
  rw [ofProject, ← List.map_uncurry_zip_eq_zipWith, List.map_map]
  exact List.map_fst_zip (Nat.le_of_eq (length_screenNames p.screens))

/-- Every screen has its routine, under some identifier. -/
theorem forall₂_routines (settings : Settings) {p : Project} {R : Screen → Routine → Prop}
    (h : ∀ name, Text.IsIdentifier name → ∀ s ∈ p.screens,
      R s ⟨name, s.lines (AssetSymbols.ofAssets p.assets) settings.panel⟩) :
    List.Forall₂ R p.screens (ofProject settings p).routines := by
  refine forall₂_zipWith ?_ fun name hname s hs => ?_
  · exact length_screenNames p.screens
  · exact h name (isIdentifier_screenNames p.screens name hname) s hs

end Sketch

end PanelSketch
