import PanelSketch.Proofs.Project.Relabelled
import PanelSketch.Proofs.Sketch.Renamed
import PanelSketch.Proofs.Workspace.Loading
import PanelSketch.Proofs.Workspace.Reissue

/-!
# Loading Loses Nothing

What a loaded project owes to the file it was loaded from. Everything in the file is
still there and stands where it stood: screens, the elements on them, and assets, with
all that belongs to them. Loading gives names only. It changes ids, the names of
assets, and the references that follow these names, so two projects are compared with
those names taken off.

The ids are compared place by place. An id that is not empty stays with the screen or
the element that carries it first, also when another one further in front is in need
of an id; whoever comes later with the same id gets a new one. How many new ids there
are is what the counters have gone on by.

## Main definitions

* `Element.bare`, `Screen.bare`, `Asset.bare`: What loading leaves alone.
* `Project.LoadedAs`: What a loaded project owes to its file.

## Theorems

* `Screen.Relabelled.bare_eq`, `Renaming.map_bare_ofAssets`: Names are all that changes.
* `Project.keepsIds_screenIds`, `Project.keepsIds_elementIds`: Which ids are kept.
* `Project.toNat_elementSeq_repaired`, `Project.toNat_screenSeq_repaired`: What the
  counters have come to.
* `Project.loadedAs_load`: All of it together.
-/

namespace PanelSketch

/-- An element without its id, and without the name its reference uses. -/
def Element.bare (e : Element) : Element :=
  { e with id := "", asset := e.asset.map fun _ => "" }

/-- A screen without its id, without the name its reference uses, and with its elements
    alike. -/
def Screen.bare (s : Screen) : Screen :=
  { s with
    id := ""
    backgroundAsset := s.backgroundAsset.map fun _ => ""
    elements := s.elements.map Element.bare }

/-- An asset without its name. -/
def Asset.bare (a : Asset) : Asset :=
  { a with name := "" }

/-- What a loaded project owes to the file it was loaded from. -/
structure Project.LoadedAs (p q : Project) : Prop where
  /-- A file without a screen is given one, and otherwise the screens are its own. -/
  screens : q.screens.map Screen.bare
    = (if p.screens = [] then [Screen.new "" "Home"] else p.screens).map Screen.bare
  assets : q.assets.map Asset.bare = p.assets.map Asset.bare
  screenIds : KeepsIds p.screenIds q.screenIds
  elementIds : KeepsIds p.elementIds q.elementIds
  elementSeq : q.elementSeq.toNat = min (UInt32.size - 1)
    (Counter.floor elementStem p.elementSeq p.elementIds + countGivenUp p.elementIds)
  /-- The screen that a file without one is given takes an id as well. -/
  screenSeq : q.screenSeq.toNat = min (UInt32.size - 1)
    (Counter.floor screenStem p.screenSeq p.screenIds + countGivenUp p.screenIds
      + if p.screens = [] then 1 else 0)

/-! ### Names are all that changes -/

theorem Element.Relabelled.bare_eq {r : Renaming} {e e' : Element} (h : e.Relabelled r e') :
    e'.bare = e.bare := by
  rcases h with ⟨id, rfl⟩
  rw [Element.bare, Element.bare, Element.relabel, Renaming.follow, Option.map_map]
  rfl

theorem Screen.Relabelled.bare_eq {r : Renaming} {s s' : Screen} (h : s.Relabelled r s') :
    s'.bare = s.bare := by
  have helements := map_eq_of_forall₂ h.elements fun _ _ _ he => he.bare_eq
  rcases h with ⟨id, ids, _, rfl⟩
  rw [Screen.bare, Screen.bare, helements, Screen.relabel, Renaming.follow, Option.map_map]
  rfl

theorem Renaming.map_bare_ofAssets (assets : List Asset) :
    (ofAssets assets).assets.map Asset.bare = assets.map Asset.bare := by
  rw [assets_ofAssets, List.map_map]
  -- The symbol in an entry becomes the name, which is taken off again.
  have hentries : (Asset.bare ∘ fun entry : Asset × String => entry.1.named entry.2)
      = Asset.bare ∘ Prod.fst := rfl
  rw [hentries, ← List.map_map, AssetSymbols.map_fst_entries]

namespace Project

theorem map_bare_screens (p : Project) :
    p.repaired.screens.map Screen.bare
      = (if p.screens = [] then [Screen.new "" "Home"] else p.screens).map Screen.bare := by
  by_cases hscreens : p.screens = []
  · rw [repaired_of_nil hscreens, if_pos hscreens]
    rfl
  · rw [repaired_eq_refocus hscreens, if_neg hscreens]
    exact map_eq_of_forall₂ (forall₂_relabelled p) fun _ _ _ hs => hs.bare_eq

/-! ### Which ids are kept -/

theorem keepsIds_enteredScreens (p : Project) : KeepsIds p.screenIds p.enteredScreens.1 := by
  rw [enteredScreens, numbering_eq]
  exact (Register.sound_observeAll screenStem p.screenIds p.screenSeq).keepsIds

theorem keepsIds_enteredElements (p : Project) : KeepsIds p.elementIds p.enteredElements.1 := by
  rw [enteredElements, numbering_eq]
  exact (Register.sound_observeAll elementStem p.elementIds p.elementSeq).keepsIds

theorem elementIds_repaired (p : Project) : p.repaired.elementIds = p.enteredElements.1 := by
  rw [← elementIds_relabelled]
  by_cases hscreens : p.screens = []
  · -- The screen that is added has no elements either.
    have hnone : p.relabelled.screens = [] := by
      have hpaired := forall₂_relabelled p
      rwa [hscreens, List.forall₂_nil_left_iff] at hpaired
    rw [repaired_of_nil hscreens, elementIds_eq_flatMap p.relabelled, hnone]
    rfl
  · rw [repaired_eq_refocus hscreens]
    rfl

theorem keepsIds_elementIds (p : Project) : KeepsIds p.elementIds p.repaired.elementIds := by
  rw [elementIds_repaired]
  exact keepsIds_enteredElements p

theorem keepsIds_screenIds (p : Project) : KeepsIds p.screenIds p.repaired.screenIds := by
  by_cases hscreens : p.screens = []
  · -- There is no id to be kept.
    have hnone : p.screenIds = [] := by rw [screenIds, hscreens, List.map_nil]
    rw [hnone]
    exact ⟨fun i id hi => absurd hi (Option.some_ne_none id).symm,
      fun i id hi => absurd hi (Option.some_ne_none id).symm, (wellFormed_repaired p).screens.nodup⟩
  · have hids : p.repaired.screenIds = p.enteredScreens.1 := by
      rw [← screenIds_relabelled, repaired_eq_refocus hscreens]
      rfl
    rw [hids]
    exact keepsIds_enteredScreens p

/-! ### What the counters have come to -/

theorem toNat_next_enteredScreens (p : Project) :
    p.enteredScreens.2.counter.next.toNat = min (UInt32.size - 1)
      (Counter.floor screenStem p.screenSeq p.screenIds + countGivenUp p.screenIds) := by
  rw [enteredScreens, numbering_eq]
  exact Register.toNat_next_enterAll_observeAll screenStem p.screenSeq p.screenIds

theorem toNat_elementSeq_repaired (p : Project) :
    p.repaired.elementSeq.toNat = min (UInt32.size - 1)
      (Counter.floor elementStem p.elementSeq p.elementIds + countGivenUp p.elementIds) := by
  have hseq : p.repaired.elementSeq = p.enteredElements.2.counter.next := rfl
  rw [hseq, enteredElements, numbering_eq]
  exact Register.toNat_next_enterAll_observeAll elementStem p.elementSeq p.elementIds

theorem toNat_screenSeq_repaired (p : Project) :
    p.repaired.screenSeq.toNat = min (UInt32.size - 1)
      (Counter.floor screenStem p.screenSeq p.screenIds + countGivenUp p.screenIds
        + if p.screens = [] then 1 else 0) := by
  have hentered := toNat_next_enteredScreens p
  by_cases hscreens : p.screens = []
  · have hseq : p.repaired.screenSeq = Counter.successor p.enteredScreens.2.counter.next := by
      rw [repaired_of_nil hscreens]
      rfl
    rw [hseq, Counter.toNat_successor, hentered, if_pos hscreens]
    omega
  · rw [if_neg hscreens, Nat.add_zero, ← hentered, repaired_eq_refocus hscreens]
    rfl

/-- A loaded project has everything its file had, in the same order, and gives up no id
    that could be kept. -/
theorem loadedAs_load (p : Project) : p.LoadedAs (Workspace.load p).project := by
  rw [Workspace.project_load]
  exact
    { screens := map_bare_screens p
      assets := by rw [assets_repaired, Renaming.map_bare_ofAssets]
      screenIds := keepsIds_screenIds p
      elementIds := keepsIds_elementIds p
      elementSeq := toNat_elementSeq_repaired p
      screenSeq := toNat_screenSeq_repaired p }

/-- The new id for the empty one steers clear of an id that is still to come, and the
    repeated one gets the next. -/
example :
    let p : Project :=
      { screens := [{ id := "screen_1", elements := [{ id := "" }, { id := "el_7" }] },
          { id := "screen_2", elements := [{ id := "el_7" }, { id := "el_8" }] }] }
    (Workspace.load p).project.elementIds = ["el_9", "el_7", "el_10", "el_8"]
      ∧ (Workspace.load p).project.elementSeq = 11 := by
  decide

end Project

end PanelSketch
