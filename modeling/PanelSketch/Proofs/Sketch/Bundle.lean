import Mathlib.Data.List.Nodup
import PanelSketch.Proofs.Sketch.Symbols
import PanelSketch.Sketch.Bundle

/-!
# What an Archive Holds

An archive that could be put together holds every entry it was given, under names
that do not repeat. So the file of an image is the only entry of its name, and
what it holds is the payload of its own asset. An image that is left out is
reported by the name of its asset.

## Main definitions

* `Bundle.given`: The entries that the archive of a project is given.

## Theorems

* `Bundle.assemble_eq_ok`: An archive that is put together holds what it was given.
* `Bundle.entries_ofProject`: So does the archive of a project.
* `Bundle.map_entries_ofProject`: Nothing else goes into it.
* `Bundle.exists_ofProject`: Different names can be put together.
* `Bundle.filter_entries`: The file of an image is the only one of its name.
* `Bundle.mem_skipped`: An image without a payload is reported.
-/

namespace PanelSketch

namespace Bundle

theorem assemble_eq_ok {taken : List String} {entries out : List Entry}
    (h : assemble taken entries = .ok out) :
    out = entries ∧ (∀ entry ∈ entries, entry.name ∉ taken) ∧ (entries.map (·.name)).Nodup := by
  induction entries generalizing taken out with
  | nil =>
      rw [assemble, Except.ok.injEq] at h
      exact ⟨h.symm, fun _ hmem => absurd hmem List.not_mem_nil, List.nodup_nil⟩
  | cons entry entries ih =>
      rw [assemble] at h
      split at h
      case isTrue => exact absurd h (by simp only [reduceCtorEq, not_false_eq_true])
      case isFalse hfree =>
        -- The name of the first entry is taken for the others.
        rcases hrest : assemble (entry.name :: taken) entries with e | rest
        · rw [hrest] at h
          exact absurd h (by simp only [Except.map, reduceCtorEq, not_false_eq_true])
        · rw [hrest] at h
          rcases ih hrest with ⟨rfl, hnew, hnodup⟩
          refine ⟨(Except.ok.inj h).symm, List.forall_mem_cons.mpr ⟨hfree, fun other hother hmem =>
            hnew other hother (List.mem_cons_of_mem _ hmem)⟩, ?_⟩
          rw [List.map_cons, List.nodup_cons]
          refine ⟨fun hmem => ?_, hnodup⟩
          rcases List.mem_map.mp hmem with ⟨other, hother, hname⟩
          exact hnew other hother (hname ▸ List.mem_cons_self)

/-- With different names, only an entry itself has its name. -/
theorem filter_name_eq {entries : List Entry} (h : (entries.map (·.name)).Nodup) {entry : Entry}
    (hmem : entry ∈ entries) : entries.filter (·.name = entry.name) = [entry] := by
  induction entries with
  | nil => exact absurd hmem List.not_mem_nil
  | cons first entries ih =>
      rw [List.map_cons, List.nodup_cons] at h
      rcases List.mem_cons.mp hmem with rfl | hmem
      · have hrest : entries.filter (·.name = entry.name) = [] := by
          refine List.filter_eq_nil_iff.mpr fun other hother hname => h.1 ?_
          rw [← of_decide_eq_true hname]
          exact List.mem_map_of_mem hother
        rw [List.filter_cons, if_pos (decide_eq_true rfl), hrest]
      · have hne : ¬first.name = entry.name := fun hname => h.1 (hname ▸ List.mem_map_of_mem hmem)
        rw [List.filter_cons, if_neg (by rwa [decide_eq_true_eq]), ih h.2 hmem]

theorem exists_of_bind_eq_ok {ε α β : Type} {x : Except ε α} {f : α → Except ε β} {b : β}
    (h : x >>= f = .ok b) : ∃ a, x = .ok a ∧ f a = .ok b := by
  cases x with
  | error e => exact absurd h (by simp only [bind, Except.bind, reduceCtorEq, not_false_eq_true])
  | ok a => exact ⟨a, rfl, h⟩

variable {settings : Settings} {p : Project} {bundle : Bundle}

/-- The entries that the archive of a project is given. -/
def given (settings : Settings) (p : Project) : List Entry :=
  textEntry settings.files.sketchFile (Sketch.ofProject settings p).render
    :: textEntry settings.files.header (Header.ofProject settings p).render
    :: ((AssetSymbols.ofAssets p.assets).inStorage .littleFs).filterMap
      fun image => imageFile? settings.files image.1 image.2

theorem entries_ofProject (h : ofProject settings p = .ok bundle) :
    bundle.entries = given settings p ∧ (bundle.entries.map (·.name)).Nodup
      ∧ bundle.skipped = ((AssetSymbols.ofAssets p.assets).inStorage .littleFs).filterMap
          fun image => if (imageFile? settings.files image.1 image.2).isNone then some image.1.name
            else none := by
  rcases exists_of_bind_eq_ok h with ⟨out, hout, hbundle⟩
  rcases assemble_eq_ok hout with ⟨rfl, _, hnodup⟩
  rw [← Except.ok.inj hbundle]
  exact ⟨rfl, hnodup, rfl⟩

/-- What there is to an archive besides the report is putting together what it is
    given. -/
theorem map_entries_ofProject (settings : Settings) (p : Project) :
    (ofProject settings p).map (·.entries) = assemble [] (given settings p) := by
  have hbind : ofProject settings p = assemble [] (given settings p) >>= fun entries =>
      .ok ⟨entries, ((AssetSymbols.ofAssets p.assets).inStorage .littleFs).filterMap
        fun image => if (imageFile? settings.files image.1 image.2).isNone then some image.1.name
          else none⟩ := rfl
  rw [hbind]
  cases assemble [] (given settings p) with
  | error name => rfl
  | ok entries => rfl

/-- An archive can be put together when no two entries share a name. -/
theorem exists_ofProject (h : ((given settings p).map (·.name)).Nodup) :
    ∃ bundle, ofProject settings p = .ok bundle := by
  -- Nothing is taken at first, so only a repetition could stand in the way.
  have hout : assemble [] (given settings p) = .ok (given settings p) :=
    assemble_of_nodup [] h
  unfold ofProject
  simp only
  exact ⟨_, congrArg (· >>= _) hout⟩

/-- The file of an image is the only one of its name. -/
theorem filter_entries (h : ofProject settings p = .ok bundle) {i : Nat} {a : Asset} {s : String}
    (hi : (AssetSymbols.ofAssets p.assets).entries[i]? = some (a, s)) (hfs : a.storage = .littleFs)
    {bytes : List UInt8} (hbytes : Payload.ofDataUrl? a.dataUrl = some bytes) :
    bundle.entries.filter (·.name = imageName settings.files s)
      = [⟨imageName settings.files s, bytes⟩] := by
  rcases entries_ofProject h with ⟨hentries, hnodup, _⟩
  have hmem : (a, s) ∈ (AssetSymbols.ofAssets p.assets).inStorage .littleFs :=
    List.mem_of_getElem? (hfs ▸ AssetSymbols.getElem?_inStorage hi)
  have hfile : imageFile? settings.files a s = some ⟨imageName settings.files s, bytes⟩ := by
    rw [imageFile?, hbytes, Option.map_some]
  have hentry : (⟨imageName settings.files s, bytes⟩ : Entry) ∈ bundle.entries := by
    rw [hentries, given]
    exact List.mem_cons_of_mem _ (List.mem_cons_of_mem _
      (List.mem_filterMap.mpr ⟨(a, s), hmem, hfile⟩))
  exact filter_name_eq hnodup hentry

/-- An image without a payload is reported. -/
theorem mem_skipped (h : ofProject settings p = .ok bundle) {i : Nat} {a : Asset} {s : String}
    (hi : (AssetSymbols.ofAssets p.assets).entries[i]? = some (a, s)) (hfs : a.storage = .littleFs)
    (hnone : Payload.ofDataUrl? a.dataUrl = none) : a.name ∈ bundle.skipped := by
  rcases entries_ofProject h with ⟨_, _, hskipped⟩
  have hmem : (a, s) ∈ (AssetSymbols.ofAssets p.assets).inStorage .littleFs :=
    List.mem_of_getElem? (hfs ▸ AssetSymbols.getElem?_inStorage hi)
  rw [hskipped]
  refine List.mem_filterMap.mpr ⟨(a, s), hmem, ?_⟩
  rw [imageFile?, hnone]
  rfl

end Bundle

end PanelSketch
