import PanelSketch.Proofs.Text.Identifier
import PanelSketch.Text.NamePool

/-!
# Pools Issue Different Names

A pool never issues a name twice, because every name is free of the ones issued
before. The list of names it hands out has no repetition, whatever the labels.

Labels that are identifiers and different from each other are names already, and a
pool that has issued nothing hands them out as they are.

## Theorems

* `NamePool.not_mem_issued`: A name is free of the names issued before.
* `NamePool.nodup_claimAll`: Names issued in a row are different.
* `NamePool.claimAll_eq_self`: Labels that are names are kept.
* `NamePool.isIdentifier_claimAll`: Names are identifiers.
-/

namespace PanelSketch.Text

namespace NamePool

theorem not_mem_issued {pool : NamePool} {labels : List String} {name : String}
    (h : name ∈ pool.claimAll labels) : name ∉ pool.issued := by
  induction labels generalizing pool with
  | nil => exact absurd h List.not_mem_nil
  | cons label labels ih =>
      rcases List.mem_cons.mp h with rfl | h
      · exact freshName_not_mem _ _
      · exact fun hmem => ih h (List.mem_cons_of_mem _ hmem)

theorem nodup_claimAll (pool : NamePool) (labels : List String) :
    (pool.claimAll labels).Nodup := by
  induction labels generalizing pool with
  | nil => exact List.nodup_nil
  | cons label labels ih =>
      rw [claimAll, List.nodup_cons]
      -- The rest is claimed from a pool that has issued the first name.
      exact ⟨fun hmem => not_mem_issued hmem List.mem_cons_self, ih _⟩

/-- Labels that are names already and have not been issued are kept. -/
theorem claimAll_eq_self {pool : NamePool} {labels : List String}
    (hid : ∀ label ∈ labels, identifier label pool.fallback = label)
    (hn : (pool.issued ++ labels).Nodup) : pool.claimAll labels = labels := by
  induction labels generalizing pool with
  | nil => rfl
  | cons label labels ih =>
      rw [List.forall_mem_cons] at hid
      have hfree : label ∉ pool.issued := fun hmem =>
        (List.nodup_append.mp hn).2.2 label hmem label List.mem_cons_self rfl
      have hclaim : pool.claim label = (label, { pool with issued := label :: pool.issued }) := by
        rw [claim, hid.1, freshName_of_not_mem hfree]
      -- The label goes from the front of the labels to the front of the issued names.
      have hrest : (label :: pool.issued ++ labels).Nodup :=
        (List.perm_middle.nodup_iff).mp hn
      simp only [claimAll, hclaim]
      rw [@ih { pool with issued := label :: pool.issued } hid.2 hrest]

theorem isIdentifier_claimAll {pool : NamePool} (h : IsIdentifier pool.fallback)
    {labels : List String} : ∀ name ∈ pool.claimAll labels, IsIdentifier name := by
  induction labels generalizing pool with
  | nil => exact fun name hname => absurd hname List.not_mem_nil
  | cons label labels ih =>
      refine List.forall_mem_cons.mpr ⟨?_, @ih { pool with issued := _ } h⟩
      exact isIdentifier_freshName (isIdentifier_identifier label h) pool.issued

end NamePool

end PanelSketch.Text
