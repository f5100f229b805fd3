import PanelSketch.Text.Identifier

/-!
# Name Pools

A generated file gives every screen a routine and every asset a symbol, each
named after a label that need not be unique. A pool hands out one name per
label, in the order in which the labels come, and never the same name twice.
Nothing but that order decides the names, so the same project always yields
the same file.

## Main definitions

* `NamePool`: The fallback of a pool and the names it has issued.
* `NamePool.claim`: The name of the next label, and the pool after it.
* `NamePool.claimAll`: The names of a list of labels.

## Theorems

* `NamePool.length_claimAll`: Every label gets one name.
-/

namespace PanelSketch.Text

/-- The names issued so far, latest first, and the name for labels that have
    nothing to make a name of. -/
structure NamePool where
  fallback : String
  issued : List String := []
  deriving DecidableEq, Repr

namespace NamePool

/-- Issue a name for a label. -/
def claim (pool : NamePool) (label : String) : String × NamePool :=
  let name := freshName (identifier label pool.fallback) pool.issued
  (name, { pool with issued := name :: pool.issued })

/-- Issue names for labels in order. -/
def claimAll (pool : NamePool) : List String → List String
  | [] => []
  | label :: labels =>
    let (name, pool) := pool.claim label
    name :: pool.claimAll labels

theorem length_claimAll (pool : NamePool) (labels : List String) :
    (pool.claimAll labels).length = labels.length := by
  induction labels generalizing pool with
  | nil => rfl
  | cons label labels ih => simp [claimAll, ih]

end NamePool

end PanelSketch.Text
