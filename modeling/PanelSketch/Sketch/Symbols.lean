import Std.Data.ExtTreeMap
import PanelSketch.Project.Basic
import PanelSketch.Text.NamePool

/-!
# Asset Symbols

Every asset of a project gets a symbol, the name it goes by in the generated
files. Assets of one name still get different symbols, and a reference by name
means the first asset that carries the name.

The files are written in different ways. What goes through the assets in order
takes the symbol at the same position. What follows a reference looks the name up
twice, in the project for the asset and in a map of its own for the position of
the symbol.

## Main definitions

* `AssetSymbols`: The assets of a project and their symbols.
* `AssetSymbols.ofAssets`: The symbols of a list of assets.
* `AssetSymbols.at?`, `AssetSymbols.get?`: A symbol by position and by name.
* `AssetSymbols.resolve?`: The asset that a name refers to, and its symbol.
* `AssetSymbols.inStorage`: The assets of one storage place in order.
-/

namespace PanelSketch

/-- The assets of a project and what is known about their symbols. -/
structure AssetSymbols where
  assets : List Asset
  /-- One symbol for every asset, in order. -/
  symbols : List String
  /-- The position of the first asset with a name. -/
  positions : Std.ExtTreeMap String Nat
  deriving DecidableEq

namespace AssetSymbols

/-- Give every asset a symbol of its own, and remember the first of every name. -/
def ofAssets (assets : List Asset) : AssetSymbols where
  assets
  symbols := (⟨"asset", []⟩ : Text.NamePool).claimAll (assets.map (·.name))
  positions := assets.zipIdx.foldl (fun positions (asset, position) =>
    positions.insertIfNew asset.name position) ∅

/-- The symbol of the asset at a position. -/
def at? (symbols : AssetSymbols) (position : Nat) : Option String :=
  symbols.symbols[position]?

/-- The symbol of the first asset with a name. -/
def get? (symbols : AssetSymbols) (name : String) : Option String :=
  symbols.positions[name]?.bind symbols.at?

/-- The first asset with a name, and its symbol. -/
def resolve? (symbols : AssetSymbols) (name : String) : Option (Asset × String) := do
  let asset ← symbols.assets.find? (·.name == name)
  let symbol ← symbols.get? name
  return (asset, symbol)

/-- The assets in one storage place, with their symbols. -/
def inStorage (symbols : AssetSymbols) (storage : Storage) : List (Asset × String) :=
  symbols.assets.zipIdx.filterMap fun (asset, position) =>
    if asset.storage = storage then (symbols.at? position).map (asset, ·) else none

end AssetSymbols

end PanelSketch
