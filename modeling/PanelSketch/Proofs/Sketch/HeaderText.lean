import PanelSketch.Proofs.Sketch.GlobalNames

/-!
# Arrays in the Text of a Header

A header takes only two kinds of names from outside, the guard and the symbols, and
both are made of letters, digits and underscores. So no name breaks a line, and the
lines that a compiler finds in the text are those that it was put together from.

## Main definitions

* `Header.Declares`: A text declares the image of an asset, in its place and once.

## Theorems

* `Header.lines_render`: The lines of the text of a header.
* `Header.filter_isDeclaration_lines`: The declarations in the text of a header.
* `Header.declares_render`: An asset in program memory is declared once, in its
  place.
-/

namespace PanelSketch

namespace Header

theorem unbroken_arrayLines {image : ImageArray} (h : Text.IsLine image.symbol) :
    ∀ l ∈ arrayLines image, '\n' ∉ l.toList := by
  have hremark : Text.IsLine ("// Image: " ++ image.symbol ++ " (" ++ image.width.toNat.repr
      ++ "x" ++ image.height.toNat.repr ++ ")") :=
    ((((((by decide : Text.IsLine "// Image: ").append h).append (by decide)).append
      (Text.isLine_natRepr _)).append (by decide)).append (Text.isLine_natRepr _)).append (by decide)
  have hopen : Text.IsLine ("const uint16_t " ++ image.symbol ++ "[] PROGMEM = \x7b") :=
    ((by decide : Text.IsLine "const uint16_t ").append h).append (by decide)
  rw [arrayLines, List.forall_mem_cons, List.forall_mem_cons]
  exact ⟨hremark.unbroken, hopen.unbroken, by decide⟩

/-- The lines of the text of a header are those that it is put together from. -/
theorem lines_render (settings : Settings) (p : Project) :
    Text.lines (ofProject settings p).render = (ofProject settings p).textLines ++ [""] := by
  have hguard : Text.IsLine (ofProject settings p).guardName :=
    Text.isLine_of_wordChars (wordChars_guardOf settings.files.header)
  have harrays : ∀ image ∈ (ofProject settings p).arrays, ∀ l ∈ arrayLines image,
      '\n' ∉ l.toList := by
    intro image himage
    have hsymbol : image.symbol ∈ ((AssetSymbols.ofAssets p.assets).inStorage .flash).map (·.2) :=
      symbols_arrays settings p ▸ List.mem_map_of_mem himage
    rcases List.mem_map.mp hsymbol with ⟨entry, hentry, hname⟩
    refine unbroken_arrayLines (hname ▸ ?_)
    exact (AssetSymbols.isIdentifier_symbol (AssetSymbols.mem_inStorage.mp hentry).1).isLine
  have hunbroken : ∀ l ∈ (ofProject settings p).textLines, '\n' ∉ l.toList := by
    rw [textLines, List.forall_mem_append, List.forall_mem_append, List.forall_mem_cons,
      List.forall_mem_cons, List.forall_mem_flatMap]
    exact ⟨⟨⟨((by decide : Text.IsLine "#ifndef ").append hguard).unbroken,
      ((by decide : Text.IsLine "#define ").append hguard).unbroken, by decide⟩, harrays⟩, by decide⟩
  rw [render, lines_joinLines, Text.flatMap_lines_of_unbroken hunbroken]

/-- A line that opens a declaration is not the empty one at the end of a text. -/
theorem filter_isDeclaration_lines (settings : Settings) (p : Project) :
    (Text.lines (ofProject settings p).render).filter isDeclaration
      = ((ofProject settings p).arrays.map (·.symbol)).map declarationOf := by
  rw [lines_render, List.filter_append, filter_isDeclaration, List.map_map]
  exact List.append_nil _

/-- A text declares the image of an asset: its lines stand behind `place` declarations
    of other symbols, and there is no second declaration. -/
structure Declares (text : String) (place : Nat) (a : Asset) (symbol : String) : Prop where
  block : ∃ front back, Text.lines text = front
      ++ ["// Image: " ++ symbol ++ " (" ++ a.width.toNat.repr ++ "x" ++ a.height.toNat.repr ++ ")",
        "const uint16_t " ++ symbol ++ "[] PROGMEM = \x7b", "    // RGB565 data placeholder",
        "    0x0000", "\x7d;", ""] ++ back
    ∧ front.countP isDeclaration = place
  once : (Text.lines text).count ("const uint16_t " ++ symbol ++ "[] PROGMEM = \x7b") = 1

/-- An asset in program memory is declared once, in its place. -/
theorem declares_render (settings : Settings) {p : Project} {i : Nat} {a : Asset} {s : String}
    (h : (AssetSymbols.ofAssets p.assets).entries[i]? = some (a, s)) (hflash : a.storage = .flash) :
    Declares (ofProject settings p).render ((p.assets.take i).countP (·.storage == .flash)) a s := by
  have hplace := AssetSymbols.getElem?_inStorage h
  rw [hflash] at hplace
  constructor
  · have harray : (ofProject settings p).arrays[(p.assets.take i).countP (·.storage == .flash)]?
        = some ⟨s, a.width, a.height⟩ := by
      rw [ofProject, List.getElem?_map, hplace]
      rfl
    rcases exists_block harray with ⟨front, back, hblock, hcount⟩
    refine ⟨front, back ++ [""], ?_, hcount⟩
    rw [lines_render, hblock, List.append_assoc]
    rfl
  · have hmem : s ∈ (ofProject settings p).arrays.map (·.symbol) := by
      rw [symbols_arrays]
      exact List.mem_map.mpr ⟨(a, s), List.mem_of_getElem? hplace, rfl⟩
    have honce : (Text.lines (ofProject settings p).render).count (declarationOf s) = 1 := by
      rw [← List.count_filter (isDeclaration_declarationOf s), filter_isDeclaration_lines,
        List.count_map_of_injective _ declarationOf declarationOf_injective]
      exact List.count_eq_one_of_mem (nodup_symbols settings p) hmem
    exact honce

end Header

end PanelSketch
