import Mathlib.Data.List.Count
import PanelSketch.Proofs.Sketch.Symbols
import PanelSketch.Sketch.Header

/-!
# Declarations in a Header

Of the lines of a header, those that open the declaration of an array are
exactly one for each image, in order: no other line of a header starts like one.
So a symbol is declared as often as it is the symbol of an image, which is once
at most.

## Main definitions

* `Header.declarationOf`: The line that opens the declaration of a symbol.
* `Header.isDeclaration`: Whether a line opens the declaration of an array.

## Theorems

* `Header.filter_isDeclaration`: The declarations in a header.
* `Header.exists_block`: The place of an array in a header.
* `Header.nodup_symbols`: The arrays of a project have different symbols.
-/

namespace PanelSketch

namespace Header

/-- What a line that opens the declaration of an array starts with. -/
def declarationStem : String := "const uint16_t "

/-- The line that opens the declaration of a symbol. -/
def declarationOf (symbol : String) : String :=
  declarationStem ++ symbol ++ "[] PROGMEM = \x7b"

/-- Whether a line opens the declaration of an array. -/
def isDeclaration (line : String) : Bool :=
  declarationStem.toList.isPrefixOf line.toList

theorem declarationOf_injective : Function.Injective declarationOf := by
  intro s t h
  have hl := congrArg String.toList h
  simp only [declarationOf, String.toList_append, List.append_assoc, List.append_cancel_left_eq,
    List.append_cancel_right_eq] at hl
  exact String.toList_injective hl

theorem isDeclaration_declarationOf (symbol : String) :
    isDeclaration (declarationOf symbol) = true := by
  rw [isDeclaration, declarationOf, String.toList_append, String.toList_append, List.append_assoc]
  exact List.isPrefixOf_iff_prefix.mpr (List.prefix_append _ _)

theorem filter_arrayLines (image : ImageArray) :
    (arrayLines image).filter isDeclaration = [declarationOf image.symbol] := by
  have hremark : isDeclaration ("// Image: " ++ image.symbol ++ " (" ++ image.width.toNat.repr
      ++ "x" ++ image.height.toNat.repr ++ ")") = false := by
    simp only [isDeclaration, String.toList_append, List.append_assoc]
    rfl
  have hopen : isDeclaration ("const uint16_t " ++ image.symbol ++ "[] PROGMEM = \x7b") = true :=
    isDeclaration_declarationOf image.symbol
  rw [arrayLines, List.filter_cons, hremark, List.filter_cons, hopen]
  rfl

/-- The declarations in a header, in order. -/
theorem filter_isDeclaration (header : Header) :
    header.textLines.filter isDeclaration = header.arrays.map (declarationOf ·.symbol) := by
  -- The guard is a name from the settings, but its lines start with the directive.
  have hguard : isDeclaration ("#ifndef " ++ header.guardName) = false := by
    rw [isDeclaration, String.toList_append]
    rfl
  have hdefine : isDeclaration ("#define " ++ header.guardName) = false := by
    rw [isDeclaration, String.toList_append]
    rfl
  have hopening : ["#ifndef " ++ header.guardName, "#define " ++ header.guardName,
      "#include <pgmspace.h>", ""].filter isDeclaration = [] := by
    rw [List.filter_cons, hguard, List.filter_cons, hdefine]
    rfl
  have hclosing : ["#endif"].filter isDeclaration = [] := rfl
  rw [textLines, List.filter_append, List.filter_append, hopening, hclosing, List.append_nil,
    List.nil_append, List.filter_flatMap]
  simp only [filter_arrayLines, List.map_eq_flatMap]

/-- The lines of an array stand behind as many declarations as there are arrays in front
    of it. -/
theorem exists_block {header : Header} {place : Nat} {image : ImageArray}
    (h : header.arrays[place]? = some image) :
    ∃ front back, header.textLines = front ++ arrayLines image ++ back
      ∧ front.countP isDeclaration = place := by
  rcases List.getElem?_eq_some_iff.mp h with ⟨hlt, himage⟩
  have harrays : header.arrays
      = header.arrays.take place ++ image :: header.arrays.drop (place + 1) := by
    rw [← himage, ← List.drop_eq_getElem_cons hlt, List.take_append_drop]
  -- What stands in front of the array is a header without it, up to the last line.
  let cut : Header := { header with arrays := header.arrays.take place }
  refine ⟨cut.textLines.dropLast, (header.arrays.drop (place + 1)).flatMap arrayLines ++ ["#endif"],
    ?_, ?_⟩
  · have hcut : cut.textLines.dropLast = ["#ifndef " ++ header.guardName,
        "#define " ++ header.guardName, "#include <pgmspace.h>", ""]
          ++ (header.arrays.take place).flatMap arrayLines :=
      List.dropLast_concat
    rw [textLines, hcut]
    conv_lhs => rw [harrays, List.flatMap_append, List.flatMap_cons]
    simp only [List.append_assoc]
  · have hlast : cut.textLines = cut.textLines.dropLast ++ ["#endif"] := by
      rw [textLines, List.dropLast_concat]
    have hcount := congrArg List.length (filter_isDeclaration cut)
    rw [hlast, List.filter_append, List.length_append, List.length_map, List.length_take,
      Nat.min_eq_left (Nat.le_of_lt hlt), ← List.countP_eq_length_filter] at hcount
    exact hcount

/-! ### The header of a project -/

theorem symbols_arrays (settings : Settings) (p : Project) :
    (ofProject settings p).arrays.map (·.symbol)
      = ((AssetSymbols.ofAssets p.assets).inStorage .flash).map (·.2) := by
  rw [ofProject, List.map_map]
  rfl

theorem nodup_symbols (settings : Settings) (p : Project) :
    ((ofProject settings p).arrays.map (·.symbol)).Nodup := by
  rw [symbols_arrays]
  exact AssetSymbols.nodup_inStorage p.assets .flash

end Header

end PanelSketch
