import Mathlib
import PanelSketch.Proofs.Sketch.Header
import PanelSketch.Proofs.Sketch.Layout

/-!
# The Global Names of an Export

A sketch and the header it includes are one program, so what they declare outside of
any routine shares one space of names: the guard of the header, its arrays, the panel
and the callback of the opening, the routines, and the two routines that the board
calls.

The lines tell. A declaration starts at the front of its line with one of five words,
and the name stands right behind it. Everything inside a routine is indented, and the
remaining lines start otherwise.

Most of these names cannot meet. A guard is written in capitals, all other names that
are not chosen have a small letter, and the names of routines start alike and come from
one pool. Symbols are kept apart from each other and from nothing else, so an array is
the only thing that can take a name that is in use.

## Main definitions

* `declared?`: The global name that a line declares.
* `declaredNames`: The global names of a header and a sketch.
* `ownNames`: Those that are no symbols.

## Theorems

* `declared?_append`: A declaration is read back.
* `Sketch.declared_textLines`: The global names of a sketch, part by part.
* `declaredNames_eq`: The global names of a header and a sketch, part by part.
* `nodup_ownNames`: Names that are no symbols differ.
* `nodup_declaredNames_iff`: No name is declared twice when no symbol is in use
  otherwise.
-/

namespace PanelSketch

open Text (isWordChar)

/-! ### Reading declarations -/

/-- What a line that declares a global name starts with. -/
def declarators : List String :=
  ["#define ", "const uint16_t ", "TFT_eSPI ", "bool ", "void "]

/-- The global name that a line declares. -/
def declared? (line : String) : Option String :=
  (declarators.find? fun stem => stem.toList.isPrefixOf line.toList).map fun stem =>
    String.ofList ((line.toList.drop stem.toList.length).takeWhile isWordChar)

/-- The global names of a header and a sketch that includes it, in order. -/
def declaredNames (header : Header) (sketch : Sketch) : List String :=
  (header.textLines ++ sketch.textLines).filterMap declared?

/-- No line starts like two declarations. -/
theorem find?_declarators {stem : String} (h : stem ∈ declarators) (rest : List Char) :
    (declarators.find? fun other => other.toList.isPrefixOf (stem.toList ++ rest)) = some stem := by
  simp only [declarators, List.mem_cons, List.not_mem_nil, or_false] at h
  rcases h with rfl | rfl | rfl | rfl | rfl
  · rfl
  · rfl
  · rfl
  · rfl
  · rfl

theorem takeWhile_eq {keep : Char → Bool} {name rest : List Char}
    (hname : ∀ c ∈ name, keep c = true) (hrest : rest.head?.any keep = false) :
    (name ++ rest).takeWhile keep = name := by
  rw [List.takeWhile_append_of_pos hname]
  rcases rest with _ | ⟨c, rest⟩
  · rw [List.takeWhile_nil, List.append_nil]
  · have hc : ¬keep c = true := Bool.eq_false_iff.mp hrest
    rw [List.takeWhile_cons_of_neg hc, List.append_nil]

/-- A declaration is read back. -/
theorem declared?_append {stem name rest : String} (hstem : stem ∈ declarators)
    (hname : ∀ c ∈ name.toList, isWordChar c = true)
    (hrest : rest.toList.head?.any isWordChar = false) :
    declared? (stem ++ name ++ rest) = some name := by
  have hlist : (stem ++ name ++ rest).toList = stem.toList ++ (name.toList ++ rest.toList) := by
    rw [String.toList_append, String.toList_append, List.append_assoc]
  rw [declared?, hlist, find?_declarators hstem, Option.map_some, List.drop_left,
    takeWhile_eq hname hrest, String.ofList_toList]

/-! ### The parts -/

theorem filterMap_arrayLines {image : ImageArray}
    (h : ∀ c ∈ image.symbol.toList, isWordChar c = true) :
    (Header.arrayLines image).filterMap declared? = [image.symbol] := by
  have hremark : declared? ("// Image: " ++ image.symbol ++ " (" ++ image.width.toNat.repr
      ++ "x" ++ image.height.toNat.repr ++ ")") = none := by
    simp only [declared?, String.toList_append, List.append_assoc]
    rfl
  have hopen : declared? ("const uint16_t " ++ image.symbol ++ "[] PROGMEM = \x7b")
      = some image.symbol := declared?_append (by decide) h (by decide)
  rw [Header.arrayLines, List.filterMap_cons_none hremark, List.filterMap_cons_some hopen]
  rfl

theorem filterMap_header {header : Header}
    (hguard : ∀ c ∈ header.guardName.toList, isWordChar c = true)
    (harrays : ∀ image ∈ header.arrays, ∀ c ∈ image.symbol.toList, isWordChar c = true) :
    header.textLines.filterMap declared? = header.guardName :: header.arrays.map (·.symbol) := by
  have hifndef : declared? ("#ifndef " ++ header.guardName) = none := by
    rw [declared?, String.toList_append]
    rfl
  have hdefine : declared? ("#define " ++ header.guardName) = some header.guardName := by
    have hread := @declared?_append "#define " header.guardName "" (by decide) hguard (by decide)
    rwa [String.append_empty] at hread
  have hdeclared : ∀ images : List ImageArray,
      (∀ image ∈ images, ∀ c ∈ image.symbol.toList, isWordChar c = true) →
      (images.flatMap Header.arrayLines).filterMap declared? = images.map (·.symbol) := by
    intro images h
    induction images with
    | nil => rfl
    | cons image images ih =>
        rw [List.forall_mem_cons] at h
        rw [List.flatMap_cons, List.filterMap_append, filterMap_arrayLines h.1, ih h.2,
          List.map_cons, List.singleton_append]
  rw [Header.textLines, List.filterMap_append, List.filterMap_append, hdeclared _ harrays,
    List.filterMap_cons_none hifndef, List.filterMap_cons_some hdefine]
  exact List.append_nil _

theorem declared?_render (l : Line) : declared? l.render = none := by
  cases l with
  | remark text =>
      rw [Line.render, declared?, String.toList_append, String.toList_append, List.append_assoc]
      rfl
  | calls cs =>
      rw [Line.render, declared?, String.toList_append]
      rfl

/-- A routine declares its name. -/
theorem filterMap_routine {r : Routine} (h : ∀ c ∈ r.screen.toList, isWordChar c = true) :
    r.textLines.filterMap declared? = [Routine.name r.screen] := by
  have hname : ∀ c ∈ (Routine.name r.screen).toList, isWordChar c = true := by
    rw [Routine.name, String.toList_append, List.forall_mem_append]
    exact ⟨List.all_eq_true.mp (by decide), h⟩
  have hopen : declared? ("void " ++ Routine.name r.screen ++ "() \x7b")
      = some (Routine.name r.screen) := declared?_append (by decide) hname (by decide)
  have hlines : (r.lines.map Line.render).filterMap declared? = [] := by
    rw [List.filterMap_eq_nil_iff, List.forall_mem_map]
    exact fun l _ => declared?_render l
  have hclosing : ["\x7d", ""].filterMap declared? = [] := by
    decide
  rw [Routine.textLines, List.filterMap_append, List.filterMap_cons_some hopen, hlines, hclosing]
  rfl

theorem filterMap_routines {routines : List Routine}
    (h : ∀ r ∈ routines, ∀ c ∈ r.screen.toList, isWordChar c = true) :
    (routines.flatMap Routine.textLines).filterMap declared?
      = routines.map fun r => Routine.name r.screen := by
  induction routines with
  | nil => rfl
  | cons r routines ih =>
      rw [List.forall_mem_cons] at h
      rw [List.flatMap_cons, List.filterMap_append, filterMap_routine h.1, ih h.2, List.map_cons,
        List.singleton_append]

theorem filterMap_openingLines (header : String) :
    (Sketch.openingLines header).filterMap declared? = ["tft", "tft_output"] := by
  have hinclude : declared? ("#include \"" ++ header ++ "\"") = none := by
    rw [declared?, String.toList_append, String.toList_append, List.append_assoc]
    rfl
  rw [Sketch.openingLines_eq, List.filterMap_append, List.filterMap_cons_none hinclude]
  decide

theorem filterMap_closingLines (rotation : UInt8) :
    (Sketch.closingLines rotation).filterMap declared? = ["setup", "loop"] := by
  have hrotation : declared? ("    tft.setRotation(" ++ rotation.toNat.repr ++ ");") = none := by
    rw [declared?, String.toList_append, String.toList_append, List.append_assoc]
    rfl
  rw [Sketch.closingLines_eq, List.filterMap_append, List.filterMap_cons_none hrotation]
  decide

/-! ### Capital letters -/

/-- A name in capitals has no small letter. -/
theorem not_mem_toUpper {s : String} {c : Char} (h : c.isLower = true) : c ∉ s.toUpper.toList := by
  intro hmem
  rw [String.toUpper, String.toList_map, List.mem_map] at hmem
  rcases hmem with ⟨d, _, rfl⟩
  exact Bool.false_ne_true ((Char.isLower_toUpper_eq_false d).symm.trans h)

theorem wordChars_toUpper {s : String} (h : ∀ c ∈ s.toList, isWordChar c = true) :
    ∀ c ∈ s.toUpper.toList, isWordChar c = true := by
  rw [String.toUpper, String.toList_map, List.forall_mem_map]
  intro c hc
  by_cases hlower : c.isLower = true
  · have halpha : c.toUpper.isAlpha = true := by
      rw [Char.isAlpha_toUpper_eq_isAlpha]
      exact (Bool.or_eq_true _ _).mpr (Or.inr hlower)
    exact (Bool.or_eq_true _ _).mpr (Or.inl ((Bool.or_eq_true _ _).mpr (Or.inl halpha)))
  · rw [Char.toUpper_eq_of_not_isLower hlower]
    exact h c hc

/-! ### All names -/

/-- The names that every sketch declares. -/
def fixedNames : List String :=
  ["tft", "tft_output", "setup", "loop"]

/-- The names of the routines of a sketch. -/
def Sketch.routineNames (sketch : Sketch) : List String :=
  sketch.routines.map fun r => Routine.name r.screen

/-- The global names of an export that are no symbols. -/
def ownNames (settings : Settings) (p : Project) : List String :=
  Header.guardOf settings.files.header :: fixedNames ++ (Sketch.ofProject settings p).routineNames

theorem Sketch.routineNames_ofProject (settings : Settings) (p : Project) :
    (ofProject settings p).routineNames = (screenNames p.screens).map Routine.name := by
  rw [← screens_routines settings p, List.map_map]
  rfl

theorem Header.wordChars_guardOf (fileName : String) :
    ∀ c ∈ (guardOf fileName).toList, isWordChar c = true :=
  wordChars_toUpper (Text.isIdentifier_identifier fileName (by decide)).wordChars

/-- The global names of a sketch: the panel and its callback, the routines, and the two
    that the board calls. -/
theorem Sketch.declared_textLines (settings : Settings) (p : Project) :
    (ofProject settings p).textLines.filterMap declared?
      = ["tft", "tft_output"] ++ (ofProject settings p).routineNames ++ ["setup", "loop"] := by
  have hroutines : ∀ r ∈ (ofProject settings p).routines,
      ∀ c ∈ r.screen.toList, isWordChar c = true := by
    intro r hr
    have hname : r.screen ∈ screenNames p.screens := by
      rw [← screens_routines settings p]
      exact List.mem_map_of_mem hr
    exact (isIdentifier_screenNames p.screens _ hname).wordChars
  rw [textLines, List.filterMap_append, List.filterMap_append, filterMap_openingLines,
    filterMap_routines hroutines, filterMap_closingLines]
  rfl

/-- The global names of an export: the guard, the symbols of the arrays, and the names of
    the sketch. -/
theorem declaredNames_eq (settings : Settings) (p : Project) :
    declaredNames (Header.ofProject settings p) (Sketch.ofProject settings p)
      = Header.guardOf settings.files.header
          :: (Header.ofProject settings p).arrays.map (·.symbol) ++ ["tft", "tft_output"]
        ++ (Sketch.ofProject settings p).routineNames ++ ["setup", "loop"] := by
  have harrays : ∀ image ∈ (Header.ofProject settings p).arrays,
      ∀ c ∈ image.symbol.toList, isWordChar c = true := by
    rw [Header.ofProject, List.forall_mem_map]
    exact fun entry hentry =>
      (AssetSymbols.isIdentifier_symbol (AssetSymbols.mem_inStorage.mp hentry).1).wordChars
  rw [declaredNames, List.filterMap_append, Sketch.declared_textLines,
    filterMap_header (Header.wordChars_guardOf _) harrays]
  simp only [Header.ofProject, List.cons_append, List.append_assoc]

/-- Apart from the guard, names that are no symbols have a small letter. -/
theorem exists_isLower {settings : Settings} {p : Project} {name : String}
    (h : name ∈ fixedNames ++ (Sketch.ofProject settings p).routineNames) :
    ∃ c ∈ name.toList, c.isLower = true := by
  have hfixed : ∀ name ∈ fixedNames, name.toList.any Char.isLower = true := by
    decide
  rcases List.mem_append.mp h with h | h
  · exact List.any_eq_true.mp (hfixed name h)
  · rcases List.mem_map.mp h with ⟨r, _, rfl⟩
    refine ⟨'d', ?_, by decide⟩
    rw [Routine.name, String.toList_append]
    exact List.mem_append_left _ (by decide)

theorem Routine.name_injective : Function.Injective Routine.name := by
  intro first second h
  have hlist := congrArg String.toList h
  rw [name, name, String.toList_append, String.toList_append] at hlist
  exact String.toList_injective (List.append_cancel_left hlist)

theorem Sketch.nodup_routineNames (settings : Settings) (p : Project) :
    (ofProject settings p).routineNames.Nodup := by
  rw [routineNames_ofProject]
  exact (nodup_screenNames p.screens).map Routine.name_injective

/-- Names that are no symbols differ. -/
theorem nodup_ownNames (settings : Settings) (p : Project) : (ownNames settings p).Nodup := by
  have hguard : Header.guardOf settings.files.header
      ∉ fixedNames ++ (Sketch.ofProject settings p).routineNames := by
    intro hmem
    rcases exists_isLower hmem with ⟨c, hc, hlower⟩
    exact not_mem_toUpper hlower hc
  have hfixed : ∀ name ∈ fixedNames, ¬ "draw_".toList <+: name.toList := by
    decide
  refine List.nodup_cons.mpr ⟨hguard, List.nodup_append.mpr
    ⟨by decide, Sketch.nodup_routineNames settings p, ?_⟩⟩
  -- A routine starts like no fixed name.
  rintro name hname _ hroutine rfl
  rcases List.mem_map.mp hroutine with ⟨r, _, rfl⟩
  refine hfixed _ hname ?_
  rw [Routine.name, String.toList_append]
  exact List.prefix_append _ _

theorem perm_declaredNames (settings : Settings) (p : Project) :
    (declaredNames (Header.ofProject settings p) (Sketch.ofProject settings p)).Perm
      ((Header.ofProject settings p).arrays.map (·.symbol) ++ ownNames settings p) := by
  have hrest : ∀ routines : List String,
      (["tft", "tft_output"] ++ routines ++ ["setup", "loop"]).Perm (fixedNames ++ routines) := by
    intro routines
    rw [List.append_assoc]
    exact List.perm_append_comm.append_left ["tft", "tft_output"]
  rw [declaredNames_eq, List.append_assoc, List.append_assoc, ← List.append_assoc ["tft", _]]
  exact (((hrest _).append_left _).cons _).trans List.perm_middle.symm

/-- The global names of an export are the symbols of its arrays and those that are no
    symbols, and each is declared once when no symbol is in use otherwise. -/
theorem nodup_declaredNames_iff (settings : Settings) (p : Project) :
    (declaredNames (Header.ofProject settings p) (Sketch.ofProject settings p)).Perm
        ((Header.ofProject settings p).arrays.map (·.symbol) ++ ownNames settings p)
      ∧ ((declaredNames (Header.ofProject settings p) (Sketch.ofProject settings p)).Nodup
        ↔ ∀ image ∈ (Header.ofProject settings p).arrays, image.symbol ∉ ownNames settings p) := by
  refine ⟨perm_declaredNames settings p, ?_⟩
  rw [(perm_declaredNames settings p).nodup_iff, List.nodup_append,
    and_iff_right (Header.nodup_symbols settings p), and_iff_right (nodup_ownNames settings p),
    List.forall_mem_map]
  exact forall₂_congr fun image _ =>
    ⟨fun h hmem => h _ hmem rfl, fun h name hname heq => h (heq ▸ hname)⟩

/-- An image called like the panel. -/
theorem not_nodup_declaredNames_tft :
    let p : Project := { assets := [{ name := "tft" }] }
    ¬ (declaredNames (Header.ofProject {} p) (Sketch.ofProject {} p)).Nodup := by
  intro p
  rw [declaredNames_eq]
  decide +kernel

end PanelSketch
