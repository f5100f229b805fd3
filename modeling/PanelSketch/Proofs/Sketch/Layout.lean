import PanelSketch.Proofs.Sketch.Routines
import PanelSketch.Proofs.Sketch.Symbols
import PanelSketch.Proofs.Text.Lines

/-!
# The Layout of a Routine

The routine of a screen is laid out in lines: at most one for the background, and
for every element a remark with its name and the one or two lines that draw it.
Three kinds of text from outside end up there. Images come in by symbols, which are
identifiers; labels and dangling references stand between quotes and are escaped.
The name in the remark is written as it stands, and it alone decides whether the
routine is laid out. A line feed in it makes a line that was not meant to be there,
and a backslash at its end takes the next line into the remark.

One direction counts. A text that is broken at the right places has as many lines as
there are pieces, so no piece can hold a line feed of its own.

## Main definitions

* `Element.Drawn`: The lines of one element.
* `LaidOut`: The lines of a routine are those of its screen.

## Theorems

* `Element.isLine_lines`, `Screen.isLine_backgroundLines`: What draws an element or
  a background stays on its lines.
* `lines_joinLines`: The lines of pieces, each with a line feed behind it.
* `laidOut_iff_isLine`: A routine is laid out when its pieces are lines.
* `laidOut_iff_names`, `Sketch.laidOut_iff`: A routine is laid out when the names of its
  elements are lines.
-/

namespace PanelSketch

open Text (IsLine)

/-! ### Rendered calls -/

/-- The names that an argument puts into the text as they are. -/
def Argument.names : Argument → List String
  | .symbol name | .imageFile name => [name]
  | _ => []

theorem Argument.isLine_render {a : Argument} (h : ∀ name ∈ a.names, IsLine name) :
    IsLine a.render := by
  cases a with
  | number n => exact Text.isLine_repr n
  | color c => exact IsLine.append (by decide) (Text.isLine_hexWord 4 c.bits.toNat)
  | symbol name => exact List.forall_mem_singleton.mp h
  | label text =>
      -- The closing quote comes last, whatever the label ends in.
      refine IsLine.append_left ?_ (by decide) (by decide)
      rw [String.toList_append, List.mem_append, not_or]
      exact ⟨by decide, Text.not_mem_escape text⟩
  | imageFile name =>
      have hname : IsLine name := List.forall_mem_singleton.mp h
      exact ((IsLine.append (by decide) hname).append (by decide)).append (by decide)

theorem Call.isLine_render {callee : String} (hcallee : IsLine callee) {arguments : List Argument}
    (h : ∀ name ∈ arguments.flatMap Argument.names, IsLine name) :
    IsLine (Call.mk callee arguments).render := by
  have harguments : IsLine (", ".intercalate (arguments.map Argument.render)) := by
    refine IsLine.intercalate (by decide) (List.forall_mem_map.mpr fun a ha => ?_)
    exact Argument.isLine_render fun name hname => h name (List.mem_flatMap_of_mem ha hname)
  exact ((hcallee.append (by decide)).append harguments).append (by decide)

theorem Line.isLine_calls {cs : List Call} (h : ∀ call ∈ cs, IsLine call.render) :
    IsLine (Line.calls cs).render := by
  refine IsLine.append (by decide) (IsLine.intercalate (by decide) ?_)
  exact List.forall_mem_map.mpr h

theorem isLine_panelCall {name : String} (hname : IsLine name) {arguments : List Argument}
    (h : ∀ name ∈ arguments.flatMap Argument.names, IsLine name) :
    IsLine (panelCall name arguments).render :=
  Call.isLine_render (IsLine.append (by decide) hname) h

theorem Primitive.isLine_tag (kind : Primitive) : IsLine kind.tag := by
  cases kind <;> decide

theorem isLine_imageCall (a : Asset) {symbol : String} (h : IsLine symbol) (b : Box) :
    IsLine (imageCall a symbol b).render := by
  unfold imageCall
  split
  · exact isLine_panelCall (by decide) (List.forall_mem_singleton.mpr h)
  · have hnames : ∀ name ∈ [symbol, "LittleFS"], IsLine name :=
      List.forall_mem_cons.mpr ⟨h, by decide⟩
    exact Call.isLine_render (by decide) hnames

/-! ### Lines that draw -/

/-- All symbols are lines. -/
def AssetSymbols.Safe (symbols : AssetSymbols) : Prop :=
  ∀ symbol ∈ symbols.symbols, IsLine symbol

theorem AssetSymbols.safe_ofAssets (assets : List Asset) : (ofAssets assets).Safe :=
  fun _ h => (isIdentifier_of_mem h).isLine

variable {symbols : AssetSymbols}

theorem AssetSymbols.Safe.isLine_of_resolve? (hsymbols : symbols.Safe) {name : String} {a : Asset}
    {symbol : String} (h : symbols.resolve? name = some (a, symbol)) : IsLine symbol := by
  rcases Option.bind_eq_some_iff.mp h with ⟨asset, _, hrest⟩
  rcases Option.bind_eq_some_iff.mp hrest with ⟨found, hget, hpair⟩
  rcases Option.bind_eq_some_iff.mp hget with ⟨position, _, hat⟩
  rw [Option.pure_def, Option.some.injEq, Prod.mk.injEq] at hpair
  rw [← hpair.2]
  exact hsymbols found (List.mem_of_getElem? hat)

theorem Element.isLine_imageLine (hsymbols : symbols.Safe) (e : Element) :
    IsLine (e.imageLine symbols).render := by
  unfold imageLine
  split
  · decide
  · rename_i name _
    split
    · rename_i a symbol hr
      refine Line.isLine_calls (List.forall_mem_singleton.mpr ?_)
      exact isLine_imageCall a (hsymbols.isLine_of_resolve? hr) e.box
    · -- Behind the escaped name come fixed words.
      rw [Line.render_remark]
      refine IsLine.append (by decide) (IsLine.append_left ?_ (by decide) (by decide))
      rw [String.toList_append, List.mem_append, not_or]
      exact ⟨by decide, Text.not_mem_escape name⟩

/-- What draws an element stays on its lines. -/
theorem Element.isLine_lines (hsymbols : symbols.Safe) (cornerRadius : Nat) (e : Element) :
    ∀ l ∈ e.lines symbols cornerRadius, IsLine l.render := by
  have hcall : ∀ (kind : Primitive) {arguments : List Argument},
      (∀ name ∈ arguments.flatMap Argument.names, IsLine name) →
      IsLine (Line.calls [panelCall kind.tag arguments]).render := fun kind _ h =>
    Line.isLine_calls (List.forall_mem_singleton.mpr (isLine_panelCall kind.isLine_tag h))
  have hstyle : IsLine (Line.calls [panelCall "setTextColor" [.color e.paint],
      panelCall "setTextSize" [.number e.box.textSize]]).render := by
    refine Line.isLine_calls (List.forall_mem_cons.mpr ⟨?_, List.forall_mem_singleton.mpr ?_⟩)
    · exact isLine_panelCall (by decide) (List.forall_mem_nil _)
    · exact isLine_panelCall (by decide) (List.forall_mem_nil _)
  unfold lines
  split
  · exact List.forall_mem_singleton.mpr (isLine_imageLine hsymbols e)
  · -- A label is escaped, so a text puts no names into its lines.
    refine List.forall_mem_cons.mpr ⟨hstyle, List.forall_mem_singleton.mpr ?_⟩
    exact hcall e.kind (List.forall_mem_nil _)
  · refine List.forall_mem_cons.mpr ⟨hstyle, List.forall_mem_singleton.mpr ?_⟩
    exact hcall e.kind (List.forall_mem_nil _)
  · -- A plain call has numbers and a colour for its arguments.
    refine List.forall_mem_singleton.mpr (hcall e.kind fun name hname => ?_)
    rw [List.flatMap_append, List.flatMap_map] at hname
    rcases List.mem_append.mp hname with hname | hname
    · rcases List.mem_flatMap.mp hname with ⟨n, _, hname⟩
      exact absurd hname List.not_mem_nil
    · exact absurd hname List.not_mem_nil

/-- What draws a background stays on its line. -/
theorem Screen.isLine_backgroundLines (hsymbols : symbols.Safe) (panel : Panel) (s : Screen) :
    ∀ l ∈ s.backgroundLines symbols panel, IsLine l.render := by
  unfold backgroundLines
  split
  · rename_i a symbol hr
    rcases Option.bind_eq_some_iff.mp hr with ⟨name, _, hresolve⟩
    refine List.forall_mem_singleton.mpr (Line.isLine_calls (List.forall_mem_singleton.mpr ?_))
    exact isLine_imageCall a (hsymbols.isLine_of_resolve? hresolve) _
  · unfold fillLines
    split
    · refine List.forall_mem_singleton.mpr (Line.isLine_calls (List.forall_mem_singleton.mpr ?_))
      exact isLine_panelCall (by decide) (List.forall_mem_nil _)
    · exact fun l h => absurd h List.not_mem_nil

/-! ### Layout -/

/-- What a remark that names an element begins with. -/
def remarkStem : String := "    // Element: "

/-- The text of a routine. -/
def Routine.text (r : Routine) : String :=
  Sketch.joinLines r.textLines

/-- The lines of one element: a remark, and then the lines that draw it, which are two
    for a text and else one. -/
structure Element.Drawn (symbols : AssetSymbols) (cornerRadius : Nat) (e : Element)
    (block : List String) : Prop where
  named : ∃ remark, remarkStem.toList <+: remark.toList
    ∧ block = remark :: (e.lines symbols cornerRadius).map Line.render
  length_lines : (e.lines symbols cornerRadius).length = if e.kind.isText then 2 else 1

/-- The lines of a routine are those of its screen, and none takes in the next one. -/
structure LaidOut (symbols : AssetSymbols) (panel : Panel) (s : Screen) (r : Routine) : Prop where
  divided : ∃ blocks, List.Forall₂ (Element.Drawn symbols panel.cornerRadius.toNat) s.elements blocks
    ∧ Text.lines r.text = ("void " ++ Routine.name r.screen ++ "() \x7b")
      :: (s.backgroundLines symbols panel).map Line.render ++ blocks.flatten ++ ["\x7d", "", ""]
  length_background : (s.backgroundLines symbols panel).length ≤ 1
  unspliced : ∀ l ∈ Text.lines r.text, l.toList.getLast? ≠ some '\\'

theorem Sketch.joinLines_cons (s : String) (pieces : List String) :
    joinLines (s :: pieces) = s ++ "\n" ++ joinLines pieces := by
  rw [joinLines, List.map_cons, String.join_cons]
  rfl

/-- The lines of pieces, each with a line feed behind it. -/
theorem lines_joinLines (pieces : List String) :
    Text.lines (Sketch.joinLines pieces) = pieces.flatMap Text.lines ++ [""] := by
  induction pieces with
  | nil => exact Text.lines_empty
  | cons s pieces ih =>
      rw [Sketch.joinLines_cons, Text.lines_append, List.flatMap_cons, List.append_assoc, ← ih]

theorem Screen.length_backgroundLines (symbols : AssetSymbols) (panel : Panel) (s : Screen) :
    (s.backgroundLines symbols panel).length ≤ 1 := by
  unfold backgroundLines fillLines
  split
  · exact Nat.le_refl 1
  · split
    · exact Nat.le_refl 1
    · exact Nat.zero_le 1

theorem Element.length_lines (symbols : AssetSymbols) (cornerRadius : Nat) (e : Element) :
    (e.lines symbols cornerRadius).length = if e.kind.isText then 2 else 1 := by
  unfold lines
  cases e.kind <;> rfl

theorem Element.drawn_block (symbols : AssetSymbols) (cornerRadius : Nat) (e : Element) :
    e.Drawn symbols cornerRadius ((e.block symbols cornerRadius).map Line.render) where
  named := by
    refine ⟨_, ?_, rfl⟩
    rw [Line.render_remark, ← String.append_assoc, String.toList_append]
    exact List.prefix_append _ _
  length_lines := e.length_lines symbols cornerRadius

theorem Element.Drawn.length_eq {cornerRadius : Nat} {e : Element} {block : List String}
    (h : e.Drawn symbols cornerRadius block) :
    block.length = (e.block symbols cornerRadius).length := by
  rcases h.named with ⟨remark, _, rfl⟩
  rw [List.length_cons, List.length_map, Element.block, List.length_cons]

theorem length_flatten_of_drawn {cornerRadius : Nat} {es : List Element}
    {blocks : List (List String)} (h : List.Forall₂ (Element.Drawn symbols cornerRadius) es blocks) :
    blocks.flatten.length = (es.flatMap fun e => e.block symbols cornerRadius).length := by
  induction h with
  | nil => rfl
  | cons hdrawn _ ih =>
      rw [List.flatten_cons, List.length_append, List.flatMap_cons, List.length_append, ih,
        hdrawn.length_eq]

theorem map_render_lines (symbols : AssetSymbols) (panel : Panel) (s : Screen) :
    (s.lines symbols panel).map Line.render = (s.backgroundLines symbols panel).map Line.render
      ++ (s.elements.map fun e =>
        (e.block symbols panel.cornerRadius.toNat).map Line.render).flatten := by
  rw [Screen.lines, List.map_append, List.flatMap_def, List.map_flatten, List.map_map]
  rfl

/-- A routine is laid out when its pieces are lines. -/
theorem laidOut_iff_isLine (panel : Panel) (s : Screen) (name : String) :
    LaidOut symbols panel s ⟨name, s.lines symbols panel⟩
      ↔ ∀ l ∈ Routine.textLines ⟨name, s.lines symbols panel⟩, IsLine l := by
  let r : Routine := ⟨name, s.lines symbols panel⟩
  have hlines : Text.lines r.text = r.textLines.flatMap Text.lines ++ [""] :=
    lines_joinLines r.textLines
  constructor
  · intro h
    rcases h.divided with ⟨blocks, hblocks, hdivided⟩
    -- There are as many lines as pieces, so every piece is a line.
    have hlength : (r.textLines.flatMap Text.lines).length = r.textLines.length := by
      have hcount := congrArg List.length (hlines.symm.trans hdivided)
      have hflatten := length_flatten_of_drawn hblocks
      simp only [List.length_append, List.length_cons, List.length_nil, List.length_map] at hcount
      have hpieces : r.textLines.length = (s.backgroundLines symbols panel).length
          + (s.elements.flatMap fun e => e.block symbols panel.cornerRadius.toNat).length + 3 := by
        simp only [r, Routine.textLines, Screen.lines, List.length_append, List.length_cons,
          List.length_nil, List.length_map]
      omega
    have hunbroken := Text.unbroken_of_length_flatMap_lines hlength
    rw [Text.flatMap_lines_of_unbroken hunbroken] at hlines
    exact fun l hl => ⟨hunbroken l hl, h.unspliced l (hlines ▸ List.mem_append_left _ hl)⟩
  · intro h
    rw [Text.flatMap_lines_of_unbroken fun l hl => (h l hl).unbroken] at hlines
    refine ⟨⟨s.elements.map fun e => (e.block symbols panel.cornerRadius.toNat).map Line.render,
      ?_, ?_⟩, s.length_backgroundLines symbols panel, fun l hl => ?_⟩
    · rw [List.forall₂_map_right_iff, List.forall₂_same]
      exact fun e _ => e.drawn_block symbols panel.cornerRadius.toNat
    · rw [hlines, Routine.textLines, map_render_lines]
      simp only [List.cons_append, List.append_assoc, List.nil_append]
    · rw [hlines] at hl
      rcases List.mem_append.mp hl with hl | hl
      · exact (h l hl).ended
      · rw [List.mem_singleton.mp hl]
        decide

/-- The name of an element is the only piece of its lines that might not be a line. -/
theorem Element.isLine_block_iff (hsymbols : symbols.Safe) (cornerRadius : Nat) (e : Element) :
    (∀ l ∈ e.block symbols cornerRadius, IsLine l.render) ↔ IsLine e.name := by
  rw [block, List.forall_mem_cons, and_iff_left (e.isLine_lines hsymbols cornerRadius),
    Line.render_remark, Text.isLine_append_iff (by decide), Text.isLine_append_iff (by decide)]

/-- A routine is laid out when the names of its elements are lines, since all its other
    pieces are. -/
theorem laidOut_iff_names (hsymbols : symbols.Safe) (panel : Panel) (s : Screen) {name : String}
    (hname : Text.IsIdentifier name) :
    LaidOut symbols panel s ⟨name, s.lines symbols panel⟩ ↔ ∀ e ∈ s.elements, IsLine e.name := by
  have hhead : IsLine ("void " ++ Routine.name name ++ "() \x7b") :=
    (IsLine.append (by decide) (IsLine.append (by decide) hname.isLine)).append (by decide)
  have htail : ∀ l ∈ ["\x7d", ""], IsLine l := by decide
  rw [laidOut_iff_isLine, Routine.textLines, List.forall_mem_append, List.forall_mem_cons,
    and_iff_left htail, and_iff_right hhead, List.forall_mem_map, Screen.lines,
    List.forall_mem_append, and_iff_right (s.isLine_backgroundLines hsymbols panel)]
  simp only [List.forall_mem_flatMap, Element.isLine_block_iff hsymbols]

/-! ### Sketches -/

namespace Sketch

/-- All lines of an opening but one are the same in every sketch. -/
theorem openingLines_eq (header : String) :
    openingLines header = (openingLines "").take 3
      ++ ("#include \"" ++ header ++ "\"") :: (openingLines "").drop 4 := rfl

/-- All lines of a closing but one are the same in every sketch. -/
theorem closingLines_eq (rotation : UInt8) :
    closingLines rotation = (closingLines 0).take 3
      ++ ("    tft.setRotation(" ++ rotation.toNat.repr ++ ");") :: (closingLines 0).drop 4 := rfl

theorem joinLines_append (first second : List String) :
    joinLines (first ++ second) = joinLines first ++ joinLines second := by
  rw [joinLines, List.map_append, String.join_append]
  rfl

theorem joinLines_flatMap_textLines (routines : List Routine) :
    joinLines (routines.flatMap Routine.textLines) = String.join (routines.map Routine.text) := by
  induction routines with
  | nil => rfl
  | cons r routines ih =>
      rw [List.flatMap_cons, joinLines_append, ih, List.map_cons, String.join_cons]
      rfl

/-- A sketch is made of its routines, with an opening and a closing around them. -/
theorem render_eq (sketch : Sketch) :
    sketch.render = joinLines (openingLines sketch.header)
      ++ String.join (sketch.routines.map Routine.text)
      ++ joinLines (closingLines sketch.rotation) := by
  rw [render, textLines, joinLines_append, joinLines_append, joinLines_flatMap_textLines]

/-- A sketch is made of routines, and the routine of a screen is laid out when the names
    of the elements on it are lines. -/
theorem laidOut_iff (settings : Settings) (p : Project) :
    (ofProject settings p).render = joinLines (openingLines settings.files.header)
        ++ String.join ((ofProject settings p).routines.map Routine.text)
        ++ joinLines (closingLines settings.panel.rotation)
      ∧ List.Forall₂ (fun s r => LaidOut (AssetSymbols.ofAssets p.assets) settings.panel s r
          ↔ ∀ e ∈ s.elements, IsLine e.name)
        p.screens (ofProject settings p).routines := by
  refine ⟨render_eq _, forall₂_routines settings fun name hname s _ => ?_⟩
  exact laidOut_iff_names (AssetSymbols.safe_ofAssets p.assets) settings.panel s hname

/-- A name that goes on behind a line feed, and a name with a backslash at its end. -/
theorem not_laidOut_broken_names :
    let p : Project :=
      { screens := [{ name := "Main", elements := [{ name := "Title\nSubtitle" }] },
          { name := "Files", elements := [{ name := "C:\\" }] }] }
    List.Forall₂ (fun s r => ¬ LaidOut (AssetSymbols.ofAssets p.assets) ({} : Settings).panel s r)
      p.screens (ofProject {} p).routines := by
  intro p
  refine forall₂_routines {} fun name hname s hs => ?_
  rw [laidOut_iff_names (AssetSymbols.safe_ofAssets p.assets) _ s hname]
  revert s
  decide

end Sketch

end PanelSketch
