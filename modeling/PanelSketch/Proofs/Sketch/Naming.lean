import PanelSketch.Proofs.Sketch.GlobalNames

/-!
# Names Handed Out for a Sketch

Labels are free text, and what a pool makes of them goes into a program. So every name has to be
one that a compiler takes, which is a condition on the name alone, and no name may come twice. A
number behind a repeated name can run into a label that has such a number already, so what counts
are all names handed out before, and not only those that were made of the same label.

A sketch takes the names of its routines from one pool, in the order of the screens. Nothing else
that it declares starts like a routine, so the routines that can be found in it are those of the
screens, one for each, in their order. The lines that a sketch is put together from show that for
every project. Its text shows it too, as long as these lines are the lines of the text.

## Main definitions

* `Text.IsCName`: The names that a compiler takes.
* `Sketch.OneEach`: A sketch with a routine for every screen.

## Theorems

* `Text.IsIdentifier.isCName`: Identifiers are such names.
* `Sketch.lines_render`: The lines of the text of a sketch.
* `Sketch.names_apart`: Names are handed out apart, and so routines are defined apart.
-/

namespace PanelSketch

namespace Text

/-! ### Names that a compiler takes -/

/-- A letter of the alphabet, or an underscore. -/
def IsNameStart (c : Char) : Prop :=
  'A' ≤ c ∧ c ≤ 'Z' ∨ 'a' ≤ c ∧ c ≤ 'z' ∨ c = '_'

/-- A letter or an underscore, and behind it letters, underscores and digits. -/
def IsCName (name : String) : Prop :=
  ∃ c cs, name.toList = c :: cs ∧ IsNameStart c ∧ ∀ d ∈ cs, IsNameStart d ∨ '0' ≤ d ∧ d ≤ '9'

theorem isDigit_iff {c : Char} : c.isDigit = true ↔ '0' ≤ c ∧ c ≤ '9' := by
  rw [Char.isDigit, Bool.and_eq_true, decide_eq_true_iff, decide_eq_true_iff]
  rfl

theorem isWordChar_iff {c : Char} :
    isWordChar c = true ↔ IsNameStart c ∨ '0' ≤ c ∧ c ≤ '9' := by
  have hupper : c.isUpper = true ↔ 'A' ≤ c ∧ c ≤ 'Z' := by
    rw [Char.isUpper, decide_eq_true_iff]
    rfl
  have hlower : c.isLower = true ↔ 'a' ≤ c ∧ c ≤ 'z' := by
    rw [Char.isLower, Bool.and_eq_true, decide_eq_true_iff, decide_eq_true_iff]
    rfl
  rw [isWordChar, Char.isAlphanum, Char.isAlpha, Bool.or_eq_true, Bool.or_eq_true, Bool.or_eq_true,
    hupper, hlower, isDigit_iff, beq_iff_eq, IsNameStart]
  exact or_right_comm.trans (or_congr_left or_assoc)

/-- Identifiers are names that a compiler takes. -/
theorem IsIdentifier.isCName {name : String} (h : IsIdentifier name) : IsCName name := by
  rcases hname : name.toList with _ | ⟨c, cs⟩
  · exact absurd hname h.ne_nil
  · have hword : ∀ d ∈ c :: cs, IsNameStart d ∨ '0' ≤ d ∧ d ≤ '9' := fun d hd =>
      isWordChar_iff.mp (h.wordChars d (hname ▸ hd))
    rw [List.forall_mem_cons] at hword
    -- The first character may be anything but a digit.
    have hdigit : ¬('0' ≤ c ∧ c ≤ '9') := fun hc =>
      Bool.false_ne_true ((h.head c cs hname).symm.trans (isDigit_iff.mpr hc))
    exact ⟨c, cs, hname, hword.1.resolve_right hdigit, hword.2⟩

/-- A pool whose fallback is an identifier hands out names that a compiler takes, one for each
    label and none of them twice. -/
theorem NamePool.claimAll_apart {fallback : String} (h : IsIdentifier fallback)
    (labels : List String) :
    let names := (⟨fallback, []⟩ : NamePool).claimAll labels
    names.length = labels.length ∧ names.Nodup ∧ ∀ name ∈ names, IsCName name := by
  refine ⟨length_claimAll _ labels, nodup_claimAll _ labels, fun name hname => ?_⟩
  exact (@isIdentifier_claimAll ⟨fallback, []⟩ h labels name hname).isCName

end Text

namespace Sketch

/-! ### The lines of a sketch -/

theorem unbroken_openingLines {header : String} (h : '\n' ∉ header.toList) :
    ∀ l ∈ openingLines header, '\n' ∉ l.toList := by
  have hinclude : '\n' ∉ ("#include \"" ++ header ++ "\"").toList := by
    rw [String.toList_append, String.toList_append, List.mem_append, List.mem_append, not_or,
      not_or]
    exact ⟨⟨by decide, h⟩, by decide⟩
  rw [openingLines_eq, List.forall_mem_append, List.forall_mem_cons]
  exact ⟨by decide, hinclude, by decide⟩

theorem unbroken_closingLines (rotation : UInt8) :
    ∀ l ∈ closingLines rotation, '\n' ∉ l.toList := by
  have hrotation : Text.IsLine ("    tft.setRotation(" ++ rotation.toNat.repr ++ ");") :=
    ((show Text.IsLine "    tft.setRotation(" by decide).append
      (Text.isLine_natRepr _)).append (by decide)
  rw [closingLines_eq, List.forall_mem_append, List.forall_mem_cons]
  exact ⟨by decide, hrotation.unbroken, by decide⟩

/-- The pieces of a routine hold no line feed, when the names of the elements hold none. -/
theorem unbroken_routine {symbols : AssetSymbols} (hsymbols : symbols.Safe) (panel : Panel)
    {s : Screen} (h : ∀ e ∈ s.elements, '\n' ∉ e.name.toList) {name : String}
    (hname : Text.IsIdentifier name) :
    ∀ l ∈ Routine.textLines ⟨name, s.lines symbols panel⟩, '\n' ∉ l.toList := by
  have hhead : Text.IsLine ("void " ++ Routine.name name ++ "() \x7b") :=
    (Text.IsLine.append (by decide) (Text.IsLine.append (by decide) hname.isLine)).append
      (by decide)
  have hblock : ∀ e ∈ s.elements, ∀ l ∈ e.block symbols panel.cornerRadius.toNat,
      '\n' ∉ l.render.toList := by
    intro e he
    rw [Element.block, List.forall_mem_cons]
    refine ⟨?_, fun l hl => (e.isLine_lines hsymbols panel.cornerRadius.toNat l hl).unbroken⟩
    -- The remark ends in the name as it stands.
    simp only [Line.render_remark, String.toList_append, List.mem_append, not_or]
    exact ⟨by decide, by decide, h e he⟩
  rw [Routine.textLines, List.forall_mem_append, List.forall_mem_cons, List.forall_mem_map,
    Screen.lines, List.forall_mem_append, List.forall_mem_flatMap]
  exact ⟨⟨hhead.unbroken, fun l hl => (s.isLine_backgroundLines hsymbols panel l hl).unbroken,
    hblock⟩, by decide⟩

/-- The lines of the text of a sketch are those that it is put together from, when the names of
    the header and of the elements hold no line feed. -/
theorem lines_render {settings : Settings} {p : Project}
    (hheader : '\n' ∉ settings.files.header.toList)
    (hnames : ∀ s ∈ p.screens, ∀ e ∈ s.elements, '\n' ∉ e.name.toList) :
    Text.lines (ofProject settings p).render = (ofProject settings p).textLines ++ [""] := by
  have hroutine : List.Forall₂ (fun _ r => ∀ l ∈ r.textLines, '\n' ∉ l.toList)
      p.screens (ofProject settings p).routines :=
    forall₂_routines settings fun _ hname s hs =>
      unbroken_routine (AssetSymbols.safe_ofAssets p.assets) settings.panel (hnames s hs) hname
  have hroutines : ∀ r ∈ (ofProject settings p).routines, ∀ l ∈ r.textLines,
      '\n' ∉ l.toList := by
    intro r hr
    rcases List.mem_iff_getElem.mp hr with ⟨i, hi, rfl⟩
    exact hroutine.get (hroutine.length_eq ▸ hi) hi
  have hunbroken : ∀ l ∈ (ofProject settings p).textLines, '\n' ∉ l.toList := by
    rw [textLines, List.forall_mem_append, List.forall_mem_append]
    exact ⟨⟨unbroken_openingLines hheader, List.forall_mem_flatMap.mpr hroutines⟩,
      unbroken_closingLines settings.panel.rotation⟩
  rw [render, lines_joinLines, Text.flatMap_lines_of_unbroken hunbroken]

/-! ### Routines that can be found -/

/-- A sketch with a routine for every screen, in the order of the screens, under different names
    that a compiler takes. Nothing else that the sketch declares is a routine. -/
structure OneEach (settings : Settings) (p : Project) (sketch : Sketch) : Prop where
  count : sketch.routines.length = p.screens.length
  drawn : sketch.routines.map (·.lines)
    = p.screens.map (·.lines (AssetSymbols.ofAssets p.assets) settings.panel)
  named : sketch.routineNames
    = ((⟨"screen", []⟩ : Text.NamePool).claimAll (p.screens.map (·.name))).map ("draw_" ++ ·)
  apart : sketch.routineNames.Nodup
  valid : ∀ name ∈ sketch.routineNames, Text.IsCName name
  declared : sketch.textLines.filterMap declared?
    = ["tft", "tft_output"] ++ sketch.routineNames ++ ["setup", "loop"]
  /-- The text has more lines than that where a name that is written as it stands is broken. -/
  read : '\n' ∉ settings.files.header.toList →
    (∀ s ∈ p.screens, ∀ e ∈ s.elements, '\n' ∉ e.name.toList) →
    (Text.lines sketch.render).filterMap declared?
      = ["tft", "tft_output"] ++ sketch.routineNames ++ ["setup", "loop"]

theorem isCName_routineNames (settings : Settings) (p : Project) :
    ∀ name ∈ (ofProject settings p).routineNames, Text.IsCName name := by
  rw [routineNames_ofProject, List.forall_mem_map]
  intro name hname
  rcases (isIdentifier_screenNames p.screens name hname).isCName with ⟨c, cs, hlist, hc, hcs⟩
  -- The name of the screen follows behind the stem.
  refine ⟨'d', ['r', 'a', 'w', '_'] ++ name.toList, ?_, Or.inr (Or.inl (by decide)), ?_⟩
  · rw [Routine.name, String.toList_append]
    rfl
  · have hstem : ∀ d ∈ ['r', 'a', 'w', '_'], Text.isWordChar d = true :=
      List.all_eq_true.mp (by decide)
    rw [List.forall_mem_append, hlist]
    exact ⟨fun d hd => Text.isWordChar_iff.mp (hstem d hd),
      List.forall_mem_cons.mpr ⟨Or.inl hc, hcs⟩⟩

theorem oneEach_ofProject (settings : Settings) (p : Project) :
    OneEach settings p (ofProject settings p) where
  count := length_routines settings p
  drawn := by
    have hsnd : ((screenNames p.screens).zip p.screens).map Prod.snd = p.screens :=
      List.map_snd_zip (Nat.le_of_eq (length_screenNames p.screens).symm)
    rw [ofProject, ← List.map_uncurry_zip_eq_zipWith, List.map_map]
    calc
      _ = (((screenNames p.screens).zip p.screens).map Prod.snd).map
          (·.lines (AssetSymbols.ofAssets p.assets) settings.panel) := List.map_map.symm
      _ = p.screens.map (·.lines (AssetSymbols.ofAssets p.assets) settings.panel) := by rw [hsnd]
  named := routineNames_ofProject settings p
  apart := nodup_routineNames settings p
  valid := isCName_routineNames settings p
  declared := declared_textLines settings p
  read := by
    intro hheader hnames
    rw [lines_render hheader hnames, List.filterMap_append, declared_textLines]
    exact List.append_nil _

/-- The names that a pool hands out for labels are different and taken by a compiler, and so a
    sketch has exactly one routine for every screen. The lines that the sketch is put together
    from have them for every project; the text has them as long as neither the name of the header
    nor that of an element, which are written as they stand, has a line feed in it. -/
theorem names_apart :
    (∀ fallback ∈ ["screen", "asset"], ∀ labels : List String,
      let names := (⟨fallback, []⟩ : Text.NamePool).claimAll labels
      names.length = labels.length ∧ names.Nodup ∧ ∀ name ∈ names, Text.IsCName name)
    ∧ ∀ (settings : Settings) (p : Project), OneEach settings p (ofProject settings p) := by
  have hfallback : ∀ fallback ∈ ["screen", "asset"], Text.IsIdentifier fallback :=
    List.forall_mem_cons.mpr ⟨Text.isIdentifier_screen,
      List.forall_mem_singleton.mpr Text.isIdentifier_asset⟩
  exact ⟨fun fallback h labels => Text.NamePool.claimAll_apart (hfallback fallback h) labels,
    oneEach_ofProject⟩

/-- A repeated label that runs into a label with a number, twice. -/
theorem names_apart_numbered :
    let p : Project :=
      { screens := [{ id := "a", name := "Home", elements := [{ id := "e", name := "Title" }] },
          { id := "b", name := "Home" }, { id := "c", name := "Home_1" },
          { id := "d", name := "Home 1" }] }
    let sketch := ofProject {} p
    sketch.routineNames = ["draw_Home", "draw_Home_1", "draw_Home_1_1", "draw_Home_1_2"]
      ∧ sketch.routineNames.Nodup
      ∧ (Text.lines sketch.render).filterMap declared?
        = ["tft", "tft_output"] ++ sketch.routineNames ++ ["setup", "loop"]
      ∧ ((⟨"asset", []⟩ : Text.NamePool).claimAll ["3d icon!", "a3d icon"]).Nodup := by
  intro p sketch
  have heach := names_apart.2 {} p
  have hpool := names_apart.1 "asset" (by decide) ["3d icon!", "a3d icon"]
  refine ⟨by decide +kernel, heach.apart, heach.read (by decide) ?_, hpool.2.1⟩
  decide

end Sketch

end PanelSketch
