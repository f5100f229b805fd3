import PanelSketch.Proofs.Sketch.Naming
import PanelSketch.Proofs.Text.Quoted

/-!
# Labels Are Found Again in a Sketch

A text element is drawn by a statement with its label between quotes. Two calls show labels, and
whoever reads a sketch knows them by how their lines start. The label is what is read behind the
opening quote. Its end is told by the label alone, so the rest of the line and all lines behind
it may be left on.

No other line starts like these two. The names that people choose come later on their lines, and
a line that is too short to differ ends in a line feed, which is in neither opening. So the
labels that are read where the lines of a sketch start are those of the text elements, in the
order in which they are drawn. Where the lines start is seen on the text itself, unless a name
that is written as it stands brings in a line feed of its own.

## Main definitions

* `labelAt?`: The label of the statement that a text starts with.
* `Project.labels`: The labels of a project.
* `Labelled`: Lines that show labels.
* `Sketch.TellsLabels`: A sketch that the labels of its project are read from.

## Theorems

* `labelAt?_statement`, `Unlabelled.append_break`: What follows a line does not matter.
* `Labelled.filterMap_tails`: The labels that lines show are read where the lines start.
* `Element.labelled_block`, `Sketch.labelled_ofProject`: A sketch shows the labels of its project.
* `Sketch.labels_recovered`: Labels are read back, from quotes and from sketches.
-/

namespace PanelSketch

open Text (escape readQuoted)

/-! ### Statements that show labels -/

/-- What the statements that show a label start with, up to the quote that opens it. -/
def labelOpenings : List (Primitive × String) :=
  [(.drawString, "    tft.drawString(\""), (.drawCentreString, "    tft.drawCentreString(\"")]

/-- The label of the statement that a text starts with, and the primitive that shows it. -/
def labelAt? (text : String) : Option (Primitive × String) := do
  let (kind, opening) ← labelOpenings.find? fun entry => entry.2.toList.isPrefixOf text.toList
  let (label, _) ← readQuoted (text.toList.drop opening.toList.length)
  return (kind, String.ofList label)

/-- A text that starts with no statement that shows a label. -/
def Unlabelled (text : String) : Prop :=
  ∀ entry ∈ labelOpenings, ¬entry.2.toList <+: text.toList

instance (text : String) : Decidable (Unlabelled text) :=
  inferInstanceAs (Decidable (∀ entry ∈ labelOpenings, ¬entry.2.toList <+: text.toList))

theorem Unlabelled.labelAt?_eq_none {text : String} (h : Unlabelled text) :
    labelAt? text = none := by
  have hfind : (labelOpenings.find? fun entry => entry.2.toList.isPrefixOf text.toList) = none :=
    List.find?_eq_none.mpr fun entry hentry => mt List.isPrefixOf_iff_prefix.mp (h entry hentry)
  rw [labelAt?, hfind]
  rfl

/-- No text starts like two statements. -/
theorem find?_labelOpenings {kind : Primitive} {opening : String}
    (h : (kind, opening) ∈ labelOpenings) (rest : List Char) :
    (labelOpenings.find? fun entry => entry.2.toList.isPrefixOf (opening.toList ++ rest))
      = some (kind, opening) := by
  simp only [labelOpenings, List.mem_cons, List.not_mem_nil, or_false, Prod.mk.injEq] at h
  rcases h with ⟨rfl, rfl⟩ | ⟨rfl, rfl⟩
  · rfl
  · rfl

/-- The label of a statement is read, whatever stands behind the closing quote. -/
theorem labelAt?_statement {kind : Primitive} {opening : String}
    (h : (kind, opening) ∈ labelOpenings) (label behind : String) :
    labelAt? (opening ++ (escape label ++ "\"" ++ behind)) = some (kind, label) := by
  rw [labelAt?, String.toList_append, find?_labelOpenings h]
  simp only [Option.bind_eq_bind, Option.bind_some, List.drop_left, Text.readQuoted_escape,
    String.ofList_toList]
  rfl

/-- A front that parts from every opening: neither of the two goes on from the other. -/
def PartsFromOpenings (front : String) : Prop :=
  ∀ entry ∈ labelOpenings, ¬entry.2.toList <+: front.toList ∧ ¬front.toList <+: entry.2.toList

instance (front : String) : Decidable (PartsFromOpenings front) :=
  inferInstanceAs (Decidable (∀ entry ∈ labelOpenings,
    ¬entry.2.toList <+: front.toList ∧ ¬front.toList <+: entry.2.toList))

/-- Behind a front that parts from every opening, it does not matter how a text goes on. -/
theorem Unlabelled.of_front {front : String} (h : PartsFromOpenings front) (behind : String) :
    Unlabelled (front ++ behind) := by
  intro entry hentry hfront
  rw [String.toList_append] at hfront
  -- Of two fronts of one text, one is the front of the other.
  rcases List.prefix_or_prefix_of_prefix hfront (List.prefix_append _ _) with hlong | hshort
  · exact (h entry hentry).1 hlong
  · exact (h entry hentry).2 hshort

/-- A line that shows no label does not get one from the lines behind it. -/
theorem Unlabelled.append_break {l : String} (h : Unlabelled l) (behind : String) :
    Unlabelled (l ++ "\n" ++ behind) := by
  have hunbroken : ∀ entry ∈ labelOpenings, '\n' ∉ entry.2.toList := by
    decide
  have hbreak : (l ++ "\n").toList = l.toList ++ ['\n'] := String.toList_append
  refine Unlabelled.of_front (fun entry hentry => ?_) behind
  rw [hbreak, List.prefix_concat_iff, not_or]
  -- An opening that ends in the line feed, or goes on behind it, would hold it.
  refine ⟨⟨fun hwhole => ?_, h entry hentry⟩, fun hfront => ?_⟩
  · exact hunbroken entry hentry (hwhole ▸ List.mem_append_right _ List.mem_cons_self)
  · exact hunbroken entry hentry (hfront.subset (List.mem_append_right _ List.mem_cons_self))

/-! ### Lines that show labels -/

/-- Lines that show some labels, in order: a statement shows its label, and no other line starts
    like a statement. -/
inductive Labelled : List String → List (Primitive × String) → Prop
  | nil : Labelled [] []
  | silent {l : String} (hl : Unlabelled l) {ls : List String} {labels : List (Primitive × String)}
      (h : Labelled ls labels) : Labelled (l :: ls) labels
  | statement {kind : Primitive} {opening : String} (hopening : (kind, opening) ∈ labelOpenings)
      (label behind : String) {ls : List String} {labels : List (Primitive × String)}
      (h : Labelled ls labels) :
      Labelled ((opening ++ (escape label ++ "\"" ++ behind)) :: ls) ((kind, label) :: labels)

namespace Labelled

variable {ls ls' : List String} {labels labels' : List (Primitive × String)}

/-- Every line that shows a label is read by itself. -/
theorem filterMap (h : Labelled ls labels) : ls.filterMap labelAt? = labels := by
  induction h with
  | nil => rfl
  | silent hl _ ih => rw [List.filterMap_cons_none hl.labelAt?_eq_none, ih]
  | statement hopening label behind _ ih =>
      rw [List.filterMap_cons_some (labelAt?_statement hopening label behind), ih]

/-- Labels are read where the lines that show them start, with all that follows left on. -/
theorem filterMap_tails (h : Labelled ls labels) :
    (ls.tails.map Sketch.joinLines).filterMap labelAt? = labels := by
  induction h with
  | nil => rfl
  | @silent l hl ls _ _ ih =>
      have hnone : labelAt? (Sketch.joinLines (l :: ls)) = none := by
        rw [Sketch.joinLines_cons]
        exact (hl.append_break _).labelAt?_eq_none
      rw [List.tails_cons, List.map_cons, List.filterMap_cons_none hnone, ih]
  | @statement kind opening hopening label behind ls _ _ ih =>
      have hsome : labelAt? (Sketch.joinLines ((opening ++ (escape label ++ "\"" ++ behind)) :: ls))
          = some (kind, label) := by
        rw [Sketch.joinLines_cons, String.append_assoc, String.append_assoc, String.append_assoc]
        exact labelAt?_statement hopening label _
      rw [List.tails_cons, List.map_cons, List.filterMap_cons_some hsome, ih]

theorem of_unlabelled (h : ∀ l ∈ ls, Unlabelled l) : Labelled ls [] := by
  induction ls with
  | nil => exact .nil
  | cons l ls ih =>
      rw [List.forall_mem_cons] at h
      exact .silent h.1 (ih h.2)

theorem append (h : Labelled ls labels) (h' : Labelled ls' labels') :
    Labelled (ls ++ ls') (labels ++ labels') := by
  induction h with
  | nil => exact h'
  | silent hl _ ih => exact .silent hl ih
  | statement hopening label behind _ ih => exact .statement hopening label behind ih

theorem flatMap {α β : Type} {f : α → List (Primitive × String)} {g : β → List String}
    {as : List α} {bs : List β} (h : List.Forall₂ (fun a b => Labelled (g b) (f a)) as bs) :
    Labelled (bs.flatMap g) (as.flatMap f) := by
  induction h with
  | nil => exact .nil
  | cons hlines _ ih => exact hlines.append ih

end Labelled

/-! ### The labels of a project -/

/-- The label that an element shows. -/
def Element.label? (e : Element) : Option (Primitive × String) :=
  if e.kind.isText then some (e.kind, e.name) else none

/-- The labels that a screen shows, from back to front. -/
def Screen.labels (s : Screen) : List (Primitive × String) :=
  s.elements.filterMap Element.label?

/-- The labels that the screens of a project show, in order. -/
def Project.labels (p : Project) : List (Primitive × String) :=
  p.screens.flatMap Screen.labels

/-! ### Lines of a routine -/

theorem exists_intercalate_cons (sep first : String) (pieces : List String) :
    ∃ behind, sep.intercalate (first :: pieces) = first ++ behind := by
  by_cases hne : pieces = []
  · rw [hne]
    exact ⟨"", String.append_empty.symm⟩
  · rw [String.intercalate_cons_of_ne_nil hne, String.append_assoc]
    exact ⟨_, rfl⟩

/-- A line of calls starts with the name of the first one. -/
theorem Line.unlabelled_calls {callee : String} (h : PartsFromOpenings (indent ++ (callee ++ "(")))
    (arguments : List Argument) (cs : List Call) :
    Unlabelled (Line.calls (⟨callee, arguments⟩ :: cs)).render := by
  rcases exists_intercalate_cons " " (Call.mk callee arguments).render (cs.map Call.render) with
    ⟨behind, hcalls⟩
  rw [Line.render, List.map_cons, hcalls, Call.render, String.append_assoc, String.append_assoc,
    ← String.append_assoc]
  exact Unlabelled.of_front h _

theorem Line.unlabelled_remark (text : String) : Unlabelled (Line.remark text).render := by
  rw [render_remark]
  exact Unlabelled.of_front (by decide) text

theorem unlabelled_imageCall (a : Asset) (symbol : String) (b : Box) :
    Unlabelled (Line.calls [imageCall a symbol b]).render := by
  unfold imageCall
  split
  · exact Line.unlabelled_calls (by decide) _ []
  · exact Line.unlabelled_calls (by decide) _ []

theorem Element.unlabelled_imageLine (symbols : AssetSymbols) (e : Element) :
    Unlabelled (e.imageLine symbols).render := by
  unfold imageLine
  split
  · exact Line.unlabelled_remark _
  · split
    · exact unlabelled_imageCall _ _ _
    · exact Line.unlabelled_remark _

theorem Screen.unlabelled_backgroundLines (symbols : AssetSymbols) (panel : Panel) (s : Screen) :
    ∀ l ∈ (s.backgroundLines symbols panel).map Line.render, Unlabelled l := by
  rw [List.forall_mem_map]
  unfold backgroundLines
  split
  · exact List.forall_mem_singleton.mpr (unlabelled_imageCall _ _ _)
  · unfold fillLines
    split
    · exact List.forall_mem_singleton.mpr (Line.unlabelled_calls (by decide) _ [])
    · exact List.forall_mem_nil _

/-- The statement of a text shows its label. -/
theorem Primitive.render_labelCall {kind : Primitive} (h : kind.isText = true) (label : String)
    (arguments : List Argument) :
    ∃ opening behind, (kind, opening) ∈ labelOpenings
      ∧ (Line.calls [panelCall kind.tag (.label label :: arguments)]).render
        = opening ++ (escape label ++ "\"" ++ behind) := by
  have hopening : (kind, indent ++ ("tft." ++ (kind.tag ++ ("(" ++ "\"")))) ∈ labelOpenings := by
    cases kind with
    | drawString | drawCentreString => decide
    | _ => exact absurd h Bool.false_ne_true
  rcases exists_intercalate_cons ", " (Argument.label label).render
    (arguments.map Argument.render) with ⟨behind, harguments⟩
  refine ⟨_, behind ++ ");", hopening, ?_⟩
  rw [Line.render, List.map_singleton, String.intercalate_singleton, Call.render, panelCall,
    List.map_cons, harguments, Argument.render]
  simp only [String.append_assoc]

/-- A call that shows no label, as a line of its own. -/
theorem Primitive.unlabelled_plainCall {kind : Primitive} (htext : kind.isText = false)
    (arguments : List Argument) :
    Unlabelled (Line.calls [panelCall kind.tag arguments]).render := by
  refine Line.unlabelled_calls ?_ arguments []
  cases kind with
  | drawString | drawCentreString => exact absurd htext.symm Bool.false_ne_true
  | _ => decide

section

variable (symbols : AssetSymbols) (cornerRadius : Nat) {e : Element}

/-- A text is drawn by its style and by the statement that shows its label. -/
theorem Element.lines_text (h : e.kind.isText = true) : ∃ arguments,
    e.lines symbols cornerRadius
      = [.calls [panelCall "setTextColor" [.color e.paint],
          panelCall "setTextSize" [.number e.box.textSize]],
        .calls [panelCall e.kind.tag (.label e.name :: arguments)]] := by
  rcases e with ⟨_, kind⟩
  cases kind with
  | drawString | drawCentreString => exact ⟨_, rfl⟩
  | _ => exact absurd h Bool.false_ne_true

theorem Element.unlabelled_lines (h : e.kind.isText = false) :
    ∀ l ∈ (e.lines symbols cornerRadius).map Line.render, Unlabelled l := by
  rw [List.forall_mem_map]
  unfold lines
  split
  case h_1 => exact List.forall_mem_singleton.mpr (e.unlabelled_imageLine symbols)
  case h_2 hkind =>
    rw [hkind] at h
    exact absurd h.symm Bool.false_ne_true
  case h_3 hkind =>
    rw [hkind] at h
    exact absurd h.symm Bool.false_ne_true
  case h_4 => exact List.forall_mem_singleton.mpr (Primitive.unlabelled_plainCall h _)

/-- The lines of an element show its label, if it has one. -/
theorem Element.labelled_lines (e : Element) :
    Labelled ((e.lines symbols cornerRadius).map Line.render) e.label?.toList := by
  by_cases htext : e.kind.isText = true
  · rcases lines_text symbols cornerRadius htext with ⟨arguments, hlines⟩
    rcases Primitive.render_labelCall htext e.name arguments with
      ⟨opening, behind, hopening, hstatement⟩
    rw [hlines, List.map_cons, List.map_singleton, hstatement, label?, if_pos htext]
    exact .silent (Line.unlabelled_calls (by decide) _ _) (.statement hopening _ _ .nil)
  · rw [label?, if_neg htext]
    exact .of_unlabelled (unlabelled_lines symbols cornerRadius (Bool.eq_false_iff.mpr htext))

theorem Element.labelled_block (e : Element) :
    Labelled ((e.block symbols cornerRadius).map Line.render) e.label?.toList :=
  .silent (Line.unlabelled_remark _) (e.labelled_lines symbols cornerRadius)

end

/-- The routine of a screen shows the labels of its elements, from back to front. -/
theorem Screen.labelled_routine (symbols : AssetSymbols) (panel : Panel) (s : Screen)
    (name : String) :
    Labelled (Routine.textLines ⟨name, s.lines symbols panel⟩) s.labels := by
  have hhead : Unlabelled ("void " ++ Routine.name name ++ "() \x7b") := by
    rw [String.append_assoc]
    exact Unlabelled.of_front (by decide) _
  have hbackground := Labelled.of_unlabelled (s.unlabelled_backgroundLines symbols panel)
  have helements : Labelled
      (s.elements.flatMap fun e => (e.block symbols panel.cornerRadius.toNat).map Line.render)
      s.labels := by
    rw [labels, List.filterMap_eq_flatMap_toList]
    exact .flatMap (List.forall₂_same.mpr fun e _ =>
      e.labelled_block symbols panel.cornerRadius.toNat)
  have hclose : Labelled ["\x7d", ""] [] := .of_unlabelled (by decide)
  have hlabels : s.labels = [] ++ s.labels ++ [] := (List.append_nil _).symm
  rw [Routine.textLines, lines, List.map_append, List.map_flatMap, hlabels]
  exact (Labelled.silent hhead (hbackground.append helements)).append hclose

namespace Sketch

/-- The lines of a sketch show the labels of its project. -/
theorem labelled_ofProject (settings : Settings) (p : Project) :
    Labelled (ofProject settings p).textLines p.labels := by
  have hopening : Labelled (openingLines settings.files.header) [] := by
    have hinclude : Unlabelled ("#include \"" ++ settings.files.header ++ "\"") := by
      rw [String.append_assoc]
      exact Unlabelled.of_front (by decide) _
    rw [openingLines_eq]
    exact .of_unlabelled (List.forall_mem_append.mpr
      ⟨by decide, List.forall_mem_cons.mpr ⟨hinclude, by decide⟩⟩)
  have hclosing : Labelled (closingLines settings.panel.rotation) [] := by
    have hrotation : Unlabelled
        ("    tft.setRotation(" ++ settings.panel.rotation.toNat.repr ++ ");") := by
      rw [String.append_assoc]
      exact Unlabelled.of_front (by decide) _
    rw [closingLines_eq]
    exact .of_unlabelled (List.forall_mem_append.mpr
      ⟨by decide, List.forall_mem_cons.mpr ⟨hrotation, by decide⟩⟩)
  have hroutines : Labelled ((ofProject settings p).routines.flatMap Routine.textLines) p.labels :=
    .flatMap (forall₂_routines settings fun name _ s _ =>
      s.labelled_routine (AssetSymbols.ofAssets p.assets) settings.panel name)
  have hlabels : p.labels = [] ++ p.labels ++ [] := (List.append_nil _).symm
  rw [textLines, hlabels]
  exact (hopening.append hroutines).append hclosing

/-- A sketch that the labels of its project are read from, in the order in which they are drawn. -/
structure TellsLabels (settings : Settings) (p : Project) (sketch : Sketch) : Prop where
  /-- Each is read from the text where its line starts, however the text goes on. -/
  anchored : (sketch.textLines.tails.map joinLines).filterMap labelAt? = p.labels
  /-- The text has more lines than that where a name that is written as it stands is broken. -/
  read : '\n' ∉ settings.files.header.toList →
    (∀ s ∈ p.screens, ∀ e ∈ s.elements, '\n' ∉ e.name.toList) →
    (Text.lines sketch.render).filterMap labelAt? = p.labels

theorem tellsLabels_ofProject (settings : Settings) (p : Project) :
    TellsLabels settings p (ofProject settings p) where
  anchored := (labelled_ofProject settings p).filterMap_tails
  read := by
    intro hheader hnames
    have hend : [""].filterMap labelAt? = [] := rfl
    rw [lines_render hheader hnames, List.filterMap_append,
      (labelled_ofProject settings p).filterMap, hend, List.append_nil]

/-- A text that is written between quotes is read back up to the closing quote, whatever follows
    it. So different texts are written differently, none is written with a character that lays
    out a page, and the labels of a project are read from its sketch. -/
theorem labels_recovered :
    (∀ label behind : String,
      readQuoted (escape label ++ "\"" ++ behind).toList = some (label.toList, behind.toList))
    ∧ Function.Injective escape
    ∧ (∀ label : String, ∀ c ∈ ['\n', '\r', '\t'], c ∉ (escape label).toList)
    ∧ ∀ (settings : Settings) (p : Project), TellsLabels settings p (ofProject settings p) :=
  ⟨Text.readQuoted_escape, Text.escape_injective,
    fun label _ hc => Text.not_mem_escape_of_layout hc label, tellsLabels_ofProject⟩

/-- Labels that look escaped, a backslash in front of the closing quote, and a name that looks
    like a statement. -/
theorem labels_recovered_backslashes :
    let p : Project :=
      { screens := [{ name := "Main", elements :=
            [{ kind := .drawString, name := "say \\\"hi\\\"" },
              { kind := .fillRect, name := "    tft.drawString(\"Title\", 0, 0);" }] },
          { name := "Files", elements := [{ kind := .drawCentreString, name := "C:\\\t\\" }] }] }
    let labels : List (Primitive × String) :=
      [(.drawString, "say \\\"hi\\\""), (.drawCentreString, "C:\\\t\\")]
    escape "C:\\\t\\" = "C:\\\\\\t\\\\"
      ∧ readQuoted "C:\\\\\\t\\\\\", 35, 10, 2);".toList
        = some ("C:\\\t\\".toList, ", 35, 10, 2);".toList)
      ∧ ((ofProject {} p).textLines.tails.map joinLines).filterMap labelAt? = labels
      ∧ (Text.lines (ofProject {} p).render).filterMap labelAt? = labels := by
  intro p labels
  have hescape : escape "C:\\\t\\" = "C:\\\\\\t\\\\" := by decide
  have hread := labels_recovered.1 "C:\\\t\\" ", 35, 10, 2);"
  rw [hescape] at hread
  have htells := labels_recovered.2.2.2 {} p
  exact ⟨hescape, hread, htells.anchored, htells.read (by decide) (by decide)⟩

end Sketch

end PanelSketch
