import PanelSketch.Proofs.Sketch.Bundle
import PanelSketch.Proofs.Sketch.Layout
import PanelSketch.Proofs.Sketch.Routines

/-!
# What an Export Depends On

A sketch shows some of a project and not the rest. Ids, what is active and selected, the
counters, the targets and bindings of elements and the pictures behind screens are in no
line of it. `Project.shown` puts all of these aside, and two projects that agree on what
is left are exported alike.

What it shows, it shows in one place. A routine gets its name from the names of the
screens, and its lines from its own screen. Around an element stand the lines of the
background and of the other elements, and nothing is counted or carried on from one
element to the next. So an element that changes changes its own lines only.

## Main definitions

* `Element.shown`, `Screen.shown`, `Project.shown`: What a sketch shows.
* `Element.text`: The lines of an element as text.
* `Screen.textAround`: The text of a routine, with a gap between two elements.

## Theorems

* `sketch_eq_of_shown`, `header_eq_of_shown`: Projects that show the same.
* `routines_split`: A screen that changes changes its own routine only.
* `text_routine_split`: An element stands in a gap of the routine.
* `Bundle.ofProject_eq_map`: An archive whose sketch is exchanged.
-/

namespace PanelSketch

/-! ### What is shown -/

/-- An element without what is not drawn. -/
def Element.shown (e : Element) : Element :=
  { e with id := "", target := none, bindings := {} }

/-- A screen without what is not drawn. -/
def Screen.shown (s : Screen) : Screen :=
  { s with id := "", background := none, elements := s.elements.map Element.shown }

/-- A project without what no export looks at. -/
def Project.shown (p : Project) : Project :=
  { p with
    screens := p.screens.map Screen.shown
    active := ""
    selected := none
    elementSeq := 0
    screenSeq := 0 }

theorem Element.block_shown (symbols : AssetSymbols) (cornerRadius : Nat) (e : Element) :
    e.shown.block symbols cornerRadius = e.block symbols cornerRadius :=
  rfl

theorem Screen.lines_shown (symbols : AssetSymbols) (panel : Panel) (s : Screen) :
    s.shown.lines symbols panel = s.lines symbols panel := by
  rw [lines, shown, lines, List.flatMap_map]
  exact congrArg _ (List.flatMap_congr fun e _ => e.block_shown symbols _)

theorem Sketch.ofProject_shown (settings : Settings) (p : Project) :
    ofProject settings p.shown = ofProject settings p := by
  have hnames : screenNames (p.screens.map Screen.shown) = screenNames p.screens := by
    rw [screenNames, List.map_map, screenNames]
    rfl
  simp only [ofProject, Project.shown, hnames, List.zipWith_map_right, Screen.lines_shown]

theorem Header.ofProject_shown (settings : Settings) (p : Project) :
    ofProject settings p.shown = ofProject settings p :=
  rfl

/-- Projects that show the same have one sketch. -/
theorem sketch_eq_of_shown (settings : Settings) {p q : Project} (h : p.shown = q.shown) :
    Sketch.ofProject settings p = Sketch.ofProject settings q := by
  rw [← Sketch.ofProject_shown, h, Sketch.ofProject_shown]

theorem header_eq_of_shown (settings : Settings) {p q : Project} (h : p.shown = q.shown) :
    Header.ofProject settings p = Header.ofProject settings q := by
  rw [← Header.ofProject_shown, h, Header.ofProject_shown]

/-! ### One place -/

/-- The lines of an element as text. -/
def Element.text (symbols : AssetSymbols) (cornerRadius : Nat) (e : Element) : String :=
  Sketch.joinLines ((e.block symbols cornerRadius).map Line.render)

/-- The text of the routine of a screen, with some text between the elements in front and
    those behind. -/
def Screen.textAround (symbols : AssetSymbols) (panel : Panel) (name : String) (s : Screen)
    (front back : List Element) (text : String) : String :=
  Sketch.joinLines (("void " ++ Routine.name name ++ "() \x7b")
      :: (s.backgroundLines symbols panel).map Line.render)
    ++ String.join (front.map (Element.text symbols panel.cornerRadius.toNat))
    ++ text
    ++ String.join (back.map (Element.text symbols panel.cornerRadius.toNat))
    ++ Sketch.joinLines ["\x7d", ""]

theorem joinLines_blocks (symbols : AssetSymbols) (cornerRadius : Nat) (es : List Element) :
    Sketch.joinLines ((es.flatMap fun e => e.block symbols cornerRadius).map Line.render)
      = String.join (es.map (Element.text symbols cornerRadius)) := by
  induction es with
  | nil => rfl
  | cons e es ih =>
      rw [List.flatMap_cons, List.map_append, Sketch.joinLines_append, ih, List.map_cons,
        String.join_cons]
      rfl

/-- The text of an element stands between those of the elements around it. -/
theorem text_routine_split (symbols : AssetSymbols) (panel : Panel) (name : String) (s : Screen)
    (front back : List Element) (e : Element) :
    Routine.text ⟨name, ({ s with elements := front ++ e :: back } : Screen).lines symbols panel⟩
      = s.textAround symbols panel name front back
        (e.text symbols panel.cornerRadius.toNat) := by
  have hlines : Routine.textLines
      ⟨name, ({ s with elements := front ++ e :: back } : Screen).lines symbols panel⟩
      = (("void " ++ Routine.name name ++ "() \x7b")
          :: (s.backgroundLines symbols panel).map Line.render)
        ++ ((front ++ e :: back).flatMap fun e =>
          e.block symbols panel.cornerRadius.toNat).map Line.render
        ++ ["\x7d", ""] := by
    rw [Routine.textLines, Screen.lines, List.map_append]
    rfl
  rw [Routine.text, hlines, Sketch.joinLines_append, Sketch.joinLines_append, joinLines_blocks,
    List.map_append, String.join_append, List.map_cons, String.join_cons, Screen.textAround]
  simp only [String.append_assoc]

/-- A list has an item at every place before its end. -/
theorem exists_split {names : List String} {k m : Nat} (h : names.length = k + (m + 1)) :
    ∃ front name back, front.length = k ∧ names = front ++ name :: back := by
  have hlt : k < names.length := by omega
  refine ⟨names.take k, names[k], names.drop (k + 1), ?_, ?_⟩
  · rw [List.length_take, Nat.min_eq_left (Nat.le_of_lt hlt)]
  · rw [← List.drop_eq_getElem_cons hlt, List.take_append_drop]

/-- A screen that keeps its name changes its own routine only. -/
theorem routines_split (settings : Settings) (p : Project) (front back : List Screen) (s : Screen)
    (h : p.screens = front ++ s :: back) :
    ∃ routines name routines', routines.length = front.length
      ∧ ∀ s' : Screen, s'.name = s.name →
        (Sketch.ofProject settings { p with screens := front ++ s' :: back }).routines
          = routines ++ ⟨name, s'.lines (AssetSymbols.ofAssets p.assets) settings.panel⟩
            :: routines' := by
  have hlength := Sketch.length_screenNames p.screens
  rw [h, List.length_append, List.length_cons] at hlength
  rcases exists_split hlength with ⟨names, name, names', hfront, hnames⟩
  let draw (name : String) (t : Screen) : Routine :=
    ⟨name, t.lines (AssetSymbols.ofAssets p.assets) settings.panel⟩
  refine ⟨List.zipWith draw names front, name, List.zipWith draw names' back,
    by rw [List.length_zipWith, hfront, Nat.min_self], fun s' hname => ?_⟩
  -- The routines are named after the names of the screens, and these stay.
  have hsame : Sketch.screenNames (front ++ s' :: back)
      = Sketch.screenNames (front ++ s :: back) := by
    simp only [Sketch.screenNames, List.map_append, List.map_cons, hname]
  have hroutines : (Sketch.ofProject settings { p with screens := front ++ s' :: back }).routines
      = List.zipWith draw (Sketch.screenNames (front ++ s' :: back)) (front ++ s' :: back) := rfl
  rw [hroutines, hsame, hnames, List.zipWith_append hfront, List.zipWith_cons_cons]

/-! ### Archives -/

namespace Bundle

/-- The first entry of an archive takes its name and is never refused. -/
theorem assemble_cons (entry : Entry) (entries : List Entry) :
    assemble [] (entry :: entries) = (assemble [entry.name] entries).map (entry :: ·) := by
  rw [assemble, if_neg List.not_mem_nil]

/-- Projects with the same assets have the same archive but for the sketch: either both
    can be put together or neither. -/
theorem ofProject_eq_map (settings : Settings) {p p' : Project} (hassets : p'.assets = p.assets) :
    ofProject settings p' = (ofProject settings p).map fun bundle =>
      ⟨textEntry settings.files.sketchFile (Sketch.ofProject settings p').render
        :: bundle.entries.tail, bundle.skipped⟩ := by
  have hheader : Header.ofProject settings p' = Header.ofProject settings p := by
    rw [Header.ofProject, hassets, Header.ofProject]
  -- The names that are taken do not depend on what the sketch says.
  have hname (text : String) : (textEntry settings.files.sketchFile text).name
      = settings.files.sketchFile := rfl
  simp only [ofProject, assemble_cons, hheader, hassets, hname]
  rcases assemble [settings.files.sketchFile] _ with name | entries <;> rfl

end Bundle

end PanelSketch
