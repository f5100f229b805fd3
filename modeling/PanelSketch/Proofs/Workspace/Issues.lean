import PanelSketch.Proofs.Workspace.Numbering
import PanelSketch.Workspace.Operation

/-!
# Issued Ids

Ids are issued in four places: a screen or an element is added, a template adds some
of both, and loading replaces the ids that cannot be kept. An issue notes the id and
the number at which its counter stood. What is noted here follows the operations
step by step, from the same workspace and with the ids that they return.

A history is what has been seen so far, ids of both kinds. Issues are fresh to a
history when each is the plain number of its counter and none of the ids seen before
it, those of the issues in front of it included. A counter that has stopped at its
greatest value promises nothing.

Whatever is done in several steps is fresh when every step is, to the history that
the steps in front of it have left. That is all the lists and folds of the operations
need.

## Main definitions

* `IdKind`, `Issue`: Screens or elements, and an id with the number it was issued at.
* `History.record`, `History.Fresh`: What has been seen, and what is new to it.
* `History.Extends`: Fresh issues that leave a property in place.
* `issuesAlong`: The issues of steps in a row.
* `Workspace.loadIssues`, `Workspace.issues`: The issues of loading and of an operation.
* `Numbering.AheadOf`: Counters that are ahead of a history.

## Theorems

* `History.fresh_append`: Issues in a row.
* `History.extends_along`: Steps in a row.
* `Numbering.AheadOf.issue`: Counters that are ahead of a history issue what is new to
  it, and stay ahead.
-/

namespace PanelSketch

/-! ### Kinds of ids -/

/-- What an id names. -/
inductive IdKind where
  | screen
  | element
  deriving DecidableEq, Repr

/-- What every id of a kind starts with. -/
def IdKind.stem : IdKind → String
  | screen => screenStem
  | element => elementStem

/-- The counter of a kind. -/
def Numbering.counter (n : Numbering) : IdKind → Counter
  | .screen => n.screens
  | .element => n.elements

/-- The next id of a kind, and the counters after it. -/
def Numbering.issue (kind : IdKind) (taken : List String) (n : Numbering) : String × Numbering :=
  match kind with
  | .screen => n.issueScreen taken
  | .element => n.issueElement taken

/-- An id that is issued. -/
structure Issue where
  kind : IdKind
  /-- The number that the counter stood at. -/
  number : UInt32
  id : String
  deriving DecidableEq, Repr

/-- The issue that comes next. -/
def Numbering.issueOf (kind : IdKind) (taken : List String) (n : Numbering) : Issue :=
  ⟨kind, (n.counter kind).next, (n.issue kind taken).1⟩

/-! ### Histories -/

/-- The ids of every kind that have been seen. -/
abbrev History := IdKind → String → Prop

namespace History

/-- What has been seen once an id has been issued. -/
def record (h : History) (issue : Issue) : History :=
  fun kind id => h kind id ∨ (kind = issue.kind ∧ id = issue.id)

/-- What has been seen once some ids have been issued. -/
def recordAll (h : History) (issues : List Issue) : History :=
  issues.foldl record h

/-- Issues of plain numbers that have not been seen. -/
def Fresh (h : History) : List Issue → Prop
  | [] => True
  | issue :: issues =>
    (issue.number.toNat < UInt32.size - 1 →
        issue.id = Counter.idOf issue.kind.stem issue.number ∧ ¬h issue.kind issue.id)
      ∧ (h.record issue).Fresh issues

/-- Fresh issues, and a property that holds of what has been seen after them. -/
structure Extends {σ : Type} (Holds : History → σ → Prop) (h : History) (issues : List Issue)
    (s : σ) : Prop where
  fresh : h.Fresh issues
  holds : Holds (h.recordAll issues) s

end History

/-- The issues of steps in a row, each from where the one before it has led. -/
def issuesAlong {σ α : Type} (issues : σ → α → List Issue) (step : σ → α → σ) :
    σ → List α → List Issue
  | _, [] => []
  | s, a :: as => issues s a ++ issuesAlong issues step (step s a) as

/-! ### Issues of loading -/

namespace Loading

/-- What is issued for an element of a file, whose own id may not do. -/
def elementIssues (known : List ElementId) (l : Loading) (e : Element) : List Issue :=
  if e.id.isEmpty ∨ e.id ∈ l.elements then
    [⟨.element, l.numbering.elements.next, (l.elementId known e.id).1⟩]
  else []

/-- What is issued for a screen of a file without its elements. -/
def screenIssues (known : List ScreenId) (l : Loading) (s : Screen) : List Issue :=
  if s.id.isEmpty ∨ s.id ∈ l.screens.map (·.id) then
    [⟨.screen, l.numbering.screens.next, (l.screenId known s.id).1⟩]
  else []

/-- What is issued for a screen of a file. -/
def issues (knownScreens : List ScreenId) (knownElements : List ElementId) (r : Renaming)
    (l : Loading) (s : Screen) : List Issue :=
  l.screenIssues knownScreens s
    ++ issuesAlong (elementIssues knownElements) (fun l e => (l.addElement knownElements r e).2)
      { l with numbering := (l.screenId knownScreens s.id).2 } s.elements

/-- What is issued for a first screen, when there is none. -/
def ensureIssues (l : Loading) : List Issue :=
  if l.screens.isEmpty then
    [⟨.screen, l.numbering.screens.next, (l.numbering.issueScreen []).1⟩]
  else []

end Loading

namespace Workspace

/-- What is issued when a project is loaded. -/
def loadIssues (p : Project) : List Issue :=
  let r := Renaming.ofAssets p.assets
  let knownScreens := p.screens.map (·.id)
  let knownElements := p.elements.map (·.id)
  let add := Loading.addScreen knownScreens knownElements r
  issuesAlong (Loading.issues knownScreens knownElements r) add { numbering := p.numbering } p.screens
    ++ (p.screens.foldl add { numbering := p.numbering }).ensureIssues

/-! ### Issues of operations -/

/-- What is issued when a screen is added. -/
def screenIssues (w : Workspace) (name? : Option String) : List Issue :=
  [⟨.screen, w.numbering.screens.next, (w.addScreen name?).1.id⟩]

/-- What is issued when an element is added, unless that is refused. -/
def elementIssues (w : Workspace) (screen : ScreenId) (kind : Primitive) (asset : Option String) :
    List Issue :=
  match (w.addElement screen kind asset).1 with
  | some e => [⟨.element, w.numbering.elements.next, e.id⟩]
  | none => []

/-- What is issued when a screen is seeded. -/
def templateIssues (w : Workspace) (screen : ScreenId) (template : Template) : List Issue :=
  issuesAlong (fun w styling => w.elementIssues screen styling.kind none)
      (Template.addStyled screen) w template.stylings
    ++ issuesAlong (fun w name => w.screenIssues (some name))
      (fun w name => (w.addScreen (some name)).2)
      (template.stylings.foldl (Template.addStyled screen) w) template.furtherScreens

/-- What an operation issues. -/
def issues (w : Workspace) : Operation → List Issue
  | .addScreen name? => w.screenIssues name?
  | .addElement screen kind asset => w.elementIssues screen kind asset
  | .applyTemplate screen template => w.templateIssues screen template
  | _ => []

end Workspace

theorem Workspace.elementIssues_of_none {w : Workspace} {screen : ScreenId} {kind : Primitive}
    {asset : Option String} (hadd : (w.addElement screen kind asset).1 = none) :
    w.elementIssues screen kind asset = [] := by
  rw [elementIssues, hadd]

/-! ### Issues in a row -/

namespace History

variable {h : History}

theorem recordAll_append (first second : List Issue) :
    h.recordAll (first ++ second) = (h.recordAll first).recordAll second :=
  List.foldl_append

/-- What has been seen was seen before or has been issued. -/
theorem recordAll_iff {issues : List Issue} {kind : IdKind} {id : String} :
    h.recordAll issues kind id ↔ h kind id ∨ ∃ issue ∈ issues, kind = issue.kind ∧ id = issue.id := by
  induction issues generalizing h with
  | nil =>
      -- Nothing has been issued, so the second case does not arise.
      rw [or_iff_left (fun hnil => List.not_mem_nil hnil.choose_spec.1)]
      rfl
  | cons issue issues ih =>
      rw [recordAll, List.foldl_cons]
      simp only [List.exists_mem_cons_iff, ← or_assoc]
      exact ih

theorem fresh_append {first second : List Issue} :
    h.Fresh (first ++ second) ↔ h.Fresh first ∧ (h.recordAll first).Fresh second := by
  induction first generalizing h with
  | nil => exact (and_iff_right trivial).symm
  | cons issue issues ih =>
      rw [List.cons_append, Fresh, Fresh, ih, and_assoc]
      rfl

/-- What is new to a history is new to whatever has seen less. -/
theorem Fresh.of_imp {h' : History} {issues : List Issue} (hfresh : h.Fresh issues)
    (himp : ∀ kind id, h' kind id → h kind id) : h'.Fresh issues := by
  induction issues generalizing h h' with
  | nil => trivial
  | cons issue issues ih =>
      refine ⟨fun hlt => ?_, ih hfresh.2 fun kind id hid => hid.imp_left (himp kind id)⟩
      rcases hfresh.1 hlt with ⟨hplain, hnew⟩
      exact ⟨hplain, fun hseen => hnew (himp _ _ hseen)⟩

variable {σ α : Type} {Holds : History → σ → Prop}

theorem Extends.nil {s : σ} (hs : Holds h s) : Extends Holds h [] s :=
  ⟨trivial, hs⟩

theorem Extends.append {first second : List Issue} {s : σ} (hfirst : h.Fresh first)
    (hsecond : Extends Holds (h.recordAll first) second s) : Extends Holds h (first ++ second) s where
  fresh := fresh_append.mpr ⟨hfirst, hsecond.fresh⟩
  holds := by
    rw [recordAll_append]
    exact hsecond.holds

/-- A property that every step extends is extended by steps in a row. -/
theorem extends_along {issues : σ → α → List Issue} {step : σ → α → σ} {as : List α}
    (hstep : ∀ a ∈ as, ∀ (h : History) (s : σ), Holds h s →
      Extends Holds h (issues s a) (step s a)) {s : σ} (hs : Holds h s) :
    Extends Holds h (issuesAlong issues step s as) (as.foldl step s) := by
  induction as generalizing h s with
  | nil => exact Extends.nil hs
  | cons a as ih =>
      rw [List.forall_mem_cons] at hstep
      have hfirst := hstep.1 h s hs
      exact Extends.append hfirst.fresh (ih hstep.2 hfirst.holds)

end History

/-! ### Counters ahead of a history -/

theorem Counter.not_ahead_idOf {c : Counter} (stem : String) (hlt : c.next.toNat < UInt32.size - 1) :
    ¬c.Ahead stem (idOf stem c.next) := by
  intro h
  have hle := h c.next (numberOf?_idOf stem c.next)
  omega

/-- A counter that can go on and is ahead of the ids in use issues a plain number. -/
theorem Counter.issue_eq_idOf {stem : String} {taken : List String} {c : Counter}
    (h : ∀ id ∈ taken, c.Ahead stem id) (hlt : c.next.toNat < UInt32.size - 1) :
    (c.issue stem taken).1 = idOf stem c.next :=
  issue_of_not_mem fun hmem => not_ahead_idOf stem hlt (h _ hmem)

namespace Numbering

/-- The counters are ahead of every id that has been seen. -/
def AheadOf (n : Numbering) (h : History) : Prop :=
  ∀ kind id, h kind id → (n.counter kind).Ahead kind.stem id

variable {n : Numbering} {h : History}

theorem issue_fst (kind : IdKind) (taken : List String) (n : Numbering) :
    (n.issue kind taken).1 = ((n.counter kind).issue kind.stem taken).1 := by
  cases kind <;> rfl

theorem counter_issue (kind : IdKind) (taken : List String) (n : Numbering) :
    (n.issue kind taken).2.counter kind = ((n.counter kind).issue kind.stem taken).2 := by
  cases kind <;> rfl

theorem le_counter_issue (kind other : IdKind) (taken : List String) (n : Numbering) :
    (n.counter other).next ≤ ((n.issue kind taken).2.counter other).next := by
  cases kind <;> cases other
  · exact Counter.le_next_issue screenStem taken n.screens
  · exact UInt32.le_refl _
  · exact UInt32.le_refl _
  · exact Counter.le_next_issue elementStem taken n.elements

theorem AheadOf.mono {n' : Numbering} (hahead : n.AheadOf h)
    (hle : ∀ kind, (n.counter kind).next ≤ (n'.counter kind).next) : n'.AheadOf h :=
  fun kind id hid => (hahead kind id hid).mono (hle kind)

/-- Counters that are ahead of a history issue what is new to it, and stay ahead. -/
theorem AheadOf.issue (hahead : n.AheadOf h) (kind : IdKind) {taken : List String}
    (htaken : ∀ id ∈ taken, h kind id) :
    h.Fresh [n.issueOf kind taken]
      ∧ (n.issue kind taken).2.AheadOf (h.record (n.issueOf kind taken)) := by
  refine ⟨⟨fun hlt => ?_, trivial⟩, fun other id hid => ?_⟩
  · -- An id with the number of the counter is one that the counter is not ahead of.
    have hplain : (n.issueOf kind taken).id = Counter.idOf kind.stem (n.counter kind).next := by
      rw [issueOf, issue_fst]
      exact Counter.issue_eq_idOf (fun id hid => hahead kind id (htaken id hid)) hlt
    refine ⟨hplain, fun hseen => Counter.not_ahead_idOf kind.stem hlt ?_⟩
    rw [← hplain]
    exact hahead kind _ hseen
  · rcases hid with hid | ⟨rfl, rfl⟩
    · exact hahead.mono (fun other => le_counter_issue kind other taken n) other id hid
    · rw [issueOf, issue_fst, counter_issue]
      exact Counter.ahead_issue _ taken _

end Numbering

end PanelSketch
