import PanelSketch.Proofs.Sketch.Formula

/-!
# The Geometry of Elements

Every number of a statement follows a rule, a formula over the box of the element. The rules
stay far below the limit of a 64-bit word, since the numbers of a box have 32 bits and the
largest rule adds two of them. So the numbers are exact in every box.

What a statement draws is told from the statement alone, from the name of its call and its
numbers: the points it reaches at the far ends, and its radii. A box that is not turned inside
out holds all of these points. Quotients are cut off toward zero, so twice a half is never more
than the whole, and a centre with its radius does not reach over the far edge.

## Main definitions

* `Primitive.rules`, `Element.rules`: The formulas of the numbers of a statement, in order.
* `Element.calls`: The calls of an element.
* `Figure`, `Call.figure?`: What a call draws.
* `Element.ComputedExactly`, `Element.Enclosed`: What is claimed of the numbers and the figures.
* `Element.Written`: The text of an element, with its numbers in decimals.

## Theorems

* `Element.forall_calls`: What there is to show of every call of an element.
* `Element.numbers_calls`: The numbers of a statement follow its rules.
* `Element.magnitude_rules`: The rules stay below the limit.
* `Primitive.liesIn_figure`: The figure of a primitive lies in the box.
* `Element.geometry`: Every element is computed exactly, and drawn in its box.
* `Element.written`: The numbers of an element stand in its text.
-/

namespace PanelSketch

/-! ### Rules -/

/-- The rules of a primitive, one for each number of its statement in order. Those of an
    image depend on its storage. -/
def Primitive.rules (p : Primitive) (cornerRadius : Nat) : List Formula :=
  match p with
  | .fillRect | .drawRect => [.x, .y, .w, .h]
  | .fillRoundRect | .drawRoundRect => [.x, .y, .w, .h, .constant cornerRadius]
  | .fillCircle | .drawCircle => [.centerX, .centerY, .radius]
  | .fillEllipse | .drawEllipse =>
    [.centerX, .centerY, .quotient .w (.constant 2), .quotient .h (.constant 2)]
  | .fillTriangle | .drawTriangle => [.centerX, .y, .x, .bottom, .right, .bottom]
  | .drawLine => [.x, .y, .right, .bottom]
  | .drawFastHLine => [.x, .y, .w]
  | .drawFastVLine => [.x, .y, .h]
  | .drawPixel => [.x, .y]
  | .drawString => [.textSize, .x, .y]
  | .drawCentreString => [.textSize, .centerX, .y, .constant 2]
  | .fillScreen | .pushImage => []

/-- The rules of an image, which has none when it is not found. -/
def Element.imageRules (symbols : AssetSymbols) (e : Element) : List Formula :=
  match (reference? e.asset).bind symbols.resolve? with
  | some (asset, _) =>
    match asset.storage with
    | .flash => [.x, .y, .w, .h]
    | .littleFs => [.x, .y]
  | none => []

/-- The rules of an element. -/
def Element.rules (symbols : AssetSymbols) (cornerRadius : Nat) (e : Element) : List Formula :=
  if e.kind = .pushImage then e.imageRules symbols else e.kind.rules cornerRadius

/-! ### Calls -/

/-- The number that an argument is. -/
def Argument.number? : Argument → Option Int
  | .number n => some n
  | _ => none

/-- The numbers among the arguments of a call. -/
def Call.numbers (c : Call) : List Int :=
  c.arguments.filterMap Argument.number?

/-- The calls on a line. -/
def Line.calledOn : Line → List Call
  | .remark _ => []
  | .calls cs => cs

/-- The calls of an element. -/
def Element.calls (symbols : AssetSymbols) (cornerRadius : Nat) (e : Element) : List Call :=
  (e.lines symbols cornerRadius).flatMap Line.calledOn

/-- The numbers that place a text. -/
def Element.placeNumbers (e : Element) : List Int :=
  if e.kind = .drawString then [e.box.x, e.box.y] else [e.box.centerX, e.box.y, centredFont]

/-- The call that draws a text. -/
def Element.textCall (e : Element) : Call :=
  panelCall e.kind.tag (.label e.name :: e.placeNumbers.map .number)

/-- The call that draws an element which is neither an image nor a text. -/
def Element.plainCall (cornerRadius : Nat) (e : Element) : Call :=
  panelCall e.kind.tag ((e.kind.numbers cornerRadius e.box).map .number ++ [.color e.paint])

section

variable (symbols : AssetSymbols) (cornerRadius : Nat) {e : Element}

theorem Element.calls_image (h : e.kind = .pushImage) :
    e.calls symbols cornerRadius = (e.imageLine symbols).calledOn := by
  simp only [calls, lines, h, List.flatMap_singleton]

theorem Element.calls_text (h : e.kind.isText = true) :
    e.calls symbols cornerRadius
      = [panelCall "setTextColor" [.color e.paint], panelCall "setTextSize" [.number e.box.textSize],
        e.textCall] := by
  rcases e with ⟨_, kind⟩
  cases kind with
  | drawString | drawCentreString => rfl
  | _ => exact absurd h Bool.false_ne_true

theorem Element.calls_plain (himage : e.kind ≠ .pushImage) (htext : e.kind.isText = false) :
    e.calls symbols cornerRadius = [e.plainCall cornerRadius] := by
  rcases e with ⟨_, kind⟩
  cases kind with
  | pushImage => exact absurd rfl himage
  | drawString | drawCentreString => exact absurd htext.symm Bool.false_ne_true
  | _ => rfl

/-- What there is to show of every call of an element. -/
theorem Element.forall_calls {P : Call → Prop}
    (himage : ∀ asset symbol, P (imageCall asset symbol e.box))
    (hcolor : P (panelCall "setTextColor" [.color e.paint]))
    (hsize : P (panelCall "setTextSize" [.number e.box.textSize]))
    (htext : e.kind.isText = true → P e.textCall)
    (hplain : e.kind ≠ .pushImage → e.kind.isText = false → P (e.plainCall cornerRadius)) :
    ∀ c ∈ e.calls symbols cornerRadius, P c := by
  by_cases hkind : e.kind = .pushImage
  · rw [calls_image symbols cornerRadius hkind]
    unfold imageLine
    split
    · exact List.forall_mem_nil _
    · split
      · exact List.forall_mem_singleton.mpr (himage _ _)
      · exact List.forall_mem_nil _
  by_cases hshown : e.kind.isText = true
  · rw [calls_text symbols cornerRadius hshown]
    exact List.forall_mem_cons.mpr ⟨hcolor, List.forall_mem_cons.mpr
      ⟨hsize, List.forall_mem_singleton.mpr (htext hshown)⟩⟩
  · rw [Bool.not_eq_true] at hshown
    rw [calls_plain symbols cornerRadius hkind hshown]
    exact List.forall_mem_singleton.mpr (hplain hkind hshown)

end

/-! ### Numbers -/

theorem filterMap_number (ns : List Int) :
    (ns.map Argument.number).filterMap Argument.number? = ns := by
  rw [List.filterMap_map]
  exact List.filterMap_some

theorem Element.numbers_textCall (e : Element) : e.textCall.numbers = e.placeNumbers := by
  have hlabel : Argument.number? (.label e.name) = none := rfl
  rw [Call.numbers, textCall, panelCall, List.filterMap_cons_none hlabel, filterMap_number]

theorem Element.numbers_plainCall (cornerRadius : Nat) (e : Element) :
    (e.plainCall cornerRadius).numbers = e.kind.numbers cornerRadius e.box := by
  have hcolor : [Argument.color e.paint].filterMap Argument.number? = [] := rfl
  rw [Call.numbers, plainCall, panelCall, List.filterMap_append, filterMap_number, hcolor,
    List.append_nil]

/-- The numbers of a text follow its rules. The size comes first, and then the place. -/
theorem Element.numbers_text {e : Element} (h : e.kind.isText = true) (cornerRadius : Nat) :
    e.box.textSize :: e.placeNumbers = (e.kind.rules cornerRadius).map (·.value e.box) := by
  have hsize : e.box.textSize = Formula.textSize.value e.box := Int.max_comm _ _
  rcases e with ⟨_, kind⟩
  cases kind with
  | drawString | drawCentreString => exact congrArg (· :: _) hsize
  | _ => exact absurd h Bool.false_ne_true

theorem Primitive.numbers_eq {p : Primitive} (htext : p.isText = false) (cornerRadius : Nat)
    (b : Box) : p.numbers cornerRadius b = (p.rules cornerRadius).map (·.value b) := by
  cases p with
  | drawString | drawCentreString => exact absurd htext.symm Bool.false_ne_true
  | _ => rfl

/-- The numbers of an image follow its rules. -/
theorem Element.numbers_imageLine (symbols : AssetSymbols) (e : Element) :
    (e.imageLine symbols).calledOn.flatMap Call.numbers
      = (e.imageRules symbols).map (·.value e.box) := by
  unfold imageLine imageRules
  rcases reference? e.asset with _ | name
  · rfl
  · simp only [Option.bind_some]
    rcases symbols.resolve? name with _ | ⟨asset, symbol⟩
    · rfl
    · simp only [Line.calledOn, imageCall]
      rcases asset.storage with _ | _
      · rfl
      · rfl

/-- The numbers of a statement follow its rules. -/
theorem Element.numbers_calls (symbols : AssetSymbols) (cornerRadius : Nat) (e : Element) :
    (e.calls symbols cornerRadius).flatMap Call.numbers
      = (e.rules symbols cornerRadius).map (·.value e.box) := by
  by_cases himage : e.kind = .pushImage
  · rw [calls_image symbols cornerRadius himage, rules, if_pos himage]
    exact e.numbers_imageLine symbols
  rw [rules, if_neg himage]
  by_cases htext : e.kind.isText = true
  · rw [calls_text symbols cornerRadius htext, ← numbers_text htext, ← numbers_textCall]
    simp only [List.flatMap_cons, List.flatMap_nil, List.append_nil]
    rfl
  · rw [Bool.not_eq_true] at htext
    rw [calls_plain symbols cornerRadius himage htext, List.flatMap_singleton, numbers_plainCall,
      Primitive.numbers_eq htext]

/-! ### Figures -/

/-- Whether a point is in a box, the edges included. -/
def Box.Contains (b : Box) (point : Int × Int) : Prop :=
  b.x ≤ point.1 ∧ point.1 ≤ b.x + b.w ∧ b.y ≤ point.2 ∧ point.2 ≤ b.y + b.h

/-- What a call draws: the points it reaches at its far ends, and its radii. -/
structure Figure where
  points : List (Int × Int) := []
  radii : List Int := []
  deriving DecidableEq, Repr

/-- A figure lies in a box when its points do and no radius is negative. -/
structure Figure.LiesIn (f : Figure) (b : Box) : Prop where
  points : ∀ point ∈ f.points, b.Contains point
  radii : ∀ r ∈ f.radii, 0 ≤ r

namespace Figure

/-- An area with a corner and its extents. -/
def area (x y w h : Int) : Figure :=
  { points := [(x, y), (x + w, y + h)] }

/-- What lies around a centre, as far as its radii reach. -/
def round (x y rx ry : Int) : Figure :=
  { points := [(x - rx, y - ry), (x + rx, y + ry)], radii := [rx, ry] }

end Figure

/-- What a primitive draws from its numbers. -/
def Primitive.figure? : Primitive → List Int → Option Figure
  | .fillRect, [x, y, w, h] | .drawRect, [x, y, w, h] | .pushImage, [x, y, w, h] =>
    some (.area x y w h)
  | .fillRoundRect, [x, y, w, h, r] | .drawRoundRect, [x, y, w, h, r] =>
    some { Figure.area x y w h with radii := [r] }
  | .fillCircle, [x, y, r] | .drawCircle, [x, y, r] => some (.round x y r r)
  | .fillEllipse, [x, y, rx, ry] | .drawEllipse, [x, y, rx, ry] => some (.round x y rx ry)
  | .fillTriangle, [x₁, y₁, x₂, y₂, x₃, y₃] | .drawTriangle, [x₁, y₁, x₂, y₂, x₃, y₃] =>
    some { points := [(x₁, y₁), (x₂, y₂), (x₃, y₃)] }
  | .drawLine, [x₁, y₁, x₂, y₂] => some { points := [(x₁, y₁), (x₂, y₂)] }
  | .drawFastHLine, [x, y, w] => some { points := [(x, y), (x + w, y)] }
  | .drawFastVLine, [x, y, h] => some { points := [(x, y), (x, y + h)] }
  | .drawPixel, [x, y] | .drawString, [x, y] | .drawCentreString, [x, y, _] | .pushImage, [x, y] =>
    some { points := [(x, y)] }
  | .fillScreen, [] => some {}
  | _, _ => none

/-- The primitive that a call draws; an image that is read from a file is drawn by a call
    of another library. -/
def Call.primitive? (c : Call) : Option Primitive :=
  if c.callee = "TJpgDec.drawFsJpg" then some .pushImage
  else Primitive.all.find? fun p => "tft." ++ p.tag == c.callee

/-- The calls that set how texts look and draw nothing themselves. -/
def styleCallees : List String :=
  ["tft.setTextColor", "tft.setTextSize"]

/-- What a call draws, if it is a call that a statement may hold. -/
def Call.figure? (c : Call) : Option Figure :=
  if c.callee ∈ styleCallees then some {}
  else c.primitive?.bind fun p => p.figure? c.numbers

theorem Primitive.figure?_panelCall (p : Primitive) (arguments : List Argument) :
    (panelCall p.tag arguments).figure? = p.figure? (panelCall p.tag arguments).numbers := by
  have hstyle : "tft." ++ p.tag ∉ styleCallees := by
    cases p <;> decide
  have hprimitive : (panelCall p.tag arguments).primitive? = some p := by
    cases p <;> rfl
  rw [Call.figure?, hprimitive, Option.bind_some]
  exact if_neg hstyle

theorem Call.figure?_style {name : String} (h : "tft." ++ name ∈ styleCallees)
    (arguments : List Argument) : (panelCall name arguments).figure? = some {} :=
  if_pos h

/-- Twice a half is not more than the whole. -/
theorem half_bounds {n : Int} (h : 0 ≤ n) : 0 ≤ n.tdiv 2 ∧ 2 * n.tdiv 2 ≤ n := by
  rw [Int.tdiv_eq_ediv_of_nonneg h]
  omega

section

variable {b : Box}

theorem Box.contains_corner (hw : 0 ≤ b.w) (hh : 0 ≤ b.h) : b.Contains (b.x, b.y) := by
  simp only [Contains]
  omega

/-- The top of a triangle, and where a centred text is set. -/
theorem Box.contains_top (hw : 0 ≤ b.w) (hh : 0 ≤ b.h) : b.Contains (b.centerX, b.y) := by
  have hhalf := half_bounds hw
  simp only [Contains, centerX]
  omega

theorem Figure.liesIn_area (hw : 0 ≤ b.w) (hh : 0 ≤ b.h) : (area b.x b.y b.w b.h).LiesIn b := by
  refine ⟨List.forall_mem_cons.mpr ⟨Box.contains_corner hw hh, List.forall_mem_singleton.mpr ?_⟩,
    List.forall_mem_nil _⟩
  simp only [Box.Contains]
  omega

/-- Radii that are no more than halves of the extents do not reach over an edge. -/
theorem Figure.liesIn_round (hw : 0 ≤ b.w) (hh : 0 ≤ b.h) {rx ry : Int} (hrx : 0 ≤ rx)
    (hry : 0 ≤ ry) (hx : rx ≤ b.w.tdiv 2) (hy : ry ≤ b.h.tdiv 2) :
    (round b.centerX b.centerY rx ry).LiesIn b := by
  have hhalfw := half_bounds hw
  have hhalfh := half_bounds hh
  refine ⟨List.forall_mem_cons.mpr ⟨?_, List.forall_mem_singleton.mpr ?_⟩,
    List.forall_mem_cons.mpr ⟨hrx, List.forall_mem_singleton.mpr hry⟩⟩
  · simp only [Box.Contains, Box.centerX, Box.centerY]
    omega
  · simp only [Box.Contains, Box.centerX, Box.centerY]
    omega

theorem Figure.liesIn_circle (hw : 0 ≤ b.w) (hh : 0 ≤ b.h) :
    (round b.centerX b.centerY b.radius b.radius).LiesIn b := by
  have hmin : 0 ≤ min b.w b.h := by omega
  have hhalf : 0 ≤ b.radius ∧ 2 * b.radius ≤ min b.w b.h := half_bounds hmin
  have hhalfw : b.radius ≤ b.w.tdiv 2 := by
    rw [Int.tdiv_eq_ediv_of_nonneg hw]
    omega
  have hhalfh : b.radius ≤ b.h.tdiv 2 := by
    rw [Int.tdiv_eq_ediv_of_nonneg hh]
    omega
  exact liesIn_round hw hh hhalf.1 hhalf.1 hhalfw hhalfh

theorem Figure.liesIn_triangle (hw : 0 ≤ b.w) (hh : 0 ≤ b.h) :
    Figure.LiesIn { points := [(b.centerX, b.y), (b.x, b.bottom), (b.right, b.bottom)] } b := by
  refine ⟨List.forall_mem_cons.mpr ⟨Box.contains_top hw hh, List.forall_mem_cons.mpr
    ⟨?_, List.forall_mem_singleton.mpr ?_⟩⟩, List.forall_mem_nil _⟩
  · simp only [Box.Contains, Box.bottom]
    omega
  · simp only [Box.Contains, Box.bottom, Box.right]
    omega

/-- A stroke from the corner of the box to a point in it. -/
theorem Figure.liesIn_stroke (hw : 0 ≤ b.w) (hh : 0 ≤ b.h) {point : Int × Int}
    (h : b.Contains point) : Figure.LiesIn { points := [(b.x, b.y), point] } b :=
  ⟨List.forall_mem_cons.mpr ⟨Box.contains_corner hw hh, List.forall_mem_singleton.mpr h⟩,
    List.forall_mem_nil _⟩

theorem Figure.liesIn_spot {point : Int × Int} (h : b.Contains point) :
    Figure.LiesIn { points := [point] } b :=
  ⟨List.forall_mem_singleton.mpr h, List.forall_mem_nil _⟩

/-- The figure of a primitive that needs no more than its box lies in the box. -/
theorem Primitive.liesIn_figure (hw : 0 ≤ b.w) (hh : 0 ≤ b.h) {p : Primitive}
    (himage : p ≠ .pushImage) (htext : p.isText = false) (cornerRadius : Nat) :
    ∃ f, p.figure? (p.numbers cornerRadius b) = some f ∧ f.LiesIn b := by
  have hhalfw := half_bounds hw
  have hhalfh := half_bounds hh
  cases p with
  | fillRect | drawRect => exact ⟨_, rfl, Figure.liesIn_area hw hh⟩
  | fillRoundRect | drawRoundRect =>
      refine ⟨_, rfl, (Figure.liesIn_area hw hh).points, List.forall_mem_singleton.mpr ?_⟩
      exact Int.natCast_nonneg cornerRadius
  | fillCircle | drawCircle => exact ⟨_, rfl, Figure.liesIn_circle hw hh⟩
  | fillEllipse | drawEllipse =>
      exact ⟨_, rfl, Figure.liesIn_round hw hh hhalfw.1 hhalfh.1 (Int.le_refl _) (Int.le_refl _)⟩
  | fillTriangle | drawTriangle => exact ⟨_, rfl, Figure.liesIn_triangle hw hh⟩
  | drawLine | drawFastHLine | drawFastVLine =>
      refine ⟨_, rfl, Figure.liesIn_stroke hw hh ?_⟩
      simp only [Box.Contains, Box.right, Box.bottom]
      omega
  | drawPixel => exact ⟨_, rfl, Figure.liesIn_spot (Box.contains_corner hw hh)⟩
  | fillScreen => exact ⟨_, rfl, List.forall_mem_nil _, List.forall_mem_nil _⟩
  | drawString | drawCentreString => exact absurd htext.symm Bool.false_ne_true
  | pushImage => exact absurd rfl himage

end

/-! ### Elements -/

/-- The numbers of an element are what its rules say, and computing them with signed words of
    64 bits gives the same, since nothing that comes up on the way is out of their range. The
    size of a text is at least 1. -/
structure Element.ComputedExactly (symbols : AssetSymbols) (cornerRadius : UInt32) (e : Element) :
    Prop where
  numbers : (e.calls symbols cornerRadius.toNat).flatMap Call.numbers
    = (e.rules symbols cornerRadius.toNat).map (·.value e.box)
  words : ∀ rule ∈ e.rules symbols cornerRadius.toNat, (rule.word e).toInt = rule.value e.box
  inRange : ∀ rule ∈ e.rules symbols cornerRadius.toNat,
    ∀ part ∈ rule.parts, Formula.IsWord (part.value e.box)
  sized : ∀ c ∈ e.calls symbols cornerRadius.toNat, c.callee = "tft.setTextSize" →
    ∃ n, 1 ≤ n ∧ c.arguments = [.number n]

/-- All that an element draws lies in its box. -/
def Element.Enclosed (symbols : AssetSymbols) (cornerRadius : UInt32) (e : Element) : Prop :=
  ∀ c ∈ e.calls symbols cornerRadius.toNat, ∃ f, c.figure? = some f ∧ f.LiesIn e.box

/-- The rules of corners are the only ones that a setting has a part in. -/
theorem Primitive.rules_eq {p : Primitive} (hfill : p ≠ .fillRoundRect) (hdraw : p ≠ .drawRoundRect)
    (cornerRadius : Nat) : p.rules cornerRadius = p.rules 0 := by
  cases p with
  | fillRoundRect => exact absurd rfl hfill
  | drawRoundRect => exact absurd rfl hdraw
  | _ => rfl

/-- Every rule stays far below the limit. The greatest numbers are the far edges, which are
    sums of two 32-bit numbers, and the radius of corners, which is a setting. -/
theorem Primitive.magnitude_le (p : Primitive) {cornerRadius : Nat} (h : cornerRadius < 2 ^ 32) :
    ∀ rule ∈ p.rules cornerRadius, rule.magnitude ≤ 2 ^ 32 := by
  have hfixed : ∀ p ∈ Primitive.all, ∀ rule ∈ p.rules 0, rule.magnitude ≤ 2 ^ 32 := by
    decide
  have hround : ∀ rule ∈ [Formula.x, .y, .w, .h, .constant cornerRadius],
      rule.magnitude ≤ 2 ^ 32 := by
    have hplain : ∀ rule ∈ [Formula.x, .y, .w, .h], rule.magnitude ≤ 2 ^ 32 := by
      decide
    have hcorner : (Formula.constant cornerRadius).magnitude ≤ 2 ^ 32 := Nat.le_of_lt h
    exact List.forall_mem_append.mpr ⟨hplain, List.forall_mem_singleton.mpr hcorner⟩
  by_cases hfill : p = .fillRoundRect
  · rw [hfill]
    exact hround
  by_cases hdraw : p = .drawRoundRect
  · rw [hdraw]
    exact hround
  rw [Primitive.rules_eq hfill hdraw]
  exact hfixed p p.mem_all

theorem Element.magnitude_imageRules (symbols : AssetSymbols) (e : Element) :
    ∀ rule ∈ e.imageRules symbols, rule.magnitude ≤ 2 ^ 32 := by
  unfold imageRules
  split
  · split
    · decide
    · decide
  · decide

theorem Element.magnitude_rules (symbols : AssetSymbols) (cornerRadius : UInt32) (e : Element) :
    ∀ rule ∈ e.rules symbols cornerRadius.toNat, rule.magnitude < 2 ^ 63 := by
  intro rule hrule
  have hle : rule.magnitude ≤ 2 ^ 32 := by
    rw [rules] at hrule
    split at hrule
    · exact e.magnitude_imageRules symbols rule hrule
    · exact e.kind.magnitude_le cornerRadius.toNat_lt rule hrule
  omega

/-- Only texts set a size, and the size that they set is at least 1. -/
theorem Element.sized_calls (symbols : AssetSymbols) (cornerRadius : Nat) (e : Element) :
    ∀ c ∈ e.calls symbols cornerRadius, c.callee = "tft.setTextSize" →
      ∃ n, 1 ≤ n ∧ c.arguments = [.number n] := by
  have htag : ∀ p : Primitive, "tft." ++ p.tag ≠ "tft.setTextSize" := by
    intro p
    cases p <;> decide
  have himage : ∀ asset symbol, (imageCall asset symbol e.box).callee ≠ "tft.setTextSize" := by
    intro asset symbol
    unfold imageCall
    split
    · exact (by decide : "tft.pushImage" ≠ "tft.setTextSize")
    · exact (by decide : "TJpgDec.drawFsJpg" ≠ "tft.setTextSize")
  have hcolor : "tft.setTextColor" ≠ "tft.setTextSize" := by
    decide
  refine forall_calls symbols cornerRadius (fun asset symbol h => ?_) (fun h => ?_) (fun _ => ?_)
    (fun _ h => ?_) (fun _ _ h => ?_)
  · exact absurd h (himage asset symbol)
  · exact absurd h hcolor
  · exact ⟨e.box.textSize, Int.le_max_right _ _, rfl⟩
  · exact absurd h (htag e.kind)
  · exact absurd h (htag e.kind)

theorem Element.computedExactly (symbols : AssetSymbols) (cornerRadius : UInt32) (e : Element) :
    e.ComputedExactly symbols cornerRadius where
  numbers := e.numbers_calls symbols cornerRadius.toNat
  words rule hrule := Formula.toInt_word e (e.magnitude_rules symbols cornerRadius rule hrule)
  inRange rule hrule := Formula.isWord_parts e (e.magnitude_rules symbols cornerRadius rule hrule)
  sized := e.sized_calls symbols cornerRadius.toNat

theorem Element.liesIn_image {e : Element} (hw : 0 ≤ e.box.w) (hh : 0 ≤ e.box.h) (asset : Asset)
    (symbol : String) : ∃ f, (imageCall asset symbol e.box).figure? = some f ∧ f.LiesIn e.box := by
  unfold imageCall
  split
  · exact ⟨_, rfl, Figure.liesIn_area hw hh⟩
  · exact ⟨_, rfl, Figure.liesIn_spot (Box.contains_corner hw hh)⟩

theorem Primitive.eq_of_isText {p : Primitive} (h : p.isText = true) :
    p = .drawString ∨ p = .drawCentreString := by
  cases p with
  | drawString => exact Or.inl rfl
  | drawCentreString => exact Or.inr rfl
  | _ => exact absurd h Bool.false_ne_true

theorem Element.liesIn_text {e : Element} (hw : 0 ≤ e.box.w) (hh : 0 ≤ e.box.h)
    (h : e.kind.isText = true) : ∃ f, e.textCall.figure? = some f ∧ f.LiesIn e.box := by
  have hfigure : e.textCall.figure? = e.kind.figure? e.textCall.numbers :=
    Primitive.figure?_panelCall e.kind _
  rw [hfigure, numbers_textCall, placeNumbers]
  rcases Primitive.eq_of_isText h with hkind | hkind
  · rw [hkind]
    exact ⟨_, rfl, Figure.liesIn_spot (Box.contains_corner hw hh)⟩
  · rw [hkind]
    exact ⟨_, rfl, Figure.liesIn_spot (Box.contains_top hw hh)⟩

theorem Element.enclosed (symbols : AssetSymbols) (cornerRadius : UInt32) {e : Element}
    (hw : 0 ≤ e.box.w) (hh : 0 ≤ e.box.h) : e.Enclosed symbols cornerRadius := by
  have hstyle : ∀ (name : String) (arguments : List Argument), "tft." ++ name ∈ styleCallees →
      ∃ f, (panelCall name arguments).figure? = some f ∧ f.LiesIn e.box := by
    intro name arguments h
    exact ⟨{}, Call.figure?_style h arguments, List.forall_mem_nil _, List.forall_mem_nil _⟩
  refine forall_calls symbols cornerRadius.toNat (liesIn_image hw hh) (hstyle _ _ (by decide))
    (hstyle _ _ (by decide)) (liesIn_text hw hh) fun himage htext => ?_
  have hfigure : (e.plainCall cornerRadius.toNat).figure?
      = e.kind.figure? (e.plainCall cornerRadius.toNat).numbers :=
    Primitive.figure?_panelCall e.kind _
  rw [hfigure, numbers_plainCall]
  exact Primitive.liesIn_figure hw hh himage htext cornerRadius.toNat

/-- Every element is computed exactly, and if its box is not turned inside out, all that it
    draws lies in the box. -/
theorem Element.geometry (symbols : AssetSymbols) (cornerRadius : UInt32) (e : Element) :
    e.ComputedExactly symbols cornerRadius
      ∧ (0 ≤ e.w → 0 ≤ e.h → e.Enclosed symbols cornerRadius) := by
  refine ⟨e.computedExactly symbols cornerRadius, fun hw hh => ?_⟩
  exact enclosed symbols cornerRadius (Int32.le_iff_toInt_le.mp hw) (Int32.le_iff_toInt_le.mp hh)

/-- A circle in a box of odd sizes whose centre no 32-bit number can hold. -/
theorem Element.geometry_far_circle :
    let e : Element := { kind := .fillCircle, x := 2147483647, y := -2147483648, w := 7, h := 5 }
    (e.calls (.ofAssets []) 8).flatMap Call.numbers = [2147483650, -2147483646, 2]
      ∧ 0 ≤ e.w ∧ 0 ≤ e.h ∧ e.ComputedExactly (.ofAssets []) 8 ∧ e.Enclosed (.ofAssets []) 8 := by
  intro e
  have hw : 0 ≤ e.w := by decide
  have hh : 0 ≤ e.h := by decide
  rcases Element.geometry (.ofAssets []) 8 e with ⟨hexact, hlies⟩
  exact ⟨by decide, hw, hh, hexact, hlies hw hh⟩

/-! ### Texts -/

/-- The numbers of an element as they are written: what its rules come to in words of 64
    bits, in decimals. -/
def Element.decimals (symbols : AssetSymbols) (cornerRadius : UInt32) (e : Element) :
    List String :=
  (e.rules symbols cornerRadius.toNat).map fun rule => (rule.word e).toInt.repr

/-- The text of an element holds its decimals between the parentheses of its call. The size
    of a text is set by a call of its own. -/
structure Element.Written (symbols : AssetSymbols) (cornerRadius : UInt32) (e : Element) :
    Prop where
  plain : e.kind ≠ .pushImage → e.kind.isText = false →
    (e.lines symbols cornerRadius.toNat).map Line.render
      = ["    tft." ++ e.kind.tag ++ "("
        ++ ", ".intercalate (e.decimals symbols cornerRadius ++ [e.paint.code]) ++ ");"]
  text : e.kind.isText = true → ∃ size place, e.decimals symbols cornerRadius = size :: place
    ∧ (e.lines symbols cornerRadius.toNat).map Line.render
      = ["    tft.setTextColor(" ++ e.paint.code ++ "); tft.setTextSize(" ++ size ++ ");",
        "    tft." ++ e.kind.tag ++ "("
          ++ ", ".intercalate (("\"" ++ Text.escape e.name ++ "\"") :: place) ++ ");"]
  image : e.kind = .pushImage → ∀ asset symbol,
    (reference? e.asset).bind symbols.resolve? = some (asset, symbol) →
    (e.lines symbols cornerRadius.toNat).map Line.render
      = [match asset.storage with
        | .flash => "    tft.pushImage("
          ++ ", ".intercalate (e.decimals symbols cornerRadius ++ [symbol]) ++ ");"
        | .littleFs => "    TJpgDec.drawFsJpg("
          ++ ", ".intercalate (e.decimals symbols cornerRadius
            ++ ["\"/" ++ symbol ++ ".jpg\"", "LittleFS"]) ++ ");"]

theorem Element.decimals_eq (symbols : AssetSymbols) (cornerRadius : UInt32) (e : Element) :
    e.decimals symbols cornerRadius
      = ((e.rules symbols cornerRadius.toNat).map (·.value e.box)).map Int.repr := by
  rw [decimals, List.map_map]
  refine List.map_congr_left fun rule hrule => ?_
  rw [(e.computedExactly symbols cornerRadius).words rule hrule]
  rfl

/-- The colour and the size of a text on one line. -/
theorem Element.render_style (e : Element) :
    (Line.calls [panelCall "setTextColor" [.color e.paint],
      panelCall "setTextSize" [.number e.box.textSize]]).render
      = "    tft.setTextColor(" ++ e.paint.code ++ "); tft.setTextSize(" ++ e.box.textSize.repr
        ++ ");" := by
  have hcolor : "    tft.setTextColor(" = indent ++ ("tft." ++ ("setTextColor" ++ "(")) := by decide
  have hsize : "); tft.setTextSize(" = ");" ++ (" " ++ ("tft." ++ ("setTextSize" ++ "("))) := by
    decide
  rw [hcolor, hsize]
  simp only [Line.render, List.map_cons, List.map_nil, String.intercalate_cons_cons,
    String.intercalate_singleton, Call.render, panelCall, Argument.render, String.append_assoc]

theorem map_render_number (ns : List Int) :
    (ns.map Argument.number).map Argument.render = ns.map Int.repr := by
  rw [List.map_map]
  rfl

/-- The numbers of an element stand in its text. -/
theorem Element.written (symbols : AssetSymbols) (cornerRadius : UInt32) (e : Element) :
    e.Written symbols cornerRadius := by
  constructor
  case plain =>
    intro himage htext
    have hlines : e.lines symbols cornerRadius.toNat
        = [.calls [e.plainCall cornerRadius.toNat]] := by
      rcases e with ⟨_, kind⟩
      cases kind with
      | pushImage => exact absurd rfl himage
      | drawString | drawCentreString => exact absurd htext.symm Bool.false_ne_true
      | _ => rfl
    rw [hlines, List.map_singleton, plainCall, render_panelCall, decimals_eq, rules,
      if_neg himage, ← Primitive.numbers_eq htext, List.map_append, map_render_number]
    rfl
  case text =>
    intro htext
    have himage : e.kind ≠ .pushImage := by
      intro hkind
      rw [hkind] at htext
      exact Bool.false_ne_true htext
    have hlines : e.lines symbols cornerRadius.toNat
        = [.calls [panelCall "setTextColor" [.color e.paint],
            panelCall "setTextSize" [.number e.box.textSize]], .calls [e.textCall]] := by
      rcases e with ⟨_, kind⟩
      cases kind with
      | drawString | drawCentreString => rfl
      | _ => exact absurd htext Bool.false_ne_true
    refine ⟨e.box.textSize.repr, e.placeNumbers.map Int.repr, ?_, ?_⟩
    · rw [decimals_eq, rules, if_neg himage, ← numbers_text htext, List.map_cons]
    · rw [hlines, List.map_cons, List.map_singleton, textCall, render_panelCall, List.map_cons,
        map_render_number, render_style]
      rfl
  case image =>
    intro hkind asset symbol hfound
    have hlines : e.lines symbols cornerRadius.toNat
        = [.calls [imageCall asset symbol e.box]] := by
      rcases Option.bind_eq_some_iff.mp hfound with ⟨name, hname, hresolve⟩
      simp only [lines, hkind, imageLine, hname, hresolve]
    have hrules : e.rules symbols cornerRadius.toNat = match asset.storage with
        | .flash => [.x, .y, .w, .h]
        | .littleFs => [.x, .y] := by
      rw [rules, if_pos hkind, imageRules, hfound]
    rw [hlines, List.map_singleton, decimals_eq, hrules]
    unfold imageCall
    cases asset.storage with
    | flash =>
        rw [render_panelCall]
        rfl
    | littleFs =>
        have hstem : "    TJpgDec.drawFsJpg(" = indent ++ "TJpgDec.drawFsJpg" ++ "(" := by decide
        have hending : ".jpg\"" = imageEnding ++ "\"" := by decide
        have hfile : "\"/" ++ symbol ++ ".jpg\"" = (Argument.imageFile symbol).render := by
          rw [hending, ← String.append_assoc, Argument.render]
        rw [Line.render_call]
        simp only [hstem, hfile]
        rfl

end PanelSketch
