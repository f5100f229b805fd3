import Mathlib.Algebra.Ring.Int.Defs
import Mathlib.Algebra.Ring.Nat
import PanelSketch.Sketch.Drawing

/-!
# Formulas

The numbers of a statement are computed from the box of its element: centres, radii, far edges
and the size of a text. A formula says how such a number comes about and not only what it is.
It can be read in two ways. Its exact value is a matter of integers, and a machine computes it
with signed words of 64 bits, which go round at their limits.

The two agree for all formulas that are not too large. The magnitude of a formula bounds its
value in every box, whatever the 32-bit numbers of the box are, and it bounds the values of all
its parts on the way. So below the limit of a word nothing that comes up can go round.

## Main definitions

* `Formula`: How a number comes about.
* `Formula.value`, `Formula.word`: Its exact value, and what a machine computes.
* `Formula.parts`, `Formula.magnitude`: What is computed on the way, and a bound for it.
* `Formula.centerX`, …, `Formula.textSize`: The numbers of a box that are computed.

## Theorems

* `Formula.natAbs_value_le`: The magnitude is a bound.
* `Formula.isWord_parts`: Below the limit, all that is computed on the way is a word.
* `Formula.toInt_word`: Below the limit, the machine is exact.
-/

namespace PanelSketch

/-- How a number is computed from a box. -/
inductive Formula where
  | x
  | y
  | w
  | h
  | constant (n : Nat)
  | plus (a b : Formula)
  /-- A quotient, cut off toward zero. -/
  | quotient (a b : Formula)
  | least (a b : Formula)
  | greatest (a b : Formula)
  deriving DecidableEq, Repr

namespace Formula

/-- The exact value. -/
def value (b : Box) : Formula → Int
  | x => b.x
  | y => b.y
  | w => b.w
  | h => b.h
  | constant n => n
  | plus f g => f.value b + g.value b
  | quotient f g => (f.value b).tdiv (g.value b)
  | least f g => min (f.value b) (g.value b)
  | greatest f g => max (f.value b) (g.value b)

/-- What is computed for an element with signed words of 64 bits, which go round at their
    limits. -/
def word (e : Element) : Formula → Int64
  | x => e.x.toInt64
  | y => e.y.toInt64
  | w => e.w.toInt64
  | h => e.h.toInt64
  | constant n => Int64.ofNat n
  | plus f g => f.word e + g.word e
  | quotient f g => f.word e / g.word e
  | least f g => min (f.word e) (g.word e)
  | greatest f g => max (f.word e) (g.word e)

/-- The formulas that are computed on the way, and the formula itself. -/
def parts : Formula → List Formula
  | plus f g => plus f g :: (f.parts ++ g.parts)
  | quotient f g => quotient f g :: (f.parts ++ g.parts)
  | least f g => least f g :: (f.parts ++ g.parts)
  | greatest f g => greatest f g :: (f.parts ++ g.parts)
  | f => [f]

/-- A bound for the value in any box. -/
def magnitude : Formula → Nat
  | x | y | w | h => 2 ^ 31
  | constant n => n
  | plus f g => f.magnitude + g.magnitude
  | quotient f g | least f g | greatest f g => max f.magnitude g.magnitude

/-- Whether a number is one of the signed words of 64 bits. -/
def IsWord (n : Int) : Prop :=
  -2 ^ 63 ≤ n ∧ n < 2 ^ 63

theorem natAbs_toInt_le (n : Int32) : n.toInt.natAbs ≤ 2 ^ 31 := by
  have hlow := n.le_toInt
  have hhigh := n.toInt_lt
  omega

theorem natAbs_value_le (e : Element) (f : Formula) : (f.value e.box).natAbs ≤ f.magnitude := by
  induction f with
  | x => exact natAbs_toInt_le e.x
  | y => exact natAbs_toInt_le e.y
  | w => exact natAbs_toInt_le e.w
  | h => exact natAbs_toInt_le e.h
  | constant n => exact Nat.le_of_eq (Int.natAbs_natCast n)
  | plus f g ihf ihg =>
      simp only [value, magnitude]
      omega
  | quotient f g ihf ihg =>
      -- A quotient of integers is never further from zero than what is divided.
      have hquotient := Int.natAbs_tdiv_le_natAbs (f.value e.box) (g.value e.box)
      simp only [value, magnitude]
      omega
  | least f g ihf ihg =>
      simp only [value, magnitude]
      omega
  | greatest f g ihf ihg =>
      simp only [value, magnitude]
      omega

theorem magnitude_le_of_mem_parts {f part : Formula} (h : part ∈ f.parts) :
    part.magnitude ≤ f.magnitude := by
  have hself : ∀ g : Formula, part ∈ [g] → part.magnitude ≤ g.magnitude := by
    intro g hg
    exact Nat.le_of_eq (congrArg magnitude (List.mem_singleton.mp hg))
  induction f with
  | x => exact hself _ h
  | y => exact hself _ h
  | w => exact hself _ h
  | h => exact hself _ h
  | constant n => exact hself _ h
  | plus f g ihf ihg | quotient f g ihf ihg | least f g ihf ihg | greatest f g ihf ihg =>
      rw [parts, List.mem_cons, List.mem_append] at h
      rcases h with rfl | hf | hg
      · exact Nat.le_refl _
      · have hle := ihf hf
        simp only [magnitude]
        omega
      · have hle := ihg hg
        simp only [magnitude]
        omega

/-- Below the limit, every value that comes up is a word. -/
theorem isWord_parts (e : Element) {f : Formula} (hf : f.magnitude < 2 ^ 63) :
    ∀ part ∈ f.parts, IsWord (part.value e.box) := by
  intro part hpart
  have hvalue := natAbs_value_le e part
  have hle := magnitude_le_of_mem_parts hpart
  rw [IsWord]
  omega

theorem bmod_eq_self {n : Int} (h : n.natAbs < 2 ^ 63) : n.bmod (2 ^ 64) = n := by
  refine Int.bmod_eq_of_le ?_ ?_
  · omega
  · omega

/-- Below the limit, the machine is exact. -/
theorem toInt_word (e : Element) {f : Formula} (hf : f.magnitude < 2 ^ 63) :
    (f.word e).toInt = f.value e.box := by
  induction f with
  | x => exact Int32.toInt_toInt64 e.x
  | y => exact Int32.toInt_toInt64 e.y
  | w => exact Int32.toInt_toInt64 e.w
  | h => exact Int32.toInt_toInt64 e.h
  | constant n => exact Int64.toInt_ofNat_of_lt hf
  | plus f g ihf ihg =>
      have hvalue := natAbs_value_le e (plus f g)
      simp only [magnitude] at hf
      simp only [value, magnitude] at hvalue
      rw [word, Int64.toInt_add, ihf (by omega), ihg (by omega), value]
      exact bmod_eq_self (by omega)
  | quotient f g ihf ihg =>
      have hvalue := natAbs_value_le e (quotient f g)
      simp only [magnitude] at hf
      simp only [value, magnitude] at hvalue
      rw [word, Int64.toInt_div, ihf (by omega), ihg (by omega), value]
      exact bmod_eq_self (by omega)
  | least f g ihf ihg =>
      simp only [magnitude] at hf
      have hmin : min (f.word e) (g.word e) = if f.word e ≤ g.word e then f.word e else g.word e :=
        rfl
      rw [word, hmin, value, Int.min_def, ← ihf (by omega), ← ihg (by omega)]
      simp only [Int64.le_iff_toInt_le]
      split
      · rfl
      · rfl
  | greatest f g ihf ihg =>
      simp only [magnitude] at hf
      have hmax : max (f.word e) (g.word e) = if f.word e ≤ g.word e then g.word e else f.word e :=
        rfl
      rw [word, hmax, value, Int.max_def, ← ihf (by omega), ← ihg (by omega)]
      simp only [Int64.le_iff_toInt_le]
      split
      · rfl
      · rfl

/-! ### Numbers of a box -/

/-- The first coordinate of the centre. -/
def centerX : Formula := plus x (quotient w (constant 2))

/-- The second coordinate of the centre. -/
def centerY : Formula := plus y (quotient h (constant 2))

/-- The radius of a circle in the box. -/
def radius : Formula := quotient (least w h) (constant 2)

/-- The right edge. -/
def right : Formula := plus x w

/-- The lower edge. -/
def bottom : Formula := plus y h

/-- The size of a text that fills the height of the box. -/
def textSize : Formula := greatest (constant 1) (quotient h (constant 8))

end Formula

end PanelSketch
