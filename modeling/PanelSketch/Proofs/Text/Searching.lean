import Mathlib.Data.Finset.Card
import Mathlib.Logic.Function.Iterate
import PanelSketch.Proofs.Json.Numeral
import PanelSketch.Proofs.Text.FreshName
import PanelSketch.Text.Numeral

/-!
# Looking for a Free Name

Nothing in a search for a free name says when to stop. A counter starts at one,
the candidate with its number is taken if it is free, and otherwise the counter
goes up, for as long as it takes; and it is a word of 32 bits, which can only go
up so far. This is the loop that `freshName` stands for, one turn after the
other.

It does come to an end. The base and the numbered candidates are all different,
so among as many candidates as there are names in use one is free, and while the
counter is below the least such number it has not run out of words, unless
there are as many names in use as there are words. The candidate found is then
the one of the least free number, which is what `freshName` gives.

Names in use are counted without repetition, since a name that is listed twice
is in the way once.

## Main definitions

* `Search`: Where a search has got to.
* `Search.next`, `Search.after`: One turn, and any number of them.
* `Search.Ends`: A search that is over after some turns.
* `IsNumeral`: The decimal digits of a number, none of them idle.

## Theorems

* `Search.next_trying`: A turn on a candidate that is in use.
* `Search.after_lt_leastFree`: Where the counter is while candidates are in use.
* `exists_leastFree_card`: The least free number is at most the count of names.
* `Search.ends_freshName`: A search for a free name ends at it.
* `freshName_least`: All of it, for every base and every set of names.
-/

namespace PanelSketch.Text

/-- Where a search for a free name has got to. -/
inductive Search where
  /-- The candidate with this number is next. -/
  | trying (k : Int32)
  | found (name : String)
  /-- The counter was to go past the greatest word. -/
  | overflowed
  deriving DecidableEq, Repr

namespace Search

/-- The candidate with the number of a counter. -/
def candidate (base : String) (k : Int32) : String :=
  base ++ "_" ++ k.toInt.repr

/-- A search begins with the base and goes on to the first candidate. -/
def start (base : String) (taken : List String) : Search :=
  if base ∈ taken then .trying 1 else .found base

/-- One turn of a search. -/
def next (base : String) (taken : List String) : Search → Search
  | .trying k =>
    if candidate base k ∉ taken then .found (candidate base k)
    else if k = Int32.maxValue then .overflowed
    else .trying (k + 1)
  | ended => ended

/-- Where a search has got to after a number of turns. -/
def after (base : String) (taken : List String) (turns : Nat) : Search :=
  (next base taken)^[turns] (start base taken)

/-- After this many turns a search is over and has found a name. Before, it goes from one
    candidate to the next, with no word too small for the counter. -/
structure Ends (base : String) (taken : List String) (turns : Nat) (name : String) : Prop where
  trying : ∀ m < turns, ∃ k, after base taken m = .trying k
  found : ∀ m, turns ≤ m → after base taken m = .found name

variable {base : String} {taken : List String}

/-! ### One turn -/

theorem candidate_ofNat {n : Nat} (h : n < 2147483648) :
    candidate base (Int32.ofNat n) = numbered base n := by
  rw [candidate, Int32.toInt_ofNat_of_lt h]
  rfl

/-- The counter goes up on a candidate that is in use, as long as it can. -/
theorem next_trying {n : Nat} (h : n < 2147483647) (hn : numbered base n ∈ taken) :
    next base taken (.trying (Int32.ofNat n)) = .trying (Int32.ofNat (n + 1)) := by
  have hlast : Int32.ofNat n ≠ Int32.maxValue := by
    intro hmax
    have hvalue := congrArg Int32.toInt hmax
    rw [Int32.toInt_ofNat_of_lt (by omega), Int32.toInt_maxValue] at hvalue
    omega
  rw [next, candidate_ofNat (by omega), if_neg (not_not_intro hn), if_neg hlast, Int32.ofNat_add]
  rfl

theorem next_free {n : Nat} (h : n < 2147483648) (hn : numbered base n ∉ taken) :
    next base taken (.trying (Int32.ofNat n)) = .found (numbered base n) := by
  rw [next, candidate_ofNat h, if_pos hn]

/-- A search that has found a name is over. -/
theorem after_of_found {turns : Nat} {name : String} (h : after base taken turns = .found name)
    {m : Nat} (hm : turns ≤ m) : after base taken m = .found name := by
  have hsplit : m = (m - turns) + turns := by omega
  rw [after, hsplit, Function.iterate_add_apply, ← after, h]
  exact Function.iterate_fixed rfl (m - turns)

/-! ### A whole search -/

/-- As long as the candidates are in use, the counter is one ahead of the turns. -/
theorem after_lt_leastFree {k : Nat} (hbase : base ∈ taken) (hk : IsLeastFree base taken k)
    (hword : k ≤ 2147483647) {m : Nat} (hm : m < k) :
    after base taken m = .trying (Int32.ofNat (m + 1)) := by
  induction m with
  | zero =>
      rw [after, Function.iterate_zero_apply, start, if_pos hbase]
      rfl
  | succ m ih =>
      have htaken : numbered base (m + 1) ∈ taken := hk.2.2 (m + 1) (by omega) hm
      rw [after, Function.iterate_succ_apply', ← after, ih (by omega)]
      exact next_trying (by omega) htaken

theorem ends_of_not_mem (h : base ∉ taken) : Ends base taken 0 base where
  trying m hm := absurd hm (Nat.not_lt_zero m)
  found m hm := after_of_found (by rw [after, Function.iterate_zero_apply, start, if_neg h]) hm

theorem ends_of_leastFree {k : Nat} (hbase : base ∈ taken) (hk : IsLeastFree base taken k)
    (hword : k ≤ 2147483647) : Ends base taken k (numbered base k) where
  trying m hm := ⟨_, after_lt_leastFree hbase hk hword hm⟩
  found m hm := by
    refine after_of_found ?_ hm
    -- The last turn is made on the candidate that is free.
    have hlast : k = (k - 1) + 1 := by have := hk.1; omega
    have hturn := after_lt_leastFree hbase hk hword (m := k - 1) (by omega)
    rw [← hlast] at hturn
    rw [after, hlast, Function.iterate_succ_apply', ← after, hturn, ← hlast]
    exact next_free (by omega) hk.2.1

end Search

/-! ### The name found -/

/-- The decimal digits of a number, none of them idle. -/
def IsNumeral (digits : List Char) (n : Nat) : Prop :=
  natural? digits = some n ∧ digits.head? ≠ some '0'

theorem isNumeral_repr {n : Nat} (h : 0 < n) : IsNumeral n.repr.toList n := by
  refine ⟨natural?_repr n, ?_⟩
  rw [Nat.toList_repr]
  exact Json.head?_toDigits h

/-- The least free number is at most the count of names, each of them counted once. -/
theorem exists_leastFree_card {base : String} {taken : List String} (h : base ∈ taken) :
    ∃ k, k ≤ taken.toFinset.card ∧ IsLeastFree base taken k := by
  rcases exists_leastFree (List.mem_dedup.mpr h) with ⟨k, hle, hk⟩
  rw [← List.card_toFinset] at hle
  -- Being free is being in no list of the names.
  exact ⟨k, hle, hk.1, fun hmem => hk.2.1 (List.mem_dedup.mpr hmem),
    fun j hj hlt => List.mem_dedup.mp (hk.2.2 j hj hlt)⟩

/-- A search ends at the free name after as many turns as there are names at most. -/
theorem Search.ends_freshName (base : String) {taken : List String}
    (hsize : taken.toFinset.card < 2147483647) :
    ∃ turns ≤ taken.toFinset.card, Search.Ends base taken turns (freshName base taken) := by
  by_cases h : base ∈ taken
  · rcases exists_leastFree_card h with ⟨k, hle, hk⟩
    rw [freshName_eq_numbered h hk]
    exact ⟨k, hle, Search.ends_of_leastFree h hk (by omega)⟩
  · rw [freshName_of_not_mem h]
    exact ⟨0, Nat.zero_le _, Search.ends_of_not_mem h⟩

/-- The search for a free name ends, and finds the base if it is free and otherwise the candidate
    with the least free number. -/
theorem freshName_least (base : String) {taken : List String}
    (hsize : taken.toFinset.card < 2147483647) :
    (∃ turns ≤ taken.toFinset.card, Search.Ends base taken turns (freshName base taken))
      ∧ (base ∉ taken → freshName base taken = base)
      ∧ (base ∈ taken → ∃ (k : Nat) (digits : String), freshName base taken = base ++ "_" ++ digits
        ∧ IsNumeral digits.toList k ∧ IsLeastFree base taken k ∧ k ≤ taken.toFinset.card)
      ∧ freshName base taken ∉ taken := by
  refine ⟨Search.ends_freshName base hsize, freshName_of_not_mem, fun h => ?_,
    freshName_not_mem base taken⟩
  rcases exists_leastFree_card h with ⟨k, hle, hk⟩
  exact ⟨k, k.repr, freshName_eq_numbered h hk, isNumeral_repr hk.1, hk, hle⟩

/-- Three names are in use, one of them listed twice and one with a gap in front of it. -/
theorem freshName_least_gap :
    let taken := ["icon", "icon_1", "icon", "icon_3"]
    taken.toFinset.card < 2147483647
      ∧ ∃ turns ≤ taken.toFinset.card, Search.Ends "icon" taken turns "icon_2" := by
  intro taken
  have hsize : taken.toFinset.card < 2147483647 := by decide +kernel
  have hname : freshName "icon" taken = "icon_2" := by decide +kernel
  have hleast := freshName_least "icon" hsize
  rw [hname] at hleast
  exact ⟨hsize, hleast.1⟩

end PanelSketch.Text
