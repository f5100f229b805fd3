/-!
# Dates and Times

A moment is a date, a time of day, or a date with a time of day and perhaps an
offset from universal time. Every part has a fixed number of digits, which is
why a moment can be checked and brought to its normal form without computing
with it: the letters become capitals, a fraction of a second keeps nine digits
and loses the zeros at its end, and there is only one offset of nothing.

A moment in a document is held to the hours that a day has. A moment that is
given as a text is read with more latitude, and only the sum of an offset is
held to a day.

## Main definitions

* `Moment.Bounds`: How far hours and offsets may go.
* `Moment.date?`, `Moment.time?`, `Moment.offset?`: The parts of a moment, in
  normal form and with the rest of the text.
* `Moment.ofText?`: The normal form of a moment.
-/

namespace PanelSketch.Toml.Moment

/-- A part of a moment and the rest of the text. -/
abbrev Part := Option (List Char × List Char)

/-- The value of two digits, if it lies between two bounds. -/
def pair? (least greatest : Nat) (a b : Char) : Option Nat :=
  if a.isDigit && b.isDigit then
    some (Nat.ofDigitChars 10 [a, b] 0) |>.filter fun n => least ≤ n && n ≤ greatest
  else none

/-- The days of a month. -/
def daysOf (year month : Nat) : Nat :=
  if month = 2 then
    if year % 4 = 0 ∧ (year % 100 ≠ 0 ∨ year % 400 = 0) then 29 else 28
  else if month = 4 ∨ month = 6 ∨ month = 9 ∨ month = 11 then 30
  else 31

/-- A date: year, month and day. -/
def date? : List Char → Part
  | y₁ :: y₂ :: y₃ :: y₄ :: '-' :: m₁ :: m₂ :: '-' :: d₁ :: d₂ :: rest => do
    let century ← pair? 0 99 y₁ y₂
    let year ← pair? 0 99 y₃ y₄
    let month ← pair? 1 12 m₁ m₂
    let _ ← pair? 1 (daysOf (century * 100 + year) month) d₁ d₂
    return ([y₁, y₂, y₃, y₄, '-', m₁, m₂, '-', d₁, d₂], rest)
  | _ => none

/-- How far the numbers of a moment may go. -/
structure Bounds where
  lastHour : Nat
  lastOffsetHour : Nat
  lastOffsetMinute : Nat
  deriving DecidableEq, Repr

/-- The bounds of a moment in a document. -/
def Bounds.strict : Bounds := ⟨23, 23, 59⟩

/-- The bounds of a moment that is given as a text. -/
def Bounds.wide : Bounds := ⟨24, 99, 99⟩

/-- A fraction of a second behind its point. -/
def fraction? (cs : List Char) : Part :=
  let digits := cs.takeWhile Char.isDigit
  let kept := ((digits.take 9).reverse.dropWhile (· == '0')).reverse
  if digits = [] then none
  else some (if kept = [] then [] else '.' :: kept, cs.dropWhile Char.isDigit)

/-- A time of day: hours, minutes and seconds, which may be a leap second. -/
def time? (bounds : Bounds) : List Char → Part
  | h₁ :: h₂ :: ':' :: m₁ :: m₂ :: ':' :: s₁ :: s₂ :: rest => do
    let _ ← pair? 0 bounds.lastHour h₁ h₂
    let _ ← pair? 0 59 m₁ m₂
    let _ ← pair? 0 60 s₁ s₂
    let (fraction, rest) ← match rest with
      | '.' :: rest => fraction? rest
      | rest => some ([], rest)
    return ([h₁, h₂, ':', m₁, m₂, ':', s₁, s₂] ++ fraction, rest)
  | _ => none

/-- The two digits of a small number. -/
def twoDigits (n : Nat) : List Char :=
  [Nat.digitChar (n / 10), Nat.digitChar (n % 10)]

/-- An offset from universal time, of a day at the most, or nothing. -/
def offset? (bounds : Bounds) : List Char → Part
  | 'Z' :: rest | 'z' :: rest => some (['Z'], rest)
  | sign :: h₁ :: h₂ :: ':' :: m₁ :: m₂ :: rest => do
    if sign ≠ '+' ∧ sign ≠ '-' then none
    let hours ← pair? 0 bounds.lastOffsetHour h₁ h₂
    let minutes ← pair? 0 bounds.lastOffsetMinute m₁ m₂
    let total := hours * 60 + minutes
    if 24 * 60 < total then none
    let sign := if total = 0 then '+' else sign
    return (sign :: twoDigits (total / 60) ++ ':' :: twoDigits (total % 60), rest)
  | rest => some ([], rest)

/-- The time of day and offset behind the mark that separates them from a
    date. -/
def clock? (bounds : Bounds) (cs : List Char) : Option (List Char) := do
  let (time, rest) ← time? bounds cs
  let (offset, rest) ← offset? bounds rest
  if rest = [] then some (time ++ offset) else none

/-- The normal form of a moment. -/
def ofText? (bounds : Bounds) (cs : List Char) : Option String :=
  match date? cs with
  | some (date, []) => some (String.ofList date)
  | some (date, mark :: rest) =>
    if mark = 'T' ∨ mark = 't' ∨ mark = ' ' then
      (clock? bounds rest).map fun clock => String.ofList (date ++ 'T' :: clock)
    else none
  | none =>
    match time? bounds cs with
    | some (time, []) => some (String.ofList time)
    | _ => none

end PanelSketch.Toml.Moment
