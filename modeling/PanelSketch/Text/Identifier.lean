/-!
# Identifiers

Screens and assets carry labels that people choose, and both labels end up as
names in a generated program. `identifier` turns any label into a name that a
C++ compiler accepts: a run of characters that may not stand in a name becomes
one underscore, underscores at the end go, and a digit at the front is kept
behind an extra `a`. A leading underscore stays, because it may be the trace of
a run in front of a digit, which already makes the name start well.

Two labels can lead to the same name, so names are handed out against the ones
already in use. `freshName` takes the used names as a list and looks for the
first free one among as many numbered candidates as there are used names: by
counting, one of them has to be free.

## Main definitions

* `isWordChar`: The characters that may stand in a name.
* `identifier`: The name a label leads to.
* `numbered`: A name with a running number.
* `freshName`: The first free name among a base and its numbered forms.

## Theorems

* `isWordChar_of_mem_joinRuns`: Joining runs leaves only name characters.
* `freshName_of_not_mem`: A free base is kept.
-/

namespace PanelSketch.Text

/-- Whether a character may stand in a name: an ASCII letter or digit, or an
    underscore. -/
def isWordChar (c : Char) : Bool :=
  c.isAlphanum || c == '_'

/-- Replace every run of characters that may not stand in a name by one
    underscore; the flag says whether such a run has already been replaced. -/
def joinRuns : Bool → List Char → List Char
  | _, [] => []
  | inRun, c :: cs =>
    if isWordChar c then c :: joinRuns false cs
    else if inRun then joinRuns true cs
    else '_' :: joinRuns true cs

/-- The characters left when the underscores at the end are dropped. -/
def dropTrailingUnderscores (cs : List Char) : List Char :=
  (cs.reverse.dropWhile (· == '_')).reverse

/-- Put an `a` in front of a leading digit. -/
def guardDigit : List Char → List Char
  | [] => []
  | c :: cs => if c.isDigit then 'a' :: c :: cs else c :: cs

/-- The name a label leads to; `fallback` stands in when the label has nothing
    that may stand in a name. -/
def identifierChars (label fallback : List Char) : List Char :=
  let kept := dropTrailingUnderscores (joinRuns false label)
  guardDigit (if kept.isEmpty then fallback else kept)

/-- The name a label leads to. -/
def identifier (label fallback : String) : String :=
  String.ofList (identifierChars label.toList fallback.toList)

/-- A name with a running number behind an underscore. -/
def numbered (base : String) (k : Nat) : String :=
  base ++ "_" ++ k.repr

/-- The base itself when it is free, else its numbered form with the least
    number from 1 on that is free. -/
def freshName (base : String) (taken : List String) : String :=
  if base ∈ taken then
    -- The base is in use, so one of as many candidates as there are names in use is free.
    let free := (List.range' 1 taken.length).find? fun k => numbered base k ∉ taken
    numbered base (free.getD taken.length)
  else base

theorem isWordChar_of_mem_joinRuns {c : Char} {cs : List Char} (inRun : Bool)
    (h : c ∈ joinRuns inRun cs) : isWordChar c = true := by
  induction cs generalizing inRun with
  | nil => simp [joinRuns] at h
  | cons d ds ih =>
    unfold joinRuns at h
    split at h
    · rename_i hd
      rcases List.mem_cons.1 h with rfl | h
      · exact hd
      · exact ih _ h
    · split at h
      · exact ih _ h
      · rcases List.mem_cons.1 h with rfl | h
        · decide
        · exact ih _ h

theorem freshName_of_not_mem {base : String} {taken : List String} (h : base ∉ taken) :
    freshName base taken = base := by
  rw [freshName, if_neg h]

end PanelSketch.Text
