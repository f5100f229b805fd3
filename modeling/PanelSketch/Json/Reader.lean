import PanelSketch.Json.Lexeme

/-!
# Reading JSON

How lists, objects and whole values are put together from lexemes.

Lists and objects are read by one loop. A question decides whether another item
or member follows, and a step reads it into a state; the loop ends when the
question is answered with no. Every step takes at least one character, so a
loop can take as many turns as characters are left, and one more to ask the
last question.

A value can be read or passed over. Reading builds the value and refuses to go
deeper than a fixed number of levels. Passing over forgets it, goes to any
depth, and asks simpler questions behind a comma, which is why a comma too many
is reported in other words.

## Main definitions

* `moreItems`, `moreMembers`, `colon`, `endList`, `endObject`: Punctuation.
* `loop`: The loop of lists and objects.
* `value`: A value within a number of levels.
* `pass`: A value passed over.
* `document`: A reader run on a whole text.
-/

namespace PanelSketch.Json

/-- How many levels of lists and objects a value that is read may have. -/
def depthLimit : Nat := 127

/-! ### Punctuation -/

/-- Whether another item of a list follows. -/
def moreItems (first : Bool) : Reader Bool := do
  match ← next? with
  | none => fail .endInList
  | some ']' => return false
  | some c =>
    if first then return true
    else if c = ',' then
      advance
      match ← next? with
      | none => fail .endInValue
      | some ']' => fail .trailingComma
      | some _ => return true
    else fail .expectedItemEnd

/-- Whether another member of an object follows; if so, its quote is next. -/
def moreMembers (first : Bool) : Reader Bool := do
  match ← next? with
  | none => fail .endInObject
  | some '\x7d' => return false
  | some c =>
    if first then
      if c = '"' then return true else fail .expectedKey
    else if c = ',' then
      advance
      match ← next? with
      | none => fail .endInValue
      | some '"' => return true
      | some '\x7d' => fail .trailingComma
      | some _ => fail .expectedKey
    else fail .expectedMemberEnd

/-- Whether another item follows in a list that is passed over. -/
def passMoreItems (first : Bool) : Reader Bool := do
  match ← next? with
  | none => fail .endInList
  | some ']' => return false
  | some c =>
    if first then return true
    else if c = ',' then
      advance
      return true
    else fail .expectedItemEnd

/-- Whether another member follows in an object that is passed over. -/
def passMoreMembers (first : Bool) : Reader Bool := do
  match ← next? with
  | none => fail .endInObject
  | some '\x7d' => return false
  | some c =>
    if c = ',' ∧ ¬ first then advance
    else if ¬ first then fail .expectedMemberEnd
    match ← next? with
    | none => fail .endInObject
    | some '"' => return true
    | some _ => fail .expectedKey

/-- The colon between a key and its value. -/
def colon : Reader Unit := do
  match ← next? with
  | none => fail .endInObject
  | some ':' => advance
  | some _ => fail .expectedColon

/-- The end of a list of which nothing more is wanted. -/
def endList : Reader Unit := do
  match ← next? with
  | none => fail .endInList
  | some ']' => advance
  | some ',' =>
    advance
    match ← next? with
    | some ']' => fail .trailingComma
    | _ => fail .trailingText
  | some _ => fail .trailingText

/-- The end of an object of which nothing more is wanted. -/
def endObject : Reader Unit := do
  match ← next? with
  | none => fail .endInObject
  | some '\x7d' => advance
  | some ',' => fail .trailingComma
  | some _ => fail .trailingText

/-- Take turns while a question is answered with yes, `count` turns at the
    most. The question is told whether it is asked for the first time. -/
def loopFor {σ : Type} (more : Bool → Reader Bool) (step : σ → Reader σ) :
    Nat → Bool → σ → Reader σ
  | 0, _, s => return s
  | count + 1, first, s => do
    if ← more first then loopFor more step count false (← step s) else return s

/-- Take turns while a question is answered with yes. -/
def loop {σ : Type} (more : Bool → Reader Bool) (step : σ → Reader σ) (s : σ) : Reader σ := do
  -- Every turn takes a character at least, so there are no more turns than that.
  loopFor more step ((← get).length + 1) true s

/-! ### Values -/

/-- Read a key behind its opening quote. -/
def readKey : Reader String := do
  advance
  readText

/-- Read a value whose items and members are read by `inside`, or may not occur
    when that is absent. -/
def valueWith (inside? : Option (Reader Value)) : Reader Value := do
  match ← next? with
  | none => fail .endInValue
  | some 'n' => do
    word ['n', 'u', 'l', 'l']
    return .null
  | some 't' => do
    word ['t', 'r', 'u', 'e']
    return .boolean true
  | some 'f' => do
    word ['f', 'a', 'l', 's', 'e']
    return .boolean false
  | some '"' => do
    advance
    return .text (← readText)
  | some '[' =>
    match inside? with
    | none => fail .tooDeep
    | some inside => do
      advance
      let items ← loop moreItems (fun items => return (← inside) :: items) []
      endList
      return .list items.reverse
  | some '\x7b' =>
    match inside? with
    | none => fail .tooDeep
    | some inside => do
      advance
      let members ← loop moreMembers (fun members => do
        let key ← readKey
        colon
        return (key, ← inside) :: members) []
      endObject
      return .object members.reverse
  | some c =>
    if c = '-' ∨ c.isDigit then return .number (← readNumber) else fail .expectedValue

/-- Read a value of at most so many levels. -/
def value : Nat → Reader Value
  | 0 => valueWith none
  | levels + 1 => valueWith (some (value levels))

/-- Pass over a value whose items and members are passed over by `inside`. -/
def passWith (inside : Reader Unit) : Reader Unit := do
  match ← next? with
  | none => fail .endInValue
  | some 'n' => word ['n', 'u', 'l', 'l']
  | some 't' => word ['t', 'r', 'u', 'e']
  | some 'f' => word ['f', 'a', 'l', 's', 'e']
  | some '"' => do
    advance
    passText
  | some '[' => do
    advance
    loop passMoreItems (fun _ => inside) ()
    advance
  | some '\x7b' => do
    advance
    loop passMoreMembers (fun _ => do
      advance
      passText
      colon
      inside) ()
    advance
  | some c => if c = '-' ∨ c.isDigit then passNumber else fail .expectedValue

/-- Pass over a value of at most so many levels. -/
def passWithin : Nat → Reader Unit
  | 0 => passWith (fail .tooDeep)
  | levels + 1 => passWith (passWithin levels)

/-- Pass over a value. It cannot have more levels than characters. -/
def pass : Reader Unit := do
  passWithin (← get).length

/-- Run a reader on a whole text, behind which nothing but blanks may stand. -/
def document {α : Type} (reader : Reader α) (text : String) : Except Fault α :=
  flip StateT.run' text.toList do
    let a ← reader
    match ← next? with
    | none => return a
    | some _ => fail .trailingText

/-- Read a whole text as a value. -/
def Value.read (text : String) : Except Fault Value :=
  document (value depthLimit) text

end PanelSketch.Json
