import PanelSketch.Toml.Lexeme

/-!
# TOML Documents

How values and tables are put together from lexemes.

A table can come about in three ways, and what may still be added to it depends
on which. A header or a pair of braces defines it outright; the header of a
table inside it implies it, and a header of its own may still follow; a dotted
key in the table around it defines it by the way, and only further dotted keys
may add to it. A document is a list of sections, each with the header that says
where its members go.

Members keep the order in which they came about, and the header of a table that
was implied before moves the table to the end. The order matters in one place:
a table whose first key is the mark of a moment stands for the moment that the
text behind the mark gives.

## Main definitions

* `Node`, `Members`: A table under construction.
* `walk`: A change at the end of a path.
* `Members.define`: A member behind a dotted key.
* `Section`, `Members.add`: A header with its members.
* `Value.settle?`: A value with its marked tables replaced by moments.
* `value`: A value within a number of levels.
* `Value.readDocument`: The table of a whole document.
-/

namespace PanelSketch.Toml

/-! ### Tables under construction -/

/-- How a table came about. -/
inductive Origin where
  /-- By a header or braces of its own. -/
  | outright
  /-- By the header of a table inside it. -/
  | implied
  /-- By a dotted key. -/
  | dotted
  deriving DecidableEq, Repr

/-- A member of a table under construction. -/
inductive Node where
  | value (v : Value)
  | table (origin : Origin) (members : List (String × Node))
  /-- Tables under one header, the last one first. -/
  | tables (items : List (List (String × Node)))

/-- The members of a table under construction. -/
abbrev Members := List (String × Node)

namespace Members

/-- The member with a key. -/
def get? (key : String) (ms : Members) : Option Node :=
  (ms.find? (·.1 == key)).map (·.2)

/-- Set the member with a key, where it is or at the end. -/
def put (key : String) (node : Node) (ms : Members) : Members :=
  if ms.any (·.1 == key) then ms.map fun m => if m.1 == key then (key, node) else m
  else ms ++ [(key, node)]

/-- Set the member with a key at the end. -/
def putLast (key : String) (node : Node) (ms : Members) : Members :=
  ms.filter (·.1 != key) ++ [(key, node)]

end Members

/-- Change the table at the end of a path. Tables on the way that do not exist
    are made, and of several tables under one header the last is entered. A path
    of dotted keys makes tables of its own sort and does not enter those that
    were defined outright. -/
def walk (isDotted : Bool) (change : Origin → Members → Option Members) :
    List String → Origin → Members → Option Members
  | [], origin, ms => change origin ms
  | k :: ks, _, ms =>
    match ms.get? k with
    | none =>
      let origin := if isDotted then .dotted else .implied
      (walk isDotted change ks origin []).map fun inner => ms.put k (.table origin inner)
    | some (.table origin inner) =>
      if isDotted ∧ origin = .outright then none
      else (walk isDotted change ks origin inner).map fun inner => ms.put k (.table origin inner)
    | some (.tables (last :: items)) =>
      (walk isDotted change ks .outright last).map fun last => ms.put k (.tables (last :: items))
    | some _ => none

/-- A dotted key and its value. -/
abbrev Pair := (List String × String) × Value

namespace Members

/-- Define the member behind a dotted key. -/
def define (ms : Members) (pair : Pair) : Option Members :=
  let ((path, key), v) := pair
  walk true (fun origin ms =>
    -- A key with points adds to tables that such keys made, and one without to no other.
    if (origin == .dotted) == path.isEmpty then none
    else if (ms.get? key).isSome then none
    else some (ms.put key (.value v))) path .outright ms

/-- Define members in order. -/
def defineAll (ms : Members) (pairs : List Pair) : Option Members :=
  pairs.foldlM define ms

end Members

/-- What a header says about the table it is followed by. -/
inductive Header where
  /-- It is the table at this path. -/
  | table (path : List String) (key : String)
  /-- It is another one of the tables at this path. -/
  | item (path : List String) (key : String)
  deriving DecidableEq, Repr

/-- A header and the pairs that follow it. -/
structure Section where
  header : Header
  pairs : List Pair

/-- Add a section to the members of a document. -/
def Members.add (ms : Members) (s : Section) : Option Members :=
  match s.header with
  | .table path key =>
    walk false (fun _ ms => do
      let start ← match ms.get? key with
        | none => some []
        -- A table that only headers inside it have named may still get its own.
        | some (.table .implied inner) => some inner
        | some _ => none
      let inner ← Members.defineAll start s.pairs
      return ms.putLast key (.table .outright inner)) path .outright ms
  | .item path key =>
    walk false (fun _ ms => do
      let items ← match ms.get? key with
        | none => some []
        | some (.tables items) => some items
        | some _ => none
      return ms.put key (.tables ((← Members.defineAll [] s.pairs) :: items))) path .outright ms

mutual

/-- The value of a node. -/
def Node.toValue : Node → Value
  | .value v => v
  | .table _ ms => .table (membersValue ms)
  | .tables items => .list (tablesValue items).reverse

/-- The values of members. -/
def membersValue : List (String × Node) → List (String × Value)
  | [] => []
  | (key, node) :: ms => (key, node.toValue) :: membersValue ms

/-- The values of tables. -/
def tablesValue : List (List (String × Node)) → List Value
  | [] => []
  | ms :: items => .table (membersValue ms) :: tablesValue items

end

/-! ### Moments given as texts -/

/-- The key that marks a table as a moment. -/
def momentMark : String := "$__toml_private_datetime"

/-- The moment behind its mark, which has to be given as a text. -/
def markedMoment? : Value → Option Value
  | .text s => (Moment.ofText? .wide s.toList).map .moment
  | _ => none

mutual

/-- A value with every table whose first key is the mark replaced by its moment;
    nothing when one of them gives no moment. -/
def Value.settle? : Value → Option Value
  | .list items => (settleItems? items).map .list
  | .table [] => some (.table [])
  | .table ((key, v) :: ms) =>
    if key = momentMark then markedMoment? v
    else do
      let v ← v.settle?
      let ms ← settleMembers? ms
      return .table ((key, v) :: ms)
  | v => some v

/-- The settled items of a list. -/
def settleItems? : List Value → Option (List Value)
  | [] => some []
  | v :: vs => do return (← v.settle?) :: (← settleItems? vs)

/-- The settled members of a table. -/
def settleMembers? : List (String × Value) → Option (List (String × Value))
  | [] => some []
  | (key, v) :: ms => do return (key, ← v.settle?) :: (← settleMembers? ms)

end

/-! ### Values -/

/-- Read the items of a list behind its bracket, `count` at the most. -/
def listItems (item : Reader Value) : Nat → Reader (List Value)
  | 0 => failure
  | count + 1 => do
    skipLines
    if (← peek?) = some ']' then
      advance
      return []
    let v ← item
    skipLines
    match ← peek? with
    | some ',' =>
      advance
      return v :: (← listItems item count)
    | some ']' =>
      advance
      return [v]
    | _ => failure

/-- Read a key, the sign behind it and its value. -/
def pair (item : Reader Value) : Reader Pair := do
  let key ← key
  expect '='
  skipSpace
  return (key, ← item)

/-- Read the pairs of a table in braces, `count` at the most. -/
def bracedPairs (item : Reader Value) : Nat → Reader (List Pair)
  | 0 => failure
  | count + 1 => do
    let p ← pair item
    skipSpace
    match ← peek? with
    | some ',' =>
      advance
      return p :: (← bracedPairs item count)
    | some '\x7d' =>
      advance
      return [p]
    | _ => failure

/-- Read a table behind its opening brace. -/
def bracedTable (item : Reader Value) : Reader Value := do
  skipSpace
  if (← peek?) = some '\x7d' then
    advance
    return .table []
  let pairs ← bracedPairs item (← get).length
  match Members.defineAll [] pairs with
  | some ms => return .table (membersValue ms)
  | none => failure

/-- Read a value within a number of levels. -/
def value : Nat → Reader Value
  | 0 => do
    match ← peek? with
    | some '"' | some '\'' => return .text (← quoted)
    | _ => literal
  | levels + 1 => do
    match ← peek? with
    | some '"' | some '\'' => return .text (← quoted)
    | some '[' =>
      advance
      return .list (← listItems (value levels) ((← get).length + 1))
    | some '\x7b' =>
      advance
      bracedTable (value levels)
    | _ => literal

/-! ### Documents -/

/-- Read a header behind its first bracket. -/
def header : Reader Header := do
  if (← peek?) = some '[' then
    advance
    let (path, key) ← key
    expect ']'
    expect ']'
    endLine
    return .item path key
  else
    let (path, key) ← key
    expect ']'
    endLine
    return .table path key

/-- Read the pairs up to the next header, `count` at the most. -/
def pairs : Nat → Reader (List Pair)
  | 0 => failure
  | count + 1 => do
    skipLines
    match ← peek? with
    | none | some '[' => return []
    | some _ =>
      let p ← pair (value nestingLimit)
      endLine
      return p :: (← pairs count)

/-- Read sections up to the end, `count` at the most. -/
def sections : Nat → Reader (List Section)
  | 0 => failure
  | count + 1 => do
    match ← peek? with
    | none => return []
    | some _ =>
      expect '['
      let header ← header
      let pairs ← pairs ((← get).length + 1)
      return ⟨header, pairs⟩ :: (← sections count)

/-- Read the members of a whole document. -/
def document : Reader Members := do
  let first ← pairs ((← get).length + 1)
  let rest ← sections ((← get).length + 1)
  match (Members.defineAll [] first).bind fun ms => rest.foldlM Members.add ms with
  | some ms => return ms
  | none => failure

/-- The mark of byte order that a text may begin with. -/
def byteOrderMark : Char := '\ufeff'

/-- A text without the mark of byte order. -/
def dropMark (cs : List Char) : List Char :=
  if cs.head? = some byteOrderMark then cs.tail else cs

/-- The members of the table that a document is, if it is well formed. -/
def readDocument (text : String) : Option (List (String × Value)) := do
  let (ms, _) ← document.run (dropMark text.toList)
  match ← (Value.table (membersValue ms)).settle? with
  | .table ms => some ms
  | _ => none

end PanelSketch.Toml
