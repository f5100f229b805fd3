import PanelSketch.Json.Value
import PanelSketch.Toml.Value

/-!
# Configurations

A configuration is a tree of values that several sources add to, each on top of
those before it. Every value remembers the source that it comes from, so that a
complaint about the value can name the place where it has to be mended.

Tables are merged member by member, all other values replace what was there.
Keys are compared in small letters and kept that way.

A key at the top may be a path, which reaches a member of a table or an item of
a list inside the tree. On its way it makes a table or a list of whatever is
none, and it makes a list long enough by filling it up with nothing. An item of
a list is replaced as a whole, tables included.

## Main definitions

* `Scalar`, `Configuration`: A value, and a tree of them.
* `Configuration.ofToml`, `Configuration.ofJson`: The tree of a value in a file.
* `Step`, `KeyPath`: A path into a tree.
* `KeyPath.ofKey`: The path that a key stands for.
* `Members.put`: A member on top of what was there.
* `putAt`: A value at the end of a path.
* `Members.layer`: All members of a source.

## Theorems

* `Members.get?_set_self`: A member that has been set is found.
* `length_widen`: A widened list reaches the position.
-/

namespace PanelSketch

/-- A value of a configuration that has no parts. -/
inductive Scalar where
  | text (s : String)
  | integer (n : Int)
  | float (x : Floating)
  | boolean (b : Bool)
  deriving DecidableEq, Repr

/-- A tree of values, each with the source it comes from. What has been made on
    the way to a value, and tables that several sources may have added to, have
    no source. -/
inductive Configuration where
  | nothing (source? : Option String)
  | scalar (value : Scalar) (source : String)
  | list (items : List Configuration) (source? : Option String)
  | table (members : List (String × Configuration)) (source? : Option String)

namespace Configuration

mutual

/-- The tree of a TOML value. -/
def ofToml (source : String) : Toml.Value → Configuration
  | .text s => .scalar (.text s) source
  | .integer n => .scalar (.integer n) source
  | .float x => .scalar (.float x) source
  | .boolean b => .scalar (.boolean b) source
  | .moment s => .scalar (.text s) source
  | .list items => .list (ofItems source items) (some source)
  | .table members => .table (ofMembers source members) (some source)

/-- The trees of list items. -/
def ofItems (source : String) : List Toml.Value → List Configuration
  | [] => []
  | v :: vs => ofToml source v :: ofItems source vs

/-- The trees of table members. -/
def ofMembers (source : String) : List (String × Toml.Value) → List (String × Configuration)
  | [] => []
  | (key, v) :: ms => (key, ofToml source v) :: ofMembers source ms

end

/-- A JSON number. An integer above all signed 64-bit ones is a floating-point
    number. -/
def numberOfJson : Json.Number → Scalar
  | .integer n =>
    if Text.isLong n then .integer n else .float (.ofDecimal (n < 0) n.natAbs 0)
  | .float negative magnitude => .float (.finite negative magnitude)

mutual

/-- The tree of a JSON value. -/
def ofJson (source : String) : Json.Value → Configuration
  | .null => .nothing (some source)
  | .boolean b => .scalar (.boolean b) source
  | .number n => .scalar (numberOfJson n) source
  | .text s => .scalar (.text s) source
  | .list items => .list (ofJsonItems source items) (some source)
  | .object members => .table (ofJsonMembers source members) (some source)

/-- The trees of list items. -/
def ofJsonItems (source : String) : List Json.Value → List Configuration
  | [] => []
  | v :: vs => ofJson source v :: ofJsonItems source vs

/-- The trees of object members. Of several members with one key the last one
    counts. -/
def ofJsonMembers (source : String) :
    List (String × Json.Value) → List (String × Configuration)
  | [] => []
  | (key, v) :: ms =>
    let rest := ofJsonMembers source ms
    if rest.any (·.1 == key) then rest else (key, ofJson source v) :: rest

end

/-- The members of a table. -/
abbrev Members := List (String × Configuration)

/-- The members of a table, and none of anything else. -/
def members : Configuration → Members
  | .table ms _ => ms
  | _ => []

/-- The items of a list, and none of anything else. -/
def items : Configuration → List Configuration
  | .list items _ => items
  | _ => []

/-- The source of a table. -/
def tableSource? : Configuration → Option String
  | .table _ source? => source?
  | _ => none

/-- The source of a list. -/
def listSource? : Configuration → Option String
  | .list _ source? => source?
  | _ => none

/-- A character of a key in small letters. The kelvin sign is the only one
    outside ASCII whose small letter is inside. -/
def lowerChar (c : Char) : Char :=
  if c = '\u212a' then 'k' else c.toLower

/-- A key in small letters. -/
def lowerKey (key : String) : String :=
  String.ofList (key.toList.map lowerChar)

namespace Members

/-- The member with a key. -/
def get? (ms : Members) (key : String) : Option Configuration :=
  (ms.find? (·.1 == key)).map (·.2)

/-- Set the member with a key, whatever was there. -/
def set (ms : Members) (key : String) (v : Configuration) : Members :=
  (key, v) :: ms.filter (·.1 != key)

/-- The value of a key, nothing when there is none. -/
def value (ms : Members) (key : String) : Configuration :=
  (get? ms key).getD (.nothing none)

mutual

/-- Put a member on top of what was there. A table without members does not
    take the place of anything. -/
def put (ms : Members) (key : String) : Configuration → Members
  | .table incoming _ =>
    if incoming.isEmpty && (get? ms (lowerKey key)).isSome then ms
    else
      let target := value ms (lowerKey key)
      set ms (lowerKey key) (.table (putAll target.members incoming) target.tableSource?)
  | v => set ms (lowerKey key) v

/-- Put members on top of what was there. -/
def putAll (ms : Members) : List (String × Configuration) → Members
  | [] => ms
  | (key, v) :: rest => putAll (put ms key v) rest

end

end Members

/-! ### Paths -/

/-- A step into a tree: to the member with a key, or to the item at a position,
    which is counted from the end when it is negative. -/
inductive Step where
  | key (name : String)
  | index (position : Int)
  deriving DecidableEq, Repr

/-- A path into a tree: a key at the top and further steps. -/
structure KeyPath where
  first : String
  steps : List Step
  deriving DecidableEq, Repr

/-- The parts of a text between the places of a character. -/
def splitAt (mark : Char) : List Char → List (List Char)
  | [] => [[]]
  | c :: cs =>
    if c = mark then [] :: splitAt mark cs
    else
      match splitAt mark cs with
      | [] => [[c]]
      | part :: parts => (c :: part) :: parts

/-- A character of a key in a path. -/
def isPathChar (c : Char) : Bool :=
  c.isAlphanum || c == ' ' || c == '_' || c == '-'

/-- The key in a path. -/
def pathName? (cs : List Char) : Option String :=
  if cs ≠ [] ∧ cs.all isPathChar then some (String.ofList cs) else none

/-- A text without the spaces and tabs around it. -/
def trimSpace (cs : List Char) : List Char :=
  let isSpace (c : Char) : Bool := c == ' ' || c == '\t'
  ((cs.dropWhile isSpace).reverse.dropWhile isSpace).reverse

/-- The position between brackets, of which the opening one has been taken off:
    a 64-bit integer without a plus, with spaces and tabs around it. -/
def position? (cs : List Char) : Option Step :=
  match cs.reverse with
  | ']' :: inner =>
    let numeral := trimSpace inner.reverse
    if numeral.head? = some '+' then none
    else ((Text.integer? numeral).filter Text.isLong).map .index
  | _ => none

/-- The key in a part of a path, and the positions behind it. -/
def pathPart? (cs : List Char) : Option (String × List Step) :=
  match splitAt '[' cs with
  | name :: positions => do return (← pathName? name, ← positions.mapM position?)
  | [] => none

/-- The path that a key spells: parts between points, each a key with positions
    in brackets behind it. -/
def KeyPath.ofKey? (key : String) : Option KeyPath := do
  match ← (splitAt '.' key.toList).mapM pathPart? with
  | (first, steps) :: parts =>
    return ⟨first, steps ++ parts.flatMap fun (name, steps) => .key name :: steps⟩
  | [] => none

/-- The path that a key stands for; a key that spells none stands for itself. -/
def KeyPath.ofKey (key : String) : KeyPath :=
  (KeyPath.ofKey? key).getD ⟨key, []⟩

/-- The place of a position in a list of some length. -/
def place (position : Int) (length : Nat) : Nat :=
  if 0 ≤ position then position.toNat else length - position.natAbs

/-- A list made long enough for a place. -/
def widen (items : List Configuration) (at' : Nat) : List Configuration :=
  items ++ List.replicate (at' + 1 - items.length) (.nothing none)

/-- Put a value at the end of a path on top of what was there. -/
def putAt (v : Configuration) : Configuration → Step → List Step → Configuration
  | c, .key name, [] => .table (c.members.put name v) c.tableSource?
  | c, .key name, step :: steps =>
    let inner := putAt v (c.members.value (lowerKey name)) step steps
    .table (c.members.set (lowerKey name) inner) c.tableSource?
  | c, .index position, rest =>
    let at' := place position c.items.length
    let items := widen c.items at'
    let inner := match rest with
      | [] => v
      | step :: steps => putAt v (items.getD at' (.nothing none)) step steps
    .list (items.set at' inner) c.listSource?

/-- Put all members of a source on top of what was there. -/
def Members.layer (ms : Members) (incoming : Members) : Members :=
  incoming.foldl (fun ms (key, v) =>
    let path := KeyPath.ofKey key
    (putAt v (.table ms none) (.key path.first) path.steps).members) ms

theorem Members.get?_set_self (ms : Members) (key : String) (v : Configuration) :
    (ms.set key v).get? key = some v := by
  simp [Members.get?, Members.set]

theorem length_widen (items : List Configuration) (at' : Nat) :
    at' < (widen items at').length := by
  simp only [widen, List.length_append, List.length_replicate]
  omega

end Configuration

end PanelSketch
