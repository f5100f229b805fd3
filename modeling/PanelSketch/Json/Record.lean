import PanelSketch.Json.Reader

/-!
# Reading Records

A stored record is a JSON object of which every member is optional. Reading one
starts from a blank record and lets each member that is present change its
field; a field whose member is missing keeps its blank value. A record may also
be written as a list of its fields in order, of which the tail may be missing.

Reading follows the text. A value of the wrong type is reported where it
starts, before anything behind it is looked at, and a field that comes twice is
reported at its second key.

## Main definitions

* `text`, `integer`, `nullable`, `list`: Values of a wanted type.
* `RecordField`: The name of a field and how its value changes a record.
* `object`, `positional`, `record`: Records.
-/

namespace PanelSketch.Json

/-- Report a value of the wrong type. Scalars are read to say what they are. -/
def mismatch {α : Type} (wanted : String) : Reader α := do
  match ← next? with
  | some 'n' => do
    word ['n', 'u', 'l', 'l']
    fail (.wrongType .null wanted)
  | some 't' => do
    word ['t', 'r', 'u', 'e']
    fail (.wrongType (.boolean true) wanted)
  | some 'f' => do
    word ['f', 'a', 'l', 's', 'e']
    fail (.wrongType (.boolean false) wanted)
  | some '"' => do
    advance
    fail (.wrongType (.text (← readText)) wanted)
  | some '[' => fail (.wrongType .list wanted)
  | some '\x7b' => fail (.wrongType .object wanted)
  | some c =>
    if c = '-' ∨ c.isDigit then do fail (.wrongType (.number (← readNumber)) wanted)
    else fail .expectedValue
  | none => fail .expectedValue

/-- Read a text. -/
def text : Reader String := do
  match ← next? with
  | none => fail .endInValue
  | some '"' => do
    advance
    readText
  | some _ => mismatch "a string"

/-- Read an integer that a narrower type can hold. -/
def integer {α : Type} (wanted : String) (narrow : Int → Option α) : Reader α := do
  match ← next? with
  | none => fail .endInValue
  | some c =>
    if c = '-' ∨ c.isDigit then
      match ← readNumber with
      | .integer n =>
        match narrow n with
        | some a => return a
        | none => fail (.outOfRange n wanted)
      | x => fail (.wrongType (.number x) wanted)
    else mismatch wanted

/-- Read nothing at all, written as null. -/
def unit : Reader Unit := do
  match ← next? with
  | none => fail .endInValue
  | some 'n' => word ['n', 'u', 'l', 'l']
  | some _ => mismatch "unit"

/-- Read a value that may be null. -/
def nullable {α : Type} (reader : Reader α) : Reader (Option α) := do
  match ← next? with
  | some 'n' => do
    word ['n', 'u', 'l', 'l']
    return none
  | _ => return some (← reader)

/-- Read a list of which each item is read by `item`, told how many levels are
    left. -/
def list {α : Type} (item : Nat → Reader α) (levels : Nat) : Reader (List α) := do
  match ← next? with
  | none => fail .endInValue
  | some '[' =>
    match levels with
    | 0 => fail .tooDeep
    | levels + 1 => do
      advance
      let items ← loop moreItems (fun items => return (← item levels) :: items) []
      endList
      return items.reverse
  | some _ => mismatch "a sequence"

/-! ### Records -/

/-- A field of a record: its key, and how its value changes the record, told how
    many levels are left. -/
structure RecordField (ρ : Type) where
  key : String
  update : Nat → Reader (ρ → ρ)

/-- A field whose value is read by `reader` and stored by `set`. -/
def RecordField.of {ρ α : Type} (key : String) (reader : Reader α) (set : α → ρ → ρ) :
    RecordField ρ :=
  ⟨key, fun _ => do return set (← reader)⟩

/-- A record on the way, with the keys that have been seen. -/
structure Draft (ρ : Type) where
  record : ρ
  seen : List String

/-- What to do with the value of a key that no field has. -/
abbrev Stray (ρ : Type) := Nat → String → ρ → Reader ρ

/-- Pass over the values of keys that no field has. -/
def ignored {ρ : Type} : Stray ρ := fun _ _ record => do
  pass
  return record

/-- Read a member of a record. -/
def member {ρ : Type} (fields : List (RecordField ρ)) (stray : Stray ρ) (levels : Nat)
    (draft : Draft ρ) : Reader (Draft ρ) := do
  let key ← readKey
  match fields.find? (·.key == key) with
  | some field =>
    -- A field may be given once; keys that no field has may repeat.
    if key ∈ draft.seen then fail (.repeatedField key)
    else do
      colon
      let update ← field.update levels
      return ⟨update draft.record, key :: draft.seen⟩
  | none => do
    colon
    return ⟨← stray levels key draft.record, draft.seen⟩

/-- Read a record written as an object, from its brace on. -/
def object {ρ : Type} (fields : List (RecordField ρ)) (stray : Stray ρ) (blank : ρ) :
    Nat → Reader ρ
  | 0 => fail .tooDeep
  | levels + 1 => do
    advance
    let draft ← loop moreMembers (member fields stray levels) ⟨blank, []⟩
    endObject
    return draft.record

/-- Read as many fields in order as there are items. -/
def positionalFrom {ρ : Type} (levels : Nat) : List (RecordField ρ) → Bool → ρ → Reader ρ
  | [], _, record => return record
  | field :: fields, first, record => do
    if ← moreItems first then
      positionalFrom levels fields false ((← field.update levels) record)
    else return record

/-- Read a record written as a list, from its bracket on. -/
def positional {ρ : Type} (fields : List (RecordField ρ)) (blank : ρ) : Nat → Reader ρ
  | 0 => fail .tooDeep
  | levels + 1 => do
    advance
    let record ← positionalFrom levels fields true blank
    endList
    return record

/-- Read a record in either form, ignoring keys that no field has. -/
def record {ρ : Type} (wanted : String) (fields : List (RecordField ρ)) (blank : ρ) (levels : Nat) :
    Reader ρ := do
  match ← next? with
  | none => fail .endInValue
  | some '[' => positional fields blank levels
  | some '\x7b' => object fields ignored blank levels
  | some _ => mismatch wanted

end PanelSketch.Json
