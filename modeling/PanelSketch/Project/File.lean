import PanelSketch.Json.Printer
import PanelSketch.Json.Record
import PanelSketch.Project.Basic
import PanelSketch.Text.Numeral

/-!
# Project Files

A project is stored as a JSON document. Writing puts every field down in a
fixed order, absent texts as null, and leaves out only the bindings an element
does not have. Reading is more generous: fields may come in any order or not at
all, keys that mean nothing are ignored, and types are read in any case.

Elements are read with more care than the rest. Their bindings stand among
their fields, so a key that no field has is first read as a whole value and put
aside; once the element is complete, the bindings are picked from what was put
aside.

## Main definitions

* `Element.toJson`, `Screen.toJson`, `Asset.toJson`, `Project.toJson`: Parts as
  documents.
* `Project.write`: A project as the text of a file.
* `elementReader`, `screenReader`, `assetReader`, `projectReader`: Parts read
  from a text.
* `Project.read`: A project from the text of a file.
-/

namespace PanelSketch

open Json (Reader RecordField Value)

/-! ### Writing -/

/-- A text that may be absent. -/
def nullableText : Option String → Value
  | none => .null
  | some s => .text s

/-- A member that is left out when it has no text. -/
def optionalMember (key : String) : Option String → List (String × Value)
  | none => []
  | some s => [(key, .text s)]

/-- An integer as a value. -/
def integerValue (n : Int) : Value :=
  .number (.integer n)

/-- How a storage place is spelled. -/
def Storage.tag : Storage → String
  | .flash => "flash"
  | .littleFs => "littlefs"

/-- The bindings that an element has, as members. -/
def Bindings.members (b : Bindings) : List (String × Value) :=
  optionalMember "xBind" b.x ++ optionalMember "yBind" b.y ++ optionalMember "wBind" b.w
    ++ optionalMember "hBind" b.h ++ optionalMember "colorBind" b.color
    ++ optionalMember "valueBind" b.value

/-- An element as a document. -/
def Element.toJson (e : Element) : Value :=
  .object ([("id", .text e.id), ("type", .text e.kind.tag), ("name", .text e.name),
    ("x", integerValue e.x.toInt), ("y", integerValue e.y.toInt),
    ("w", integerValue e.w.toInt), ("h", integerValue e.h.toInt),
    ("color", .text e.color), ("asset", nullableText e.asset),
    ("targetScreenId", nullableText e.target)] ++ e.bindings.members)

/-- A screen as a document. -/
def Screen.toJson (s : Screen) : Value :=
  .object [("id", .text s.id), ("name", .text s.name), ("background", nullableText s.background),
    ("backgroundAsset", nullableText s.backgroundAsset),
    ("backgroundColor", nullableText s.backgroundColor),
    ("elements", .list (s.elements.map Element.toJson))]

/-- An asset as a document. -/
def Asset.toJson (a : Asset) : Value :=
  .object [("name", .text a.name), ("dataUrl", .text a.dataUrl),
    ("width", integerValue a.width.toNat), ("height", integerValue a.height.toNat),
    ("kind", .text a.kind), ("storageType", .text a.storage.tag)]

/-- A project as a document. -/
def Project.toJson (p : Project) : Value :=
  .object [("screens", .list (p.screens.map Screen.toJson)), ("activeScreenId", .text p.active),
    ("selectedElementId", nullableText p.selected), ("assets", .list (p.assets.map Asset.toJson)),
    ("elementSeq", integerValue p.elementSeq.toNat), ("screenSeq", integerValue p.screenSeq.toNat)]

/-- A project as the text of a file. -/
def Project.write (p : Project) : String :=
  p.toJson.pretty

/-! ### Reading -/

/-- Read a coordinate or a size. -/
def pixelsReader : Reader Int32 :=
  Json.integer "i32" Text.pixelsOfInt?

/-- The unsigned 32-bit word of an integer in range. -/
def wordOfInt? (n : Int) : Option UInt32 :=
  if 0 ≤ n ∧ n < UInt32.size then some (UInt32.ofNat n.toNat) else none

/-- Read a counter or an image size. -/
def wordReader : Reader UInt32 :=
  Json.integer "u32" wordOfInt?

/-- Read a text that may be null. -/
def nullableTextReader : Reader (Option String) :=
  Json.nullable Json.text

/-- Read the type of an element. -/
def primitiveReader : Reader Primitive := do
  let tag ← Json.text
  match Primitive.parse? tag with
  | some p => return p
  | none => Json.fail (.rejected (Primitive.unknownMessage tag))

/-- The storage place that a tag names. -/
def storageOfTag (tag : String) : Reader Storage :=
  if tag = Storage.flash.tag then return .flash
  else if tag = Storage.littleFs.tag then return .littleFs
  else Json.fail (.unknownChoice tag "`flash` or `littlefs`")

/-- Read the end of an object with a storage place as its only key. -/
def endStorage : Reader Unit := do
  match ← Json.next? with
  | none => Json.fail .endInObject
  | some '\x7d' => Json.advance
  | some _ => Json.fail .expectedValue

/-- Read a storage place: its tag, or an object with its tag as the only key and
    null as the value. -/
def storageReader : Reader Storage := do
  match ← Json.next? with
  | none => Json.fail .endInValue
  | some '"' => do storageOfTag (← Json.text)
  | some '\x7b' => do
    Json.advance
    match ← Json.next? with
    | none => Json.fail .endInObject
    | some '"' => do
      let storage ← storageOfTag (← Json.text)
      Json.colon
      Json.unit
      endStorage
      return storage
    | some '\x7d' => Json.fail .expectedValue
    | some _ => Json.fail .expectedKey
  | some _ => Json.fail .expectedValue

/-- An element on the way, with the members put aside, latest first. -/
structure ElementDraft where
  element : Element := {}
  aside : List (String × Value) := []

/-- A field of an element that is on the way. -/
def ElementDraft.field {α : Type} (key : String) (reader : Reader α)
    (set : α → Element → Element) : RecordField ElementDraft :=
  RecordField.of key reader fun a draft => { draft with element := set a draft.element }

/-- The fields of an element. -/
def elementFields : List (RecordField ElementDraft) :=
  [ElementDraft.field "id" Json.text fun s e => { e with id := s },
   ElementDraft.field "type" primitiveReader fun p e => { e with kind := p },
   ElementDraft.field "name" Json.text fun s e => { e with name := s },
   ElementDraft.field "x" pixelsReader fun n e => { e with x := n },
   ElementDraft.field "y" pixelsReader fun n e => { e with y := n },
   ElementDraft.field "w" pixelsReader fun n e => { e with w := n },
   ElementDraft.field "h" pixelsReader fun n e => { e with h := n },
   ElementDraft.field "color" Json.text fun s e => { e with color := s },
   ElementDraft.field "asset" nullableTextReader fun s e => { e with asset := s },
   ElementDraft.field "targetScreenId" nullableTextReader fun s e => { e with target := s }]

/-- Read the value of a key that no field has, and put it aside. -/
def putAside : Json.Stray ElementDraft := fun levels key draft => do
  let v ← Json.value levels
  return { draft with aside := (key, v) :: draft.aside }

/-- The binding that a key names, as a change of the bindings. -/
def bindingSetter? : String → Option (Option String → Bindings → Bindings)
  | "xBind" => some fun s b => { b with x := s }
  | "yBind" => some fun s b => { b with y := s }
  | "wBind" => some fun s b => { b with w := s }
  | "hBind" => some fun s b => { b with h := s }
  | "colorBind" => some fun s b => { b with color := s }
  | "valueBind" => some fun s b => { b with value := s }
  | _ => none

/-- What a value is, for a message about its type. -/
def foundIn : Value → Json.Found
  | .null => .null
  | .boolean b => .boolean b
  | .number n => .number n
  | .text s => .text s
  | .list _ => .list
  | .object _ => .object

/-- The token of a binding. -/
def bindingToken : Value → Except Json.Fault (Option String)
  | .null => .ok none
  | .text s => .ok (some s)
  | v => .error (.wrongType (foundIn v) "a string")

/-- Pick the bindings from members that were put aside; the keys picked before
    may not come again. -/
def pickBindings (seen : List String) (b : Bindings) :
    List (String × Value) → Except Json.Fault Bindings
  | [] => .ok b
  | (key, v) :: rest =>
    match bindingSetter? key with
    | none => pickBindings seen b rest
    | some set =>
      if key ∈ seen then .error (.repeatedField key)
      else do
        let token ← bindingToken v
        pickBindings (key :: seen) (set token b) rest

/-- Read an element. -/
def elementReader (levels : Nat) : Reader Element := do
  match ← Json.next? with
  | none => Json.fail .endInValue
  | some '\x7b' => do
    let draft ← Json.object elementFields putAside {} levels
    match pickBindings [] {} draft.aside.reverse with
    | .ok bindings => return { draft.element with bindings }
    | .error fault => Json.fail fault
  | some _ => Json.mismatch "struct Element"

/-- The fields of a screen. -/
def screenFields : List (RecordField Screen) :=
  [RecordField.of "id" Json.text fun v s => { s with id := v },
   RecordField.of "name" Json.text fun v s => { s with name := v },
   RecordField.of "background" nullableTextReader fun v s => { s with background := v },
   RecordField.of "backgroundAsset" nullableTextReader fun v s => { s with backgroundAsset := v },
   RecordField.of "backgroundColor" nullableTextReader fun v s => { s with backgroundColor := v },
   ⟨"elements", fun levels => do
      let v ← Json.list elementReader levels
      return fun s => { s with elements := v }⟩]

/-- Read a screen. -/
def screenReader (levels : Nat) : Reader Screen :=
  Json.record "struct Screen" screenFields {} levels

/-- The fields of an asset. -/
def assetFields : List (RecordField Asset) :=
  [RecordField.of "name" Json.text fun v a => { a with name := v },
   RecordField.of "dataUrl" Json.text fun v a => { a with dataUrl := v },
   RecordField.of "width" wordReader fun v a => { a with width := v },
   RecordField.of "height" wordReader fun v a => { a with height := v },
   RecordField.of "kind" Json.text fun v a => { a with kind := v },
   RecordField.of "storageType" storageReader fun v a => { a with storage := v }]

/-- Read an asset. -/
def assetReader (levels : Nat) : Reader Asset :=
  Json.record "struct Asset" assetFields {} levels

/-- The fields of a project. -/
def projectFields : List (RecordField Project) :=
  [⟨"screens", fun levels => do
      let v ← Json.list screenReader levels
      return fun p => { p with screens := v }⟩,
   RecordField.of "activeScreenId" Json.text fun v p => { p with active := v },
   RecordField.of "selectedElementId" nullableTextReader fun v p => { p with selected := v },
   ⟨"assets", fun levels => do
      let v ← Json.list assetReader levels
      return fun p => { p with assets := v }⟩,
   RecordField.of "elementSeq" wordReader fun v p => { p with elementSeq := v },
   RecordField.of "screenSeq" wordReader fun v p => { p with screenSeq := v }]

/-- Read a project. -/
def projectReader (levels : Nat) : Reader Project :=
  Json.record "struct Project" projectFields {} levels

/-- A project from the text of a file. -/
def Project.read (text : String) : Except Json.Fault Project :=
  Json.document (projectReader Json.depthLimit) text

end PanelSketch
