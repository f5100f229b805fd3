import PanelSketch.Json.Value
import PanelSketch.Text.Visible

/-!
# JSON Faults

Everything that can be wrong with a document, as causes. A document can fail to
be JSON, it can end too early, or it can be JSON of the wrong shape; `Sort`
names these three, and `Fault.message` holds all the wording.

A document with several faults is reported by the first one in reading order,
so a fault never has to carry more than its own cause.

## Main definitions

* `Found`: What stands where something else was expected.
* `Fault`: The causes.
* `Fault.sort`, `Fault.message`: How a cause is classed and worded.
-/

namespace PanelSketch.Json

open Text (visible)

/-- What stands where something else was expected. -/
inductive Found where
  | null
  | boolean (b : Bool)
  | number (n : Number)
  | text (s : String)
  | list
  | object
  deriving DecidableEq, Repr

/-- A document is no JSON, ends too early, or has the wrong shape. -/
inductive Fault.Sort where
  | grammar
  | ending
  | shape
  deriving DecidableEq, Repr

/-- What is wrong with a document. -/
inductive Fault where
  | expectedValue
  | expectedWord
  | expectedColon
  | expectedItemEnd
  | expectedMemberEnd
  | expectedKey
  | trailingComma
  | trailingText
  | badNumber
  | numberTooLarge
  | badEscape
  | loneSurrogate
  | unpairedSurrogate
  | controlCharacter
  | tooDeep
  | endInValue
  | endInList
  | endInObject
  | endInText
  | wrongType (found : Found) (wanted : String)
  | outOfRange (n : Int) (wanted : String)
  | repeatedField (name : String)
  | unknownChoice (choice : String) (choices : String)
  | rejected (reason : String)
  deriving DecidableEq, Repr

/-- What was found, as messages word it. -/
def Found.wording : Found → String
  | .null => "null"
  | .boolean true => "boolean `true`"
  | .boolean false => "boolean `false`"
  | .number (.integer n) => "integer `" ++ n.repr ++ "`"
  | .number x => "floating point `" ++ x.text ++ "`"
  | .text s => "string " ++ visible s
  | .list => "sequence"
  | .object => "map"

namespace Fault

/-- The class of a fault. -/
def sort : Fault → Fault.Sort
  | endInValue | endInList | endInObject | endInText => .ending
  | wrongType .. | outOfRange .. | repeatedField _ | unknownChoice .. | rejected _ => .shape
  | _ => .grammar

/-- The wording of a fault. -/
def message : Fault → String
  | expectedValue => "expected value"
  | expectedWord => "expected ident"
  | expectedColon => "expected `:`"
  | expectedItemEnd => "expected `,` or `]`"
  | expectedMemberEnd => "expected `,` or `\x7d`"
  | expectedKey => "key must be a string"
  | trailingComma => "trailing comma"
  | trailingText => "trailing characters"
  | badNumber => "invalid number"
  | numberTooLarge => "number out of range"
  | badEscape => "invalid escape"
  | loneSurrogate => "lone leading surrogate in hex escape"
  | unpairedSurrogate => "unexpected end of hex escape"
  | controlCharacter => "control character (\\u0000-\\u001F) found while parsing a string"
  | tooDeep => "recursion limit exceeded"
  | endInValue => "EOF while parsing a value"
  | endInList => "EOF while parsing a list"
  | endInObject => "EOF while parsing an object"
  | endInText => "EOF while parsing a string"
  | wrongType found wanted => "invalid type: " ++ found.wording ++ ", expected " ++ wanted
  | outOfRange n wanted => "invalid value: integer `" ++ n.repr ++ "`, expected " ++ wanted
  | repeatedField name => "duplicate field `" ++ name ++ "`"
  | unknownChoice choice choices => "unknown variant `" ++ choice ++ "`, expected " ++ choices
  | rejected reason => reason

end Fault

end PanelSketch.Json
