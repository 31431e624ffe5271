import PushFeed.Json.Basic
import PushFeed.Number.Shortest
import PushFeed.Text.Quoted
/-!
# Why reading JSON fails

Two families of causes: the text is not JSON (`Malformed`), or it is, but not of
the shape that was asked for. `JsonFault.message` gives each its text.
-/

namespace PushFeed

/-- Why a text is not JSON. -/
inductive Malformed where
  | endInList
  | endInObject
  | endInString
  | endInValue
  | expectedColon
  | expectedListCommaOrEnd
  | expectedObjectCommaOrEnd
  | expectedIdent
  | expectedValue
  | invalidEscape
  | invalidNumber
  | numberOutOfRange
  | controlInString
  | keyNotString
  | loneSurrogate
  | unfinishedSurrogate
  | trailingComma
  | trailingCharacters
  | tooDeep
  deriving DecidableEq, Repr

/-- The text of a cause. -/
def Malformed.message : Malformed → String
  | .endInList => "EOF while parsing a list"
  | .endInObject => "EOF while parsing an object"
  | .endInString => "EOF while parsing a string"
  | .endInValue => "EOF while parsing a value"
  | .expectedColon => "expected `:`"
  | .expectedListCommaOrEnd => "expected `,` or `]`"
  | .expectedObjectCommaOrEnd => "expected `,` or `\x7d`"
  | .expectedIdent => "expected ident"
  | .expectedValue => "expected value"
  | .invalidEscape => "invalid escape"
  | .invalidNumber => "invalid number"
  | .numberOutOfRange => "number out of range"
  | .controlInString => "control character (\\u0000-\\u001F) found while parsing a string"
  | .keyNotString => "key must be a string"
  | .loneSurrogate => "lone leading surrogate in hex escape"
  | .unfinishedSurrogate => "unexpected end of hex escape"
  | .trailingComma => "trailing comma"
  | .trailingCharacters => "trailing characters"
  | .tooDeep => "recursion limit exceeded"

/-- What was found where something else was asked for. -/
inductive Found where
  | null
  | boolean (b : Bool)
  | natural (n : UInt64)
  | integer (n : Int64)
  | double (d : Binary64)
  | text (s : String)
  | sequence
  | map
  | unitVariant
  deriving DecidableEq

/-- How a message names what was found. -/
def Found.name : Found → String
  | .null => "null"
  | .boolean b => "boolean `" ++ (if b then "true" else "false") ++ "`"
  | .natural n => "integer `" ++ toString n.toNat ++ "`"
  | .integer n => "integer `" ++ toString n.toInt ++ "`"
  | .double d => "floating point `" ++ d.scientificText ++ "`"
  | .text s => "string " ++ Text.quoted s
  | .sequence => "sequence"
  | .map => "map"
  | .unitVariant => "unit variant"

/-- What a number is called in a message. -/
def JsonNumber.found : JsonNumber → Found
  | .natural n => .natural n
  | .integer n => .integer n
  | .double d => .double d

/-- What a value is called in a message. -/
def Json.found : Json → Found
  | .null => .null
  | .bool b => .boolean b
  | .num n => n.found
  | .str s => .text s
  | .arr _ => .sequence
  | .obj _ => .map

/-- Why a value could not be read. -/
inductive JsonFault where
  /-- The text is not JSON. -/
  | malformed (cause : Malformed)
  /-- A value of another kind than expected. -/
  | wrongType (found : Found) (expected : String)
  /-- A value of the right kind that is not allowed. -/
  | wrongValue (found : Found) (expected : String)
  /-- A list of the wrong length. -/
  | wrongLength (length : Nat) (expected : String)
  /-- A required field that is not there. -/
  | missingField (name : String)
  /-- A field that is there twice. -/
  | duplicateField (name : String)
  /-- A name that is none of the listed ones. -/
  | unknownVariant (name : String) (known : List String)
  /-- A text that is not a time; the reason is its own. -/
  | badTime (reason : String)
  deriving DecidableEq

/-- The names a message offers: one, two, or a list of more. -/
def oneOf : List String → String
  | [a] => "`" ++ a ++ "`"
  | [a, b] => "`" ++ a ++ "` or `" ++ b ++ "`"
  | names => "one of " ++ String.intercalate ", " (names.map fun n => "`" ++ n ++ "`")

/-- The text of a fault. -/
def JsonFault.message : JsonFault → String
  | .malformed cause => cause.message
  | .wrongType found expected => "invalid type: " ++ found.name ++ ", expected " ++ expected
  | .wrongValue found expected => "invalid value: " ++ found.name ++ ", expected " ++ expected
  | .wrongLength n expected => "invalid length " ++ toString n ++ ", expected " ++ expected
  | .missingField name => "missing field `" ++ name ++ "`"
  | .duplicateField name => "duplicate field `" ++ name ++ "`"
  | .unknownVariant name known => "unknown variant `" ++ name ++ "`, expected " ++ oneOf known
  | .badTime reason => reason

end PushFeed
