import PushFeed.Wire.Varint
/-!
# Why a frame is no message

The cause, and the declared fields around it from the innermost out. A fault in a
field that the layout does not declare names the fields around that field only.
-/

namespace PushFeed.Wire

/-- How the bytes of a field are laid out. -/
inductive WireType where
  | varint
  | sixtyFour
  | delimited
  | startGroup
  | endGroup
  | thirtyTwo
  deriving DecidableEq, Repr

/-- The code of a wire type, the low three bits of a key. -/
def WireType.code : WireType → Nat
  | .varint => 0
  | .sixtyFour => 1
  | .delimited => 2
  | .startGroup => 3
  | .endGroup => 4
  | .thirtyTwo => 5

/-- The wire type of a code. -/
def WireType.ofCode? : Nat → Option WireType
  | 0 => some .varint
  | 1 => some .sixtyFour
  | 2 => some .delimited
  | 3 => some .startGroup
  | 4 => some .endGroup
  | 5 => some .thirtyTwo
  | _ => none

/-- The name of a wire type in messages. -/
def WireType.name : WireType → String
  | .varint => "Varint"
  | .sixtyFour => "SixtyFourBit"
  | .delimited => "LengthDelimited"
  | .startGroup => "StartGroup"
  | .endGroup => "EndGroup"
  | .thirtyTwo => "ThirtyTwoBit"

/-- Each code is the code of its type. -/
theorem WireType.ofCode?_code (w : WireType) : WireType.ofCode? w.code = some w := by
  cases w <;> rfl

/-- What is wrong with a frame. -/
inductive Cause where
  /-- The bytes end before a number does, or it has too many of them. -/
  | invalidVarint
  /-- A key of more than 32 bits. -/
  | invalidKey (key : Nat)
  /-- A key with a code that is no wire type. -/
  | unknownWireType (code : Nat)
  /-- A key with the field number zero. -/
  | zeroTag
  /-- A declared field laid out in another way. -/
  | wireTypeMismatch (actual expected : WireType)
  /-- The bytes end before a field does. -/
  | underflow
  /-- A field goes on past the end of the message around it. -/
  | lengthExceeded
  /-- The end of a group that is not open. -/
  | unexpectedEndGroup
  /-- Messages and groups nested too deep. -/
  | recursionLimit
  /-- A text that is not UTF-8. -/
  | notUtf8
  deriving DecidableEq, Repr

/-- The text of a cause. -/
def Cause.message : Cause → String
  | .invalidVarint => "invalid varint"
  | .invalidKey key => "invalid key value: " ++ toString key
  | .unknownWireType code => "invalid wire type value: " ++ toString code
  | .zeroTag => "invalid tag value: 0"
  | .wireTypeMismatch actual expected =>
    "invalid wire type: " ++ actual.name ++ " (expected " ++ expected.name ++ ")"
  | .underflow => "buffer underflow"
  | .lengthExceeded => "delimited length exceeded"
  | .unexpectedEndGroup => "unexpected end group tag"
  | .recursionLimit => "recursion limit reached"
  | .notUtf8 => "invalid string value: data is not UTF-8 encoded"

/-- A cause and where it was met. -/
structure Fault where
  /-- What is wrong. -/
  cause : Cause
  /-- Message and field, from the innermost declared field out. -/
  path : List (String × String)
  deriving DecidableEq, Repr

namespace Fault

/-- The text of a fault. -/
def message (f : Fault) : String :=
  "failed to decode Protobuf message: " ++
    String.join (f.path.map fun p => p.1 ++ "." ++ p.2 ++ ": ") ++ f.cause.message

/-- A fault outside every declared field. -/
def ofCause (cause : Cause) : Fault := ⟨cause, []⟩

/-- The fault as the message around the field sees it. -/
def within (owner field : String) (f : Fault) : Fault :=
  { f with path := f.path ++ [(owner, field)] }

end Fault

end PushFeed.Wire
