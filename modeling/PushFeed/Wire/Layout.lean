import PushFeed.Wire.Field
import PushFeed.Number.Binary64
/-!
# Message layouts

A `Layout` lists the fields of a message in the order of their numbers; the
fields of a nested message stand inside it. `Layout.Content` is the type of the
messages of a layout, so that one definition of reading, writing and checking
serves every message type.
-/

namespace PushFeed.Wire

/-- The plain kinds of value. -/
inductive Scalar where
  /-- A double that has to be finite and not negative. -/
  | amount
  /-- A 32-bit count. -/
  | count
  /-- A 64-bit integer that must not be negative. -/
  | moment
  /-- A 32-bit integer that has to be below the given number of choices. -/
  | choice (choices : Nat)
  /-- A text. -/
  | text
  /-- A text that may be absent. -/
  | optionalText
  deriving DecidableEq, Repr

/-- What a field of a kind holds. -/
abbrev Scalar.Content : Scalar → Type
  | .amount => Binary64
  | .count => UInt32
  | .moment => Int64
  | .choice _ => Int32
  | .text => String
  | .optionalText => Option String

/-- What a field holds that the frame does not mention. -/
def Scalar.default : (s : Scalar) → s.Content
  | .amount => Binary64.zero
  | .count => (0 : UInt32)
  | .moment => (0 : Int64)
  | .choice _ => (0 : Int32)
  | .text => ""
  | .optionalText => none

/-- The number and the two names of a field. -/
structure Slot where
  /-- The field's number on the wire. -/
  number : Nat
  /-- The field's name in faults. -/
  name : String
  /-- The field's key in JSON. -/
  key : String
  deriving DecidableEq, Repr

/-- The fields of a message. -/
inductive Layout where
  /-- No further field. -/
  | done
  /-- A field of a plain kind. -/
  | scalar (slot : Slot) (kind : Scalar) (rest : Layout)
  /-- A nested message of the given name, which may be absent. -/
  | message (slot : Slot) (name : String) (inner rest : Layout)
  /-- Any number of nested messages of the given name. -/
  | repeated (slot : Slot) (name : String) (inner rest : Layout)
  deriving DecidableEq, Repr

namespace Layout

/-- The messages of a layout. -/
@[reducible] def Content : Layout → Type
  | .done => Unit
  | .scalar _ kind rest => kind.Content × rest.Content
  | .message _ _ inner rest => Option inner.Content × rest.Content
  | .repeated _ _ inner rest => List inner.Content × rest.Content

/-- The message of an empty frame. -/
def default : (l : Layout) → l.Content
  | .done => ()
  | .scalar _ kind rest => (kind.default, rest.default)
  | .message _ _ _ rest => (none, rest.default)
  | .repeated _ _ _ rest => ([], rest.default)

/-- The JSON keys of the fields, in order. -/
def keys : Layout → List String
  | .done => []
  | .scalar slot _ rest => slot.key :: rest.keys
  | .message slot _ _ rest => slot.key :: rest.keys
  | .repeated slot _ _ rest => slot.key :: rest.keys

/-- The numbers of the fields, in order. -/
def numbers : Layout → List Nat
  | .done => []
  | .scalar slot _ rest => slot.number :: rest.numbers
  | .message slot _ _ rest => slot.number :: rest.numbers
  | .repeated slot _ _ rest => slot.number :: rest.numbers

end Layout

end PushFeed.Wire
