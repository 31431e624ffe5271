import PushFeed.Schema.Catalog
import PushFeed.Wire.Reading
import PushFeed.Wire.Writing
import PushFeed.Wire.Conformance
import PushFeed.Wire.Structured
/-!
# Frames and structured values

Decoding turns a frame into a structured value, encoding a structured value into
a frame; both let only conforming messages through. A frame that cannot be read is
sorted by the text of its fault into truncated, foreign and malformed ones.
-/

namespace PushFeed

/-- Whether the last byte of a frame says that another one follows it. -/
def endsOpen (bytes : Wire.Bytes) : Bool :=
  match bytes.getLast? with
  | some b => decide (128 ≤ b.toNat)
  | none => false

/-- The kind of error for a frame that cannot be read, by the text of its fault. -/
def classifyFault (text : String) (bytes : Wire.Bytes) : FeedError :=
  let mentions (part : String) : Bool := Text.occursIn part.toList text.toList
  if mentions "buffer underflow" || (mentions "invalid varint" && endsOpen bytes) then
    .truncatedFrame text
  else if mentions "invalid wire type: " then .foreignFrame text
  else .decode text

namespace MessageType

/-- A text with the type's name before it. -/
def about (t : MessageType) (text : String) : String := t.typeName ++ ": " ++ text

/-- The conforming message of a frame. -/
def decodeMessage (t : MessageType) (bytes : Wire.Bytes) : Except FeedError t.layout.Content :=
  match t.layout.decode t.name bytes with
  | .error fault => .error (classifyFault (t.about fault.message) bytes)
  | .ok m =>
    match t.layout.verify m with
    | .error violation => .error (.decode (t.about violation.text))
    | .ok () => .ok m

/-- The structured value of a frame. -/
def decode (t : MessageType) (bytes : Wire.Bytes) : Except FeedError Json :=
  (t.decodeMessage bytes).map t.layout.toJson

/-- The frame of a conforming message. -/
def encodeMessage (t : MessageType) (m : t.layout.Content) : Except FeedError Wire.Bytes :=
  match t.layout.verify m with
  | .error violation => .error (.validation (t.about violation.text))
  | .ok () => .ok (t.layout.encode m)

/-- The frame of a structured value. -/
def encode (t : MessageType) (value : Json) : Except FeedError Wire.Bytes :=
  match t.layout.ofJson t.name value with
  | .error fault => .error (.validation (t.about fault.message))
  | .ok m => t.encodeMessage m

end MessageType

/-- A structured value read as another type, by the given reader. -/
def typedValue {α : Type} (typeName : String) (reader : Json → Except JsonFault α)
    (value : Json) : Except FeedError α :=
  match reader value with
  | .ok a => .ok a
  | .error fault => .error (.decode (typeName ++ ": " ++ fault.message))

end PushFeed
