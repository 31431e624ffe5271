import PushFeed.Number.Power
import PushFeed.Wire.Fault
/-!
# Fields on the wire

A field is a key, which holds its number and wire type, and a value. Here are the
keys, the values of the plain kinds, and passing over a field of unknown number.
-/

namespace PushFeed.Wire

/-- How deep messages and groups may be nested. -/
def depthLimit : Nat := 100

/-- The key of a field. -/
def key (number : Nat) (w : WireType) : Bytes := varint (number * 8 + w.code)

/-- Reads a number. -/
def readVarint (bytes : Bytes) : Except Cause (Nat × Bytes) :=
  match readVarint? bytes with
  | some r => .ok r
  | none => .error .invalidVarint

/-- Reads a key: the field's number, its wire type and the bytes after it. -/
def readKey (bytes : Bytes) : Except Cause (Nat × WireType × Bytes) := do
  let (k, rest) ← readVarint bytes
  if twoTo 32 ≤ k then .error (.invalidKey k)
  else
    match WireType.ofCode? (k % 8) with
    | none => .error (.unknownWireType (k % 8))
    | some w => if k / 8 = 0 then .error .zeroTag else .ok (k / 8, w, rest)

/-- Refuses a field that is not laid out as its kind is. -/
def expectWire (actual expected : WireType) : Except Cause Unit :=
  if actual = expected then .ok () else .error (.wireTypeMismatch actual expected)

/-- Takes so many bytes off the front. -/
def takeBytes (count : Nat) (bytes : Bytes) : Except Cause (Bytes × Bytes) :=
  if bytes.length < count then .error .underflow
  else .ok (bytes.take count, bytes.drop count)

/-- Reads a length and so many bytes. -/
def readDelimited (bytes : Bytes) : Except Cause (Bytes × Bytes) := do
  let (count, rest) ← readVarint bytes
  takeBytes count rest

/-- A length and the bytes it counts. -/
def delimited (body : Bytes) : Bytes := varint body.length ++ body

/-- A text's bytes. -/
def utf8 (s : String) : Bytes := s.toUTF8.data.toList

/-- The text of some bytes. -/
def ofUtf8? (bytes : Bytes) : Option String := String.fromUTF8? ⟨bytes.toArray⟩

/-- Eight bytes of a number, the lowest first. -/
def fixed64 (n : Nat) : Bytes :=
  (List.range 8).map fun i => UInt8.ofNat (n / bytesTo i % 256)

/-- The number of some bytes, the lowest first. -/
def ofLittleEndian : Bytes → Nat
  | [] => 0
  | b :: rest => b.toNat + 256 * ofLittleEndian rest

/-- Passes over fields up to the end of a group, in at most so many steps. -/
def skipGroupWithin (skip : WireType → Nat → Bytes → Except Cause Bytes) (number : Nat) :
    Nat → Bytes → Except Cause Bytes
  | 0, _ => .error .invalidVarint
  | fuel + 1, bytes => do
    let (inner, w, rest) ← readKey bytes
    if w = .endGroup then
      if inner = number then .ok rest else .error .unexpectedEndGroup
    else
      let rest ← skip w inner rest
      skipGroupWithin skip number fuel rest

/-- Passes over the value of a field, with groups nested at most so deep. Each field
of a group has at least one byte, so the bytes left bound their number. -/
def skipField : Nat → WireType → Nat → Bytes → Except Cause Bytes
  | 0, _, _, _ => .error .recursionLimit
  | depth + 1, w, number, bytes =>
    match w with
    | .varint => (readVarint bytes).map (·.2)
    | .thirtyTwo => (takeBytes 4 bytes).map (·.2)
    | .sixtyFour => (takeBytes 8 bytes).map (·.2)
    | .delimited => (readDelimited bytes).map (·.2)
    | .startGroup => skipGroupWithin (skipField depth) number (bytes.length + 1) bytes
    | .endGroup => .error .unexpectedEndGroup

end PushFeed.Wire
