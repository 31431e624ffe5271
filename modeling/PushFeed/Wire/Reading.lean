import PushFeed.Wire.Layout
/-!
# Reading messages

Fields are taken in the order of the frame and merged into the message read so
far: a later plain value takes the place of an earlier one, nested messages merge,
repeated ones append, and fields of other numbers are passed over. A nested
message is read from the bytes of the whole frame; its end is checked after each
of its fields.
-/

namespace PushFeed.Wire

/-- Reads the value of a field of a plain kind. Numbers of 32 bits keep the low
half of what was written. -/
def Scalar.read (w : WireType) (bytes : Bytes) : (s : Scalar) → Except Cause (s.Content × Bytes)
  | .amount => do
    expectWire w .sixtyFour
    let (body, rest) ← takeBytes 8 bytes
    .ok (Binary64.mk (UInt64.ofNat (ofLittleEndian body)), rest)
  | .count => do
    expectWire w .varint
    let (n, rest) ← readVarint bytes
    .ok (UInt32.ofNat n, rest)
  | .moment => do
    expectWire w .varint
    let (n, rest) ← readVarint bytes
    .ok (Int64.ofNat n, rest)
  | .choice _ => do
    expectWire w .varint
    let (n, rest) ← readVarint bytes
    .ok (Int32.ofNat n, rest)
  | .text => do
    let (s, rest) ← readText w bytes
    .ok (s, rest)
  | .optionalText => do
    let (s, rest) ← readText w bytes
    .ok (some s, rest)
where
  /-- Reads a text. -/
  readText (w : WireType) (bytes : Bytes) : Except Cause (String × Bytes) := do
    expectWire w .delimited
    let (body, rest) ← readDelimited bytes
    match ofUtf8? body with
    | some s => .ok (s, rest)
    | none => .error .notUtf8

/-- A cause outside every declared field. -/
def bare {α : Type} : Except Cause α → Except Fault α
  | .ok a => .ok a
  | .error c => .error (.ofCause c)

/-- The outcome of a field as the message around it sees it. -/
def inField {α : Type} (owner : String) (slot : Slot) : Except Fault α → Except Fault α
  | .ok a => .ok a
  | .error f => .error (f.within owner slot.name)

/-- Reads fields while more bytes are left than `limit`, in at most so many steps. -/
def readFieldsWithin {α : Type} (field : Nat → WireType → α → Bytes → Except Fault (α × Bytes))
    (limit : Nat) : Nat → α → Bytes → Except Fault (α × Bytes)
  | 0, a, bytes => .ok (a, bytes)
  | fuel + 1, a, bytes =>
    if bytes.length ≤ limit then .ok (a, bytes)
    else do
      let (number, w, rest) ← bare (readKey bytes)
      let (a, rest) ← field number w a rest
      readFieldsWithin field limit fuel a rest

/-- Reads a nested message into what there is of it. -/
def readNested {α : Type} (field : Nat → Nat → WireType → α → Bytes → Except Fault (α × Bytes))
    (depth : Nat) (w : WireType) (a : α) (bytes : Bytes) : Except Fault (α × Bytes) := do
  bare (expectWire w .delimited)
  match depth with
  | 0 => .error (.ofCause .recursionLimit)
  | depth + 1 =>
    let (count, rest) ← bare (readVarint bytes)
    if rest.length < count then .error (.ofCause .underflow)
    else
      let limit := rest.length - count
      let (a, rest) ← readFieldsWithin (field depth) limit rest.length a rest
      if rest.length = limit then .ok (a, rest) else .error (.ofCause .lengthExceeded)

namespace Layout

/-- Merges the value of a field into a message; `owner` is what faults call the
message. -/
def mergeField (owner : String) :
    (l : Layout) → Nat → Nat → WireType → l.Content → Bytes → Except Fault (l.Content × Bytes)
  | .done, depth, number, w, c, bytes => do
    let rest ← bare (skipField depth w number bytes)
    .ok (c, rest)
  | .scalar slot kind rest, depth, number, w, (x, more), bytes =>
    if number = slot.number then do
      let (x, left) ← inField owner slot (bare (kind.read w bytes))
      .ok ((x, more), left)
    else do
      let (more, left) ← mergeField owner rest depth number w more bytes
      .ok ((x, more), left)
  | .message slot name inner rest, depth, number, w, (m, more), bytes =>
    if number = slot.number then do
      let (m, left) ← inField owner slot
        (readNested (mergeField name inner) depth w (m.getD inner.default) bytes)
      .ok ((some m, more), left)
    else do
      let (more, left) ← mergeField owner rest depth number w more bytes
      .ok ((m, more), left)
  | .repeated slot name inner rest, depth, number, w, (ms, more), bytes =>
    if number = slot.number then do
      let (m, left) ← inField owner slot
        (readNested (mergeField name inner) depth w inner.default bytes)
      .ok ((ms ++ [m], more), left)
    else do
      let (more, left) ← mergeField owner rest depth number w more bytes
      .ok ((ms, more), left)

/-- Reads a whole frame. -/
def decode (owner : String) (l : Layout) (bytes : Bytes) : Except Fault l.Content := do
  let (c, _) ← readFieldsWithin (l.mergeField owner depthLimit) 0 bytes.length l.default bytes
  .ok c

end Layout

end PushFeed.Wire
