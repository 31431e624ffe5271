import PushFeed.Number.Power
import PushFeed.Wire.Layout
import PushFeed.Json.Reader
/-!
# Messages as JSON

The structured form of a message has every field under its key, with an absent
message as null. Reading takes an object, in which unknown keys are passed over
and missing fields take their default, or the list of the fields from the first
on.
-/

namespace PushFeed.Wire

/-- The JSON value of a plain kind. -/
def Scalar.toJson : (s : Scalar) → s.Content → Json
  | .amount, (x : Binary64) => Json.ofBinary64 x
  | .count, (n : UInt32) => Json.ofUInt32 n
  | .moment, (n : Int64) => Json.ofInt64 n
  | .choice _, (n : Int32) => Json.ofInt32 n
  | .text, (s : String) => .str s
  | .optionalText, none => .null
  | .optionalText, some s => .str s

/-- A double from a number of any kind. -/
def binary64OfNumber : JsonNumber → Binary64
  | .natural n => Binary64.ofNat n.toNat
  | .integer n => Binary64.ofInt n.toInt
  | .double d => d

/-- An integer in the given range. -/
def integerOfNumber (low high : Int) (expected : String) : JsonNumber → Except JsonFault Int
  | .natural n =>
    if (n.toNat : Int) ≤ high then .ok n.toNat else .error (.wrongValue (.natural n) expected)
  | .integer n =>
    if low ≤ n.toInt then .ok n.toInt else .error (.wrongValue (.integer n) expected)
  | .double d => .error (.wrongType (.double d) expected)

/-- A value of a plain kind from JSON. -/
def Scalar.ofJson : (s : Scalar) → Json → Except JsonFault s.Content
  | .amount, .num n => .ok (binary64OfNumber n)
  | .amount, v => .error (.wrongType v.found "f64")
  | .count, v => Json.uint32Of v
  | .moment, .num n =>
    (integerOfNumber (-(twoTo 63)) (twoTo 63 - 1) "i64" n).map Int64.ofInt
  | .moment, v => .error (.wrongType v.found "i64")
  | .choice _, .num n =>
    (integerOfNumber (-(twoTo 31)) (twoTo 31 - 1) "i32" n).map Int32.ofInt
  | .choice _, v => .error (.wrongType v.found "i32")
  | .text, v => Json.textOf v
  | .optionalText, v => Json.optionOf Json.textOf v

/-- A record from an object or a list of its fields. -/
def recordOf {α : Type} (name : String) (keys : List String)
    (set : String → Json → α → Except JsonFault α) (start : α) : Json → Except JsonFault α
  | .obj entries => entries.foldlM (fun a e => set e.1 e.2 a) start
  | .arr items => do
    let a ← (keys.zip items).foldlM (fun a e => set e.1 e.2 a) start
    if items.length ≤ keys.length then .ok a
    else .error (.wrongLength items.length "fewer elements in array")
  | v => .error (.wrongType v.found ("struct " ++ name))

/-- A list from JSON. -/
def listOf {α : Type} (item : Json → Except JsonFault α) : Json → Except JsonFault (List α)
  | .arr items => items.mapM item
  | v => .error (.wrongType v.found "a sequence")

namespace Layout

/-- The entries of a message, in the order of its fields. -/
def entries : (l : Layout) → l.Content → List (String × Json)
  | .done, _ => []
  | .scalar slot kind rest, (x, more) => (slot.key, kind.toJson x) :: rest.entries more
  | .message slot _ inner rest, (m, more) =>
    (slot.key, match m with
      | none => .null
      | some m => Json.object (inner.entries m)) :: rest.entries more
  | .repeated slot _ inner rest, (ms, more) =>
    (slot.key, .arr (ms.map fun m => Json.object (inner.entries m))) :: rest.entries more

/-- The structured form of a message. -/
def toJson (l : Layout) (c : l.Content) : Json := Json.object (l.entries c)

/-- Sets the field of a key; a key of no field changes nothing. -/
def setField : (l : Layout) → String → Json → l.Content → Except JsonFault l.Content
  | .done, _, _, c => .ok c
  | .scalar slot kind rest, key, v, (x, more) =>
    if key = slot.key then (kind.ofJson v).map (·, more)
    else (rest.setField key v more).map (x, ·)
  | .message slot name inner rest, key, v, (m, more) =>
    if key = slot.key then
      (Json.optionOf (recordOf name inner.keys inner.setField inner.default) v).map (·, more)
    else (rest.setField key v more).map (m, ·)
  | .repeated slot name inner rest, key, v, (ms, more) =>
    if key = slot.key then
      (listOf (recordOf name inner.keys inner.setField inner.default) v).map (·, more)
    else (rest.setField key v more).map (ms, ·)

/-- A message from its structured form. -/
def ofJson (name : String) (l : Layout) : Json → Except JsonFault l.Content :=
  recordOf name l.keys l.setField l.default

end Layout

end PushFeed.Wire
