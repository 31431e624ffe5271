import PushFeed.Wire.Layout
/-!
# Writing messages

A field that holds what an absent field would is left out; a field that may be
absent is written whenever it is there, even if empty.
-/

namespace PushFeed.Wire

/-- A field of a plain kind, or nothing where it holds the default. -/
def Scalar.encode (number : Nat) : (s : Scalar) → s.Content → Bytes
  | .amount, (x : Binary64) =>
    if x.isZero then [] else key number .sixtyFour ++ fixed64 x.bits.toNat
  | .count, (n : UInt32) => if n = 0 then [] else key number .varint ++ varint n.toNat
  | .moment, (n : Int64) =>
    if n = 0 then [] else key number .varint ++ varint n.toUInt64.toNat
  | .choice _, (n : Int32) =>
    if n = 0 then [] else key number .varint ++ varint n.toInt64.toUInt64.toNat
  | .text, (s : String) => if s = "" then [] else key number .delimited ++ delimited (utf8 s)
  | .optionalText, none => []
  | .optionalText, some s => key number .delimited ++ delimited (utf8 s)

namespace Layout

/-- A message's bytes, its fields in order. -/
def encode : (l : Layout) → l.Content → Bytes
  | .done, _ => []
  | .scalar slot kind rest, (x, more) => kind.encode slot.number x ++ rest.encode more
  | .message slot _ inner rest, (m, more) =>
    (match m with
      | none => []
      | some m => key slot.number .delimited ++ delimited (inner.encode m)) ++ rest.encode more
  | .repeated slot _ inner rest, (ms, more) =>
    ms.flatMap (fun m => key slot.number .delimited ++ delimited (inner.encode m)) ++
      rest.encode more

end Layout

end PushFeed.Wire
