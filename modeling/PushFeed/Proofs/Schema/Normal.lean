import PushFeed.Proofs.Schema.Cache
import PushFeed.Proofs.Schema.Crossing
import PushFeed.Proofs.Wire.Normal
import PushFeed.Proofs.Wire.Extent
/-!
# Frames and values that settle

A value that has a frame reads back from it complete, and the value read back has the
same frame (`SchemaCache.decode_of_encode`). A frame need not come from a value: its fields
may stand in any order, come twice or be unknown. Yet the value of a frame has a frame of
its own, no longer than the first, and from there on nothing changes but the negative
zeros (`SchemaCache.encode_of_decode`).

Both hold of every cache in front of the built-in types, whatever it has loaded so far.
The length of a frame has to be a number of 64 bits, which that of every string of bytes
in memory is.
-/

namespace PushFeed

open Wire

namespace MessageType

variable {t : MessageType} {bundle : Bundle}

/-- All fields of the built-in types have their names in camel case as keys. -/
theorem hasCamelKeys_of_mem_builtin (hb : bundle ∈ Bundle.builtin) (ht : t ∈ bundle.types) :
    t.layout.hasCamelKeys = true := by
  have h : ∀ b ∈ Bundle.builtin, ∀ t ∈ b.types, t.layout.hasCamelKeys = true := by
    decide +kernel
  exact h bundle hb t ht

/-- A value with a frame is that of a conforming message, and the frame is the message's. -/
theorem encode_eq_ok {v : Json} {bytes : Bytes} (h : t.encode v = .ok bytes) :
    ∃ m, t.layout.ofJson t.name v = .ok m ∧ t.layout.verify m = .ok () ∧
      bytes = t.layout.encode m := by
  rw [encode] at h
  split at h
  · cases h
  · rename_i m hm
    obtain ⟨hverify, hbytes⟩ := encodeMessage_eq_ok_iff.1 h
    exact ⟨m, hm, hverify, hbytes.symm⟩

/-- A frame with a value is that of a conforming message, and the value is the message's. -/
theorem decode_eq_ok {w : Json} {bytes : Bytes} (h : t.decode bytes = .ok w) :
    ∃ m, t.decodeMessage bytes = .ok m ∧ w = t.layout.toJson m := by
  obtain ⟨m, hm, heq⟩ := exists_of_map_eq_ok h
  exact ⟨m, hm, heq.symm⟩

/-- The frame of a conforming message is no longer than any frame it is read from. -/
theorem length_encode_le {m : t.layout.Content} {bytes : Bytes}
    (h : t.decodeMessage bytes = .ok m) : (t.layout.encode m).length ≤ bytes.length := by
  obtain ⟨hdecode, hverify⟩ := decodeMessage_eq_ok_iff.1 h
  exact Layout.length_encode_le hdecode (Layout.verify_eq_ok_iff.1 hverify)

section Conforming

variable {m : t.layout.Content} (hb : bundle ∈ Bundle.builtin) (ht : t ∈ bundle.types)
  (hm : t.layout.verify m = .ok ())

include hb ht hm

/-- The value of a conforming message has the message's frame. -/
theorem encode_toJson : t.encode (t.layout.toJson m) = .ok (t.layout.encode m) := by
  have hkeys := (isSound_of_mem_builtin hb ht).2
  rw [encode, Layout.ofJson_toJson hkeys (Layout.verify_eq_ok_iff.1 hm)]
  simp only [encodeMessage, hm]

/-- So has the value without its negative zeros, which is that of the normal form. -/
theorem encode_plainZeros :
    t.encode (t.layout.toJson m).plainZeros = .ok (t.layout.encode m) := by
  have hnormal : t.layout.verify (t.layout.normal m) = .ok () := by
    rw [Layout.verify_normal, hm]
  rw [← Layout.toJson_normal, encode_toJson hb ht hnormal, Layout.encode_normal]

/-- The frame of a conforming message has the message's value, without negative zeros. -/
theorem decode_encode (hsize : (t.layout.encode m).length < twoTo 64) :
    t.decode (t.layout.encode m) = .ok (t.layout.toJson m).plainZeros := by
  rw [decode, decodeMessage_encode hb ht hm hsize, ← Layout.toJson_normal]
  rfl

end Conforming

end MessageType

namespace SchemaCache

variable {c : SchemaCache} {source typeName : String} {v w : Json} {bytes : Bytes}

/-- A cache encodes with the built-in type of a name. -/
theorem Faithful.encode_eq (hc : c.Faithful loadBuiltin) (source typeName : String) (v : Json) :
    (c.encode .builtin source typeName v).1 =
      (loadBuiltin source typeName).bind (·.encode v) :=
  (hc.withSchema source typeName _).1

/-- A cache decodes with the built-in type of a name. -/
theorem Faithful.decode_eq (hc : c.Faithful loadBuiltin) (source typeName : String)
    (bytes : Bytes) :
    (c.decode .builtin source typeName bytes).1 =
      (loadBuiltin source typeName).bind (·.decode bytes) :=
  (hc.withSchema source typeName _).1

/-- **A value reads back from its own frame.** What is read is the value of the message
that the first value stands for, with zeros for its negative zeros. It has every field
under its name in camel case, and its frame is the same, byte for byte. -/
theorem decode_of_encode (hc : c.Faithful loadBuiltin)
    (h : (c.encode .builtin source typeName v).1 = .ok bytes) (hsize : bytes.length < twoTo 64) :
    ∃ t m w, loadBuiltin source typeName = .ok t ∧ t.layout.ofJson t.name v = .ok m ∧
      w = (t.layout.toJson m).plainZeros ∧ t.layout.Complete w ∧
      ∀ c' : SchemaCache, c'.Faithful loadBuiltin →
        (c'.decode .builtin source typeName bytes).1 = .ok w ∧
        (c'.encode .builtin source typeName w).1 = .ok bytes := by
  rw [hc.encode_eq] at h
  obtain ⟨t, hload, hencode⟩ := exists_of_bind_eq_ok h
  obtain ⟨b, hb, ht⟩ := mem_builtin_of_loadBuiltin hload
  obtain ⟨m, hm, hverify, rfl⟩ := MessageType.encode_eq_ok hencode
  have hkeys := (isSound_of_mem_builtin hb ht).2
  have hcamel := MessageType.hasCamelKeys_of_mem_builtin hb ht
  refine ⟨t, m, _, hload, hm, rfl, ?_, fun c' hc' => ?_⟩
  · rw [← Layout.toJson_normal]
    exact Layout.complete_toJson hkeys hcamel _
  · rw [hc'.decode_eq, hc'.encode_eq, hload]
    exact ⟨MessageType.decode_encode hb ht hverify hsize,
      MessageType.encode_plainZeros hb ht hverify⟩

/-- A list of the first fields, with a whole number for an amount and a negative zero. -/
theorem decode_of_encode_level :
    (({} : SchemaCache).encode .builtin Topic.orderBookSchema "order_book.OrderLevel"
      (.arr [.num (.natural 1), .num (.double ⟨0x8000000000000000⟩)])).1 =
        .ok [9, 0, 0, 0, 0, 0, 0, 240, 63] ∧
    ∃ w, (({} : SchemaCache).decode .builtin Topic.orderBookSchema "order_book.OrderLevel"
      [9, 0, 0, 0, 0, 0, 0, 240, 63]).1 = .ok w ∧
    (({} : SchemaCache).encode .builtin Topic.orderBookSchema "order_book.OrderLevel" w).1 =
      .ok [9, 0, 0, 0, 0, 0, 0, 240, 63] := by
  have hencode : (({} : SchemaCache).encode .builtin Topic.orderBookSchema "order_book.OrderLevel"
      (.arr [.num (.natural 1), .num (.double ⟨0x8000000000000000⟩)])).1 =
        .ok [9, 0, 0, 0, 0, 0, 0, 240, 63] := by decide +kernel
  obtain ⟨t, m, w, -, -, -, -, hagain⟩ := decode_of_encode faithful_empty hencode (by decide)
  exact ⟨hencode, w, hagain {} faithful_empty⟩

/-- **The value of a frame settles.** It has a frame, which is no longer than the first
one and reads back as the value with zeros for its negative zeros; and so has that value
the same frame again. -/
theorem encode_of_decode (hc : c.Faithful loadBuiltin)
    (h : (c.decode .builtin source typeName bytes).1 = .ok w) (hsize : bytes.length < twoTo 64) :
    ∃ bytes' : Bytes, bytes'.length ≤ bytes.length ∧
      ∀ c' : SchemaCache, c'.Faithful loadBuiltin →
        (c'.encode .builtin source typeName w).1 = .ok bytes' ∧
        (c'.decode .builtin source typeName bytes').1 = .ok w.plainZeros ∧
        (c'.encode .builtin source typeName w.plainZeros).1 = .ok bytes' := by
  rw [hc.decode_eq] at h
  obtain ⟨t, hload, hdecode⟩ := exists_of_bind_eq_ok h
  obtain ⟨b, hb, ht⟩ := mem_builtin_of_loadBuiltin hload
  obtain ⟨m, hm, rfl⟩ := MessageType.decode_eq_ok hdecode
  have hverify := (MessageType.decodeMessage_eq_ok_iff.1 hm).2
  have hle := MessageType.length_encode_le hm
  refine ⟨t.layout.encode m, hle, fun c' hc' => ?_⟩
  rw [hc'.decode_eq, hc'.encode_eq, hc'.encode_eq, hload]
  exact ⟨MessageType.encode_toJson hb ht hverify,
    MessageType.decode_encode hb ht hverify (Nat.lt_of_le_of_lt hle hsize),
    MessageType.encode_plainZeros hb ht hverify⟩

/-- An unknown field, a number in more bytes than it needs and a negative zero, in the
wrong order. -/
theorem encode_of_decode_level :
    (({} : SchemaCache).decode .builtin Topic.orderBookSchema "order_book.OrderLevel"
      [32, 5, 24, 129, 128, 0, 9, 0, 0, 0, 0, 0, 0, 0, 128]).1 =
        .ok (.obj [("price", .num (.double ⟨0x8000000000000000⟩)), ("shares", .num (.double ⟨0⟩)),
          ("users", .num (.natural 1))]) ∧
    ∃ bytes : Bytes, bytes.length ≤ 15 ∧
      (({} : SchemaCache).decode .builtin Topic.orderBookSchema "order_book.OrderLevel" bytes).1 =
        .ok (.obj [("price", .num (.double ⟨0⟩)), ("shares", .num (.double ⟨0⟩)),
          ("users", .num (.natural 1))]) := by
  have hdecode : (({} : SchemaCache).decode .builtin Topic.orderBookSchema "order_book.OrderLevel"
      [32, 5, 24, 129, 128, 0, 9, 0, 0, 0, 0, 0, 0, 0, 128]).1 =
        .ok (.obj [("price", .num (.double ⟨0x8000000000000000⟩)), ("shares", .num (.double ⟨0⟩)),
          ("users", .num (.natural 1))]) := rfl
  obtain ⟨bytes, hle, hagain⟩ := encode_of_decode faithful_empty hdecode (by decide)
  exact ⟨hdecode, bytes, hle, (hagain {} faithful_empty).2.1⟩

end SchemaCache

end PushFeed
