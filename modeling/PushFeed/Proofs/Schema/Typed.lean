import PushFeed.Proofs.Schema.Normal
/-!
# Frames read as a type

A frame can be decoded straight into a message type: its structured value is then read
back by the type's own reader. Of the messages that reach a structured value this loses
nothing, for those whose numbers JSON cannot carry have been refused before
(`MessageType.typedValue_decode`). So a frame decodes as its type exactly when it has a
structured value, and what comes out is the message on the wire
(`SchemaCache.Faithful.decodeAs_eq`).
-/

namespace PushFeed

open Wire

namespace MessageType

variable {α : Type} {t found : MessageType} {bundle bundle' : Bundle} {source : String}

/-- The built-in types have different names. -/
theorem eq_of_typeName (hb : bundle ∈ Bundle.builtin) (ht : t ∈ bundle.types)
    (hb' : bundle' ∈ Bundle.builtin) (hfound : found ∈ bundle'.types)
    (h : found.typeName = t.typeName) : found = t := by
  have hnames : ∀ b ∈ Bundle.builtin, ∀ t ∈ b.types, ∀ b' ∈ Bundle.builtin, ∀ t' ∈ b'.types,
      t'.typeName = t.typeName → t' = t := by
    decide +kernel
  exact hnames bundle hb t ht bundle' hb' found hfound h

/-- What is found under a name has that name. -/
theorem typeName_of_loadBuiltin {typeName : String} (h : loadBuiltin source typeName = .ok found) :
    found.typeName = typeName := by
  rw [loadBuiltin, loadFrom] at h
  split at h
  · cases h
  · split at h
    · cases h
    · split at h
      · rename_i t hlookup
        cases h
        have hname := List.find?_some hlookup
        exact eq_of_beq hname
      · cases h

/-- What is found under the name of a built-in type is that type, if anything is. -/
theorem eq_of_loadBuiltin (hb : bundle ∈ Bundle.builtin) (ht : t ∈ bundle.types)
    (h : loadBuiltin source t.typeName = .ok found) : found = t := by
  obtain ⟨bundle', hb', hfound⟩ := mem_builtin_of_loadBuiltin h
  exact eq_of_typeName hb ht hb' hfound (typeName_of_loadBuiltin h)

/-- **The way over the structured value loses nothing.** Reading it back as the type gives
the message of the frame, and where there is none the same error. -/
theorem typedValue_decode (hkeys : t.layout.hasOwnKeys = true)
    {reader : Json → Except JsonFault α} {shown : t.layout.Content → α}
    (hreader : ∀ v, reader v = (t.layout.ofJson t.name v).map shown) (typeName : String)
    (bytes : Bytes) :
    (t.decode bytes).bind (typedValue typeName reader) = (t.decodeMessage bytes).map shown := by
  rw [decode]
  cases hdecode : t.decodeMessage bytes with
  | error e => rfl
  | ok m =>
    -- a message that has got so far has no number that JSON could not carry
    have hconforms := Layout.verify_eq_ok_iff.1 (decodeMessage_eq_ok_iff.1 hdecode).2
    have hread : reader (t.layout.toJson m) = .ok (shown m) := by
      rw [hreader, Layout.ofJson_toJson hkeys hconforms]
      rfl
    show typedValue typeName reader (t.layout.toJson m) = .ok (shown m)
    rw [typedValue, hread]

end MessageType

namespace SchemaCache

variable {α : Type} {c : SchemaCache} {t : MessageType} {bundle : Bundle}

/-- **A cache decodes a built-in type as the message on the wire**, if it finds the type. -/
theorem Faithful.decodeAs_eq (hc : c.Faithful loadBuiltin) (hb : bundle ∈ Bundle.builtin)
    (ht : t ∈ bundle.types) {reader : Json → Except JsonFault α} {shown : t.layout.Content → α}
    (hreader : ∀ v, reader v = (t.layout.ofJson t.name v).map shown) (source : String)
    (bytes : Bytes) :
    (c.decodeAs reader .builtin source t.typeName bytes).1 =
      (loadBuiltin source t.typeName).bind fun _ => (t.decodeMessage bytes).map shown := by
  refine (hc.withSchema source t.typeName _).1.trans ?_
  cases hload : loadBuiltin source t.typeName with
  | error e => rfl
  | ok found =>
    obtain rfl := MessageType.eq_of_loadBuiltin hb ht hload
    exact MessageType.typedValue_decode (isSound_of_mem_builtin hb ht).2 hreader _ bytes

section Own

variable (hc : c.Faithful loadBuiltin) (hb : bundle ∈ Bundle.builtin) (ht : t ∈ bundle.types)
  (source : String) (bytes : Bytes)

include hc hb ht

/-- A built-in type that reads its own messages. -/
theorem Faithful.decodeAs_own :
    (c.decodeAs (t.layout.ofJson t.name) .builtin source t.typeName bytes).1 =
      (loadBuiltin source t.typeName).bind fun _ => t.decodeMessage bytes := by
  have hown : ∀ v, t.layout.ofJson t.name v = (t.layout.ofJson t.name v).map id := by
    intro v
    rw [Except.map_id, id_eq]
  rw [hc.decodeAs_eq hb ht hown, Except.map_id]
  rfl

/-- **The structured value of a frame is that of its message**, and fails with it. -/
theorem Faithful.decode_own :
    (c.decode .builtin source t.typeName bytes).1 =
      (c.decodeAs (t.layout.ofJson t.name) .builtin source t.typeName bytes).1.map
        t.layout.toJson := by
  rw [hc.decode_eq, hc.decodeAs_own hb ht]
  cases hload : loadBuiltin source t.typeName with
  | error e => rfl
  | ok found =>
    obtain rfl := MessageType.eq_of_loadBuiltin hb ht hload
    rfl

/-- What is decoded is the conforming message on the wire. -/
theorem Faithful.decodeAs_own_eq_ok_iff {m : t.layout.Content} :
    (c.decodeAs (t.layout.ofJson t.name) .builtin source t.typeName bytes).1 = .ok m ↔
      loadBuiltin source t.typeName = .ok t ∧
        t.layout.decode t.name bytes = .ok m ∧ t.layout.verify m = .ok () := by
  rw [hc.decodeAs_own hb ht, ← MessageType.decodeMessage_eq_ok_iff]
  constructor
  · intro h
    obtain ⟨found, hload, hdecode⟩ := exists_of_bind_eq_ok h
    rw [MessageType.eq_of_loadBuiltin hb ht hload] at hload
    exact ⟨hload, hdecode⟩
  · rintro ⟨hload, hdecode⟩
    rw [hload]
    exact hdecode

end Own

end SchemaCache

end PushFeed
