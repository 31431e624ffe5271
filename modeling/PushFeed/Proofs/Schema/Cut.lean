import PushFeed.Proofs.Schema.Crossing
import PushFeed.Proofs.Wire.Cut
import PushFeed.Proofs.Wire.Extent
/-!
# What is reported of a cut frame

A frame of a built-in type that is cut off is that of a shorter message, if the cut is
between two fields, or it is truncated. The exception is a cut right behind the key of a
field whose value begins with a number or a length (`MessageType.decode_take`). There is
no byte of the number at all, so none says that another one follows, and the frame is
taken for a malformed one.
-/

namespace PushFeed

open Wire

/-! ## The end of a frame -/

/-- The last byte of a frame is that of what stands at its end. -/
theorem endsOpen_append {front back : Bytes} (h : back ≠ []) :
    endsOpen (front ++ back) = endsOpen back := by
  rw [endsOpen, endsOpen, List.getLast?_append_of_ne_nil _ h]

theorem endsOpen_append_of_allOpen {bytes tail : Bytes} (hpos : 0 < tail.length)
    (h : AllOpen tail) : endsOpen (bytes ++ tail) = true := by
  have hne := List.ne_nil_of_length_pos hpos
  have hopen := h (tail.getLast hne) (List.getLast_mem hne)
  rw [endsOpen_append hne, endsOpen, List.getLast?_eq_some_getLast hne]
  exact decide_eq_true hopen

/-- No key says that another byte follows it. -/
theorem endsOpen_append_key {number : Nat} (hn : IsFieldNumber number) (bytes : Bytes)
    (w : WireType) : endsOpen (bytes ++ key number w) = false := by
  have hcode : w.code < 8 := by cases w <;> decide
  have hsmall : number * 8 + w.code < Nat.pow 128 10 := by
    have hbound : twoTo 29 * 8 < Nat.pow 128 10 := by decide
    have hnumber := hn.2
    omega
  obtain ⟨b, hb, hlast⟩ := getLast?_varintWithin 10 hsmall (by decide)
  rw [endsOpen_append (key_ne_nil number w), endsOpen, key, varint, hb]
  exact decide_eq_false (Nat.not_le.2 hlast)

namespace MessageType

variable {t : MessageType} {bundle : Bundle}

/-! ## Cut frames -/

section Cut

variable {m : t.layout.Content} {k : Nat} (hb : bundle ∈ Bundle.builtin) (ht : t ∈ bundle.types)
  (hsize : (t.layout.encode m).length < twoTo 64)

include hb ht hsize

/-- **Behind the key of a field** whose value begins with a number or a length, a cut frame
is malformed. -/
theorem decode_take_of_cutBehindKey (hcut : t.layout.CutBehindKey m k) :
    ∃ text, t.decode ((t.layout.encode m).take k) = .error (.decode text) := by
  obtain ⟨before, r, after, hsplit, hwire, rfl⟩ := hcut
  have hsound := (isSound_of_mem_builtin hb ht).1
  have hvalue : 0 < r.value.bytes.length := by
    cases hv : r.value with
    | number n => exact List.length_pos_iff.2 (varint_ne_nil n)
    | eight n => exact absurd (by rw [hv]; rfl) hwire
    | body b =>
      rw [FieldValue.bytes, delimited, List.length_append]
      exact Nat.add_pos_left (List.length_pos_iff.2 (varint_ne_nil _)) _
  have hnumber : IsFieldNumber r.number := by
    refine Layout.isFieldNumber_of_mem_numbers hsound (Layout.number_mem_of_mem_records (c := m) ?_)
    rw [hsplit]
    exact List.mem_append_right _ List.mem_cons_self
  obtain ⟨field, -, hdecode⟩ := Layout.decode_cut hsound hsize t.name hsplit hvalue
  rw [List.take_zero, List.append_nil, FieldValue.cutCause_zero hwire] at hdecode
  have hle : r.key.length ≤ r.bytes.length := by
    rw [FieldRecord.bytes, List.length_append]
    exact Nat.le_add_right _ _
  rw [Layout.encode_eq, hsplit, take_frameOf hle, FieldRecord.bytes, List.take_left,
    decode_eq_errorOf hb ht hdecode]
  exact ⟨_, congrArg Except.error
    (errorOf_of_not (by simp) rfl fun _ => endsOpen_append_key hnumber _ _)⟩

/-- **Anywhere else** the frame is that of a shorter message or truncated. -/
theorem decode_take_cases (hm : t.layout.verify m = .ok ())
    (hk : k < (t.layout.encode m).length) :
    t.layout.CutBehindKey m k ∨
      (∃ w, t.decode ((t.layout.encode m).take k) = .ok w) ∨
        ∃ text, t.decode ((t.layout.encode m).take k) = .error (.truncatedFrame text) := by
  have hsound := (isSound_of_mem_builtin hb ht).1
  obtain ⟨before, r, after, hsplit, htake | ⟨j, hpos, hj, htake⟩ | ⟨i, hi, rfl, htake⟩⟩ :=
    Layout.exists_take_cases hk
  · -- between two fields
    have hfirst := Layout.violation?_first (Layout.verify_eq_ok_iff.1 hm) before.length
    refine .inr (.inl ⟨t.layout.toJson (t.layout.normal (t.layout.first before.length m)), ?_⟩)
    rw [htake, decode, decodeMessage, Layout.decode_frameOf hsound hsize hsplit]
    simp only [Layout.verify_normal, Layout.verify_eq_ok_iff.2 hfirst]
    rfl
  · -- in a key
    have hopen : AllOpen (r.key.take j) := allOpen_take_varintWithin hj
    have hlength : (r.key.take j).length = j := List.length_take_of_le (Nat.le_of_lt hj)
    rw [htake, decode_eq_errorOf hb ht (Layout.decode_cut_key hsound hsize hsplit hpos hj)]
    exact .inr (.inr ⟨_, congrArg Except.error
      (errorOf_of_endsOpen (endsOpen_append_of_allOpen (by omega) hopen))⟩)
  · -- in a value, or right before it
    obtain ⟨field, -, hdecode⟩ := Layout.decode_cut hsound hsize t.name hsplit hi
    rw [htake, decode_eq_errorOf hb ht hdecode]
    rcases FieldValue.cutCause_cases hi with hcause | ⟨hcause, hopen⟩
    · rw [hcause]
      exact .inr (.inr ⟨_, rfl⟩)
    · rcases Nat.eq_zero_or_pos i with rfl | hsome
      · refine .inl ⟨before, r, after, hsplit, fun hwire => ?_, rfl⟩
        rw [FieldValue.cutCause_of_wire hwire] at hcause
        cases hcause
      · have hlength : (r.value.bytes.take i).length = i :=
          List.length_take_of_le (Nat.le_of_lt hi)
        rw [hcause, ← List.append_assoc]
        exact .inr (.inr ⟨_, congrArg Except.error
          (errorOf_of_endsOpen (endsOpen_append_of_allOpen (by omega) hopen))⟩)

end Cut

/-- **What is reported of a cut frame.** The frame of a conforming message, cut anywhere,
is malformed if and only if the cut is right behind the key of a field whose value begins
with a number or a length. Everywhere else it is the frame of a shorter message, or
truncated; it is never a foreign one. -/
theorem decode_take (hb : bundle ∈ Bundle.builtin) (ht : t ∈ bundle.types)
    {m : t.layout.Content} (hm : t.layout.verify m = .ok ())
    (hsize : (t.layout.encode m).length < twoTo 64) {k : Nat}
    (hk : k < (t.layout.encode m).length) :
    ((∃ text, t.decode ((t.layout.encode m).take k) = .error (.decode text)) ↔
        t.layout.CutBehindKey m k) ∧
      (t.layout.CutBehindKey m k ∨
        (∃ w, t.decode ((t.layout.encode m).take k) = .ok w) ∨
          ∃ text, t.decode ((t.layout.encode m).take k) = .error (.truncatedFrame text)) := by
  have hcases := decode_take_cases hb ht hsize hm hk
  refine ⟨⟨?_, decode_take_of_cutBehindKey hb ht hsize⟩, hcases⟩
  rintro ⟨text, htext⟩
  rcases hcases with hcut | ⟨w, hw⟩ | ⟨other, hother⟩
  · exact hcut
  · rw [htext] at hw
    cases hw
  · rw [htext] at hother
    cases hother

/-- The frame of a market without books has three bytes. Behind the second one a text is
missing. -/
theorem decode_take_bare :
    ((∃ text,
        marketBook.decode ((marketBook.layout.encode (MarketBook.bare "m").toContent).take 2) =
          .error (.decode text)) ↔
        marketBook.layout.CutBehindKey (MarketBook.bare "m").toContent 2) ∧
      (marketBook.layout.CutBehindKey (MarketBook.bare "m").toContent 2 ∨
        (∃ w,
          marketBook.decode ((marketBook.layout.encode (MarketBook.bare "m").toContent).take 2) =
            .ok w) ∨
        ∃ text,
          marketBook.decode ((marketBook.layout.encode (MarketBook.bare "m").toContent).take 2) =
            .error (.truncatedFrame text)) :=
  decode_take (show Bundle.builtin[0] ∈ Bundle.builtin by decide) (t := marketBook) (by decide) rfl
    (by decide +kernel) (by decide +kernel)

/-- The first byte of that frame is a key, and alone it is malformed. -/
theorem decode_bare_behind_key :
    marketBook.layout.verify (MarketBook.bare "m").toContent = .ok () ∧
      marketBook.layout.encode (MarketBook.bare "m").toContent = [10, 1, 109] ∧
      marketBook.decode [10] = .error (.decode
        "order_book.MarketBook: failed to decode Protobuf message: MarketBook.market_id: invalid varint") :=
  ⟨rfl, by decide +kernel, rfl⟩

/-- **A cut frame makes nothing up.** The frame of a conforming message, cut anywhere, has a
value if and only if what is left is the frame of the message of the first fields, and the
value is that message's: each plain value is the message's own or the default, each nested
message is there as a whole or absent, and each list is the beginning of the message's. -/
theorem decode_take_eq_ok_iff (hb : bundle ∈ Bundle.builtin) (ht : t ∈ bundle.types)
    {m : t.layout.Content} (hm : t.layout.verify m = .ok ())
    (hsize : (t.layout.encode m).length < twoTo 64) {k : Nat} {w : Json} :
    t.decode ((t.layout.encode m).take k) = .ok w ↔
      ∃ n, (t.layout.encode m).take k = t.layout.encode (t.layout.first n m) ∧
        t.layout.records (t.layout.first n m) = (t.layout.records m).take n ∧
        t.layout.IsPartOf (t.layout.normal (t.layout.first n m)) (t.layout.normal m) ∧
        w = t.layout.toJson (t.layout.normal (t.layout.first n m)) := by
  have hsound := (isSound_of_mem_builtin hb ht).1
  constructor
  · intro h
    obtain ⟨m', hm', rfl⟩ := exists_of_map_eq_ok h
    obtain ⟨hdecode, -⟩ := decodeMessage_eq_ok_iff.1 hm'
    obtain ⟨n, htake, rfl⟩ := Layout.exists_of_decode_take hsound hsize hdecode
    exact ⟨n, htake, Layout.records_first _ n m, (Layout.isPartOf_first _ n m).normal, rfl⟩
  · rintro ⟨n, htake, -, -, rfl⟩
    have hfirst : t.layout.verify (t.layout.first n m) = .ok () :=
      Layout.verify_eq_ok_iff.2 (Layout.violation?_first (Layout.verify_eq_ok_iff.1 hm) n)
    have hshort : (t.layout.encode (t.layout.first n m)).length < twoTo 64 := by
      rw [← htake]
      exact Nat.lt_of_le_of_lt (List.length_take_le' k _) hsize
    rw [htake]
    exact decode_of_decodeMessage_ok (decodeMessage_encode hb ht hfirst hshort)

/-- Of two empty books the second one is cut off. -/
theorem decode_take_eq_ok_books :
    ∃ n, marketBookLayout.toJson (MarketBook.toContent ⟨"m", some ⟨[], []⟩, none⟩) =
      marketBookLayout.toJson (marketBookLayout.normal (marketBookLayout.first n
        (MarketBook.toContent ⟨"m", some ⟨[], []⟩, some ⟨[], []⟩⟩))) := by
  have hb : Bundle.builtin[0] ∈ Bundle.builtin := by decide
  have ht : marketBook ∈ Bundle.builtin[0].types := List.mem_cons_self
  have hdecode : marketBook.decode ((marketBookLayout.encode
      (MarketBook.toContent ⟨"m", some ⟨[], []⟩, some ⟨[], []⟩⟩)).take 5) =
        .ok (marketBookLayout.toJson (MarketBook.toContent ⟨"m", some ⟨[], []⟩, none⟩)) := rfl
  obtain ⟨n, -, -, -, hvalue⟩ := (decode_take_eq_ok_iff hb ht rfl (by decide +kernel)).1 hdecode
  exact ⟨n, hvalue⟩

end MessageType

end PushFeed
