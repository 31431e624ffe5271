import PushFeed.Proofs.Schema.Causes
import PushFeed.Proofs.Schema.Sources
/-!
# Frames read as another type

A conforming message reads back from its own frame (`decodeMessage_encode`). On a shared
connection a frame is also offered to the readers of the other type. Books and prices
begin with the market's id alike and part at the second field, which one lays out as a
message and the other as a number. So a frame is told apart by its second and third
field. One that has neither is bare, and is read as a message of the other type with
nothing in it but the market's id.
-/

namespace PushFeed

open Wire

/-- Whether a price message has no price. -/
def PricePayload.isBare (p : PricePayload) : Bool := p.yesPrice.isZero && p.noPrice.isZero

/-- Whether a book message has no book. -/
def MarketBook.isBare (b : MarketBook) : Bool := b.yesBook.isNone && b.noBook.isNone

/-- The book message of which only the market is known. -/
def MarketBook.bare (market : String) : MarketBook := ⟨market, none, none⟩

/-- The price message of which only the market is known. -/
def PricePayload.bare (market : String) : PricePayload :=
  ⟨market, Binary64.zero, Binary64.zero, 0⟩

namespace MessageType

/-- **A conforming message reads back from its own frame.** -/
theorem decodeMessage_encode {b : Bundle} (hb : b ∈ Bundle.builtin) {t : MessageType}
    (ht : t ∈ b.types) {c : t.layout.Content} (hc : t.layout.verify c = .ok ())
    (hsize : (t.layout.encode c).length < twoTo 64) :
    t.decodeMessage (t.layout.encode c) = .ok (t.layout.normal c) := by
  have hsound := (isSound_of_mem_builtin hb ht).1
  rw [decodeMessage, Layout.decode_encode hsound c hsize]
  simp only [Layout.verify_normal, hc]

/-- The message of a frame is what the wire says, if that conforms. -/
theorem decodeMessage_eq_ok_iff {t : MessageType} {bytes : Bytes} {c : t.layout.Content} :
    t.decodeMessage bytes = .ok c ↔
      t.layout.decode t.name bytes = .ok c ∧ t.layout.verify c = .ok () := by
  constructor
  · intro h
    rw [decodeMessage] at h
    split at h
    · cases h
    · rename_i hdecode
      split at h
      · cases h
      · rename_i hverify
        cases h
        exact ⟨hdecode, hverify⟩
  · rintro ⟨hdecode, hverify⟩
    simp only [decodeMessage, hdecode, hverify]

/-! ## Fields of another type -/

/-- What is reported of a declared field that is laid out as another one. -/
def mismatch (t : MessageType) (field : String) (actual expected : WireType) : Fault :=
  ⟨.wireTypeMismatch actual expected, [(t.name, field)]⟩

/-- A frame that begins as a message of the type and goes on with a declared field laid
out as another one is foreign. -/
theorem decodeMessage_of_mismatch {bundle : Bundle} (hbundle : bundle ∈ Bundle.builtin)
    {t : MessageType} (ht : t ∈ bundle.types) {head : t.layout.Content}
    (hsize : (t.layout.encode head).length < twoTo 64) {number : Nat}
    {actual expected : WireType} {value : Bytes} {field : String} (hnumber : IsFieldNumber number)
    (hfield : t.layout.mergeField t.name depthLimit number actual (t.layout.normal head) value =
      .error (t.mismatch field actual expected)) :
    t.decodeMessage (t.layout.encode head ++ (key number actual ++ value)) =
      .error (.foreignFrame (t.about (t.mismatch field actual expected).message)) := by
  have hsound := (isSound_of_mem_builtin hbundle ht).1
  have hparses : t.layout.Reads t.name depthLimit head := Layout.reads hsound head hsize
  have hdecode : t.layout.decode t.name (t.layout.encode head ++ (key number actual ++ value)) =
      .error (t.mismatch field actual expected) := by
    rw [Layout.decode]
    show (readFieldsWithin _ 0 _ _ _).bind _ = _
    rw [hparses.readFieldsWithin_error hnumber hfield]
    rfl
  exact decodeMessage_eq_errorOf hbundle ht hdecode

/-! ## Price frames read as books -/

variable {p : PricePayload} {b : MarketBook}

theorem mem_types_marketBook :
    Bundle.builtin[0] ∈ Bundle.builtin ∧ marketBook ∈ Bundle.builtin[0].types := by
  decide

theorem mem_types_pricePayload :
    Bundle.builtin[1] ∈ Bundle.builtin ∧ pricePayload ∈ Bundle.builtin[1].types := by
  decide

theorem encode_price (p : PricePayload) :
    pricePayloadLayout.encode p.toContent =
      marketBookLayout.encode (MarketBook.bare p.marketId).toContent ++
        (Scalar.encode 2 .amount p.yesPrice ++ (Scalar.encode 3 .amount p.noPrice ++
          Scalar.encode 4 .moment p.timestamp)) := by
  simp only [PricePayload.toContent, MarketBook.bare, MarketBook.toContent, Layout.encode,
    Option.map_none, List.append_nil]

theorem encode_amount_of_isZero {x : Binary64} (h : x.isZero = true) (number : Nat) :
    Scalar.encode number .amount x = [] := by
  simp [Scalar.encode, h]

theorem encode_amount {x : Binary64} (h : x.isZero = false) (number : Nat) :
    Scalar.encode number .amount x = key number .sixtyFour ++ fixed64 x.bits.toNat := by
  simp [Scalar.encode, h]

/-- A price frame with a price is no book. -/
theorem decodeMessage_marketBook_of_price
    (hsize : (pricePayloadLayout.encode p.toContent).length < twoTo 64) (h : p.isBare = false) :
    ∃ reason, marketBook.decodeMessage (pricePayloadLayout.encode p.toContent) =
      .error (.foreignFrame reason) := by
  obtain ⟨hbundle, ht⟩ := mem_types_marketBook
  rw [encode_price] at hsize ⊢
  rw [List.length_append] at hsize
  have hhead := Nat.lt_of_le_of_lt (Nat.le_add_right _ _) hsize
  -- the first price that is written comes where a book would be
  cases hyes : p.yesPrice.isZero with
  | false =>
    have hfield (value : Bytes) : marketBook.layout.mergeField marketBook.name depthLimit 2
        .sixtyFour (MarketBook.bare p.marketId).toContent value =
          .error (marketBook.mismatch "yes_book" .sixtyFour .delimited) := rfl
    rw [encode_amount hyes, List.append_assoc]
    exact ⟨_, decodeMessage_of_mismatch hbundle ht hhead (by decide) (hfield _)⟩
  | true =>
    have hno : p.noPrice.isZero = false := by simpa [PricePayload.isBare, hyes] using h
    have hfield (value : Bytes) : marketBook.layout.mergeField marketBook.name depthLimit 3
        .sixtyFour (MarketBook.bare p.marketId).toContent value =
          .error (marketBook.mismatch "no_book" .sixtyFour .delimited) := rfl
    rw [encode_amount_of_isZero hyes, List.nil_append, encode_amount hno, List.append_assoc]
    exact ⟨_, decodeMessage_of_mismatch hbundle ht hhead (by decide) (hfield _)⟩

/-- A price frame without a price is a book message without a book: the time is passed
over. -/
theorem decodeMessage_marketBook_of_bare
    (hsize : (pricePayloadLayout.encode p.toContent).length < twoTo 64) (h : p.isBare = true) :
    marketBook.decodeMessage (pricePayloadLayout.encode p.toContent) =
      .ok (MarketBook.bare p.marketId).toContent := by
  have hsound : marketBookLayout.isSound depthLimit = true := by decide
  rw [PricePayload.isBare, Bool.and_eq_true] at h
  rw [encode_price, encode_amount_of_isZero h.1, encode_amount_of_isZero h.2, List.nil_append,
    List.nil_append] at hsize ⊢
  rw [List.length_append] at hsize
  have hhead := Nat.lt_of_le_of_lt (Nat.le_add_right _ _) hsize
  have hmarket : marketBookLayout.Reads "MarketBook" depthLimit (MarketBook.bare p.marketId).toContent :=
    Layout.reads hsound _ hhead
  -- the number of the time is none of a book message, so the field is skipped
  have htime : Parses (marketBookLayout.mergeField "MarketBook" depthLimit) (fun _ => True)
      (MarketBook.bare p.marketId).toContent (Scalar.encode 4 .moment p.timestamp)
      (MarketBook.bare p.marketId).toContent := by
    by_cases hzero : p.timestamp = 0
    · rw [hzero]
      exact .nil _
    · have heq : Scalar.encode 4 .moment p.timestamp =
          key 4 .varint ++ varint p.timestamp.toUInt64.toNat := by
        simp [Scalar.encode, hzero]
      rw [heq]
      refine .single (by decide) trivial fun rest => ?_
      have hskip : Layout.done.mergeField "MarketBook" depthLimit 4 .varint ()
          (varint p.timestamp.toUInt64.toNat ++ rest) = .ok ((), rest) := by
        show (Wire.bare ((readVarint (varint _ ++ rest)).map (·.2))).bind _ = _
        rw [readVarint_append (UInt64.toNat_lt _)]
        rfl
      exact Layout.mergeField_scalar_of_ne (by decide)
        (Layout.mergeField_message_of_ne (by decide)
          (Layout.mergeField_message_of_ne (by decide) hskip))
  have hdecode : marketBook.layout.decode marketBook.name _ = _ :=
    Layout.decode_of_parses ((hmarket.mono fun _ _ => trivial).append htime)
  rw [decodeMessage, hdecode]
  rfl

/-! ## Book frames read as prices -/

theorem encode_book (b : MarketBook) :
    marketBookLayout.encode b.toContent =
      pricePayloadLayout.encode (PricePayload.bare b.marketId).toContent ++
        ((b.yesBook.map fun o => key 2 .delimited ++
            delimited (orderBookLayout.encode o.toContent)).getD [] ++
          (b.noBook.map fun o => key 3 .delimited ++
            delimited (orderBookLayout.encode o.toContent)).getD []) := by
  have hzero : Binary64.zero.isZero = true := by decide
  have hnever : Scalar.encode 4 .moment (0 : Int64) = [] := rfl
  simp only [PricePayload.bare, PricePayload.toContent, Layout.encode, encode_amount_of_isZero hzero,
    hnever, List.append_nil]
  cases hyes : b.yesBook <;> cases hno : b.noBook <;>
    simp [MarketBook.toContent, hyes, hno]

/-- A book frame with a book is no price message. -/
theorem decodeMessage_pricePayload_of_book
    (hsize : (marketBookLayout.encode b.toContent).length < twoTo 64) (h : b.isBare = false) :
    ∃ reason, pricePayload.decodeMessage (marketBookLayout.encode b.toContent) =
      .error (.foreignFrame reason) := by
  obtain ⟨hbundle, ht⟩ := mem_types_pricePayload
  rw [encode_book] at hsize ⊢
  rw [List.length_append] at hsize
  have hhead := Nat.lt_of_le_of_lt (Nat.le_add_right _ _) hsize
  -- the first book that is written comes where a price would be
  cases hyes : b.yesBook with
  | some o =>
    have hfield (value : Bytes) : pricePayload.layout.mergeField pricePayload.name depthLimit 2
        .delimited (PricePayload.bare b.marketId).toContent value =
          .error (pricePayload.mismatch "yes_price" .delimited .sixtyFour) := rfl
    rw [Option.map_some, Option.getD_some, List.append_assoc]
    exact ⟨_, decodeMessage_of_mismatch hbundle ht hhead (by decide) (hfield _)⟩
  | none =>
    cases hno : b.noBook with
    | none => simp [MarketBook.isBare, hyes, hno] at h
    | some o =>
      have hfield (value : Bytes) : pricePayload.layout.mergeField pricePayload.name depthLimit 3
          .delimited (PricePayload.bare b.marketId).toContent value =
            .error (pricePayload.mismatch "no_price" .delimited .sixtyFour) := rfl
      rw [Option.map_none, Option.getD_none, List.nil_append, Option.map_some, Option.getD_some]
      exact ⟨_, decodeMessage_of_mismatch hbundle ht hhead (by decide) (hfield _)⟩

/-- A book frame without a book is a price message without a price. -/
theorem decodeMessage_pricePayload_of_bare
    (hsize : (marketBookLayout.encode b.toContent).length < twoTo 64) (h : b.isBare = true) :
    pricePayload.decodeMessage (marketBookLayout.encode b.toContent) =
      .ok (PricePayload.bare b.marketId).toContent := by
  have hsound : pricePayload.layout.isSound depthLimit = true := by decide
  obtain ⟨hyes, hno⟩ : b.yesBook = none ∧ b.noBook = none := by
    simpa [MarketBook.isBare] using h
  rw [encode_book, hyes, hno, Option.map_none, Option.map_none, Option.getD_none,
    List.append_nil, List.append_nil] at hsize ⊢
  have hdecode : pricePayload.layout.decode pricePayload.name
      (pricePayloadLayout.encode (PricePayload.bare b.marketId).toContent) = .ok _ :=
    Layout.decode_encode hsound _ hsize
  rw [decodeMessage, hdecode]
  rfl

/-! ## Frames of either kind read as the other -/

/-- A message with a frame conforms, and the frame is its own. -/
theorem encodeMessage_eq_ok_iff {t : MessageType} {m : t.layout.Content} {bytes : Bytes} :
    t.encodeMessage m = .ok bytes ↔ t.layout.verify m = .ok () ∧ t.layout.encode m = bytes := by
  rw [encodeMessage]
  cases t.layout.verify m <;> simp

theorem decode_of_decodeMessage_error {t : MessageType} {bytes : Bytes} {e : FeedError}
    (h : t.decodeMessage bytes = .error e) : t.decode bytes = .error e := by
  rw [decode, h]
  rfl

theorem decode_of_decodeMessage_ok {t : MessageType} {bytes : Bytes} {m : t.layout.Content}
    (h : t.decodeMessage bytes = .ok m) : t.decode bytes = .ok (t.layout.toJson m) := by
  rw [decode, h]
  rfl

/-- **The frames of the two types are told apart by their prices and books.** A price frame
with a price that is not zero is foreign to books, and so is a book frame with a book to
prices, were the book empty. Every other frame of the one type is a message of the other
type about the same market, with no book or no price in it and no time. -/
theorem decode_crossed {p : PricePayload} {b : MarketBook} {ofPrice ofBook : Bytes}
    (hp : pricePayload.encodeMessage p.toContent = .ok ofPrice)
    (hb : marketBook.encodeMessage b.toContent = .ok ofBook)
    (hpsize : ofPrice.length < twoTo 64) (hbsize : ofBook.length < twoTo 64) :
    (p.yesPrice.isZero = false ∨ p.noPrice.isZero = false →
        ∃ reason, marketBook.decode ofPrice = .error (.foreignFrame reason)) ∧
      (p.yesPrice.isZero = true ∧ p.noPrice.isZero = true →
        marketBook.decode ofPrice =
          .ok (marketBook.layout.toJson (MarketBook.toContent ⟨p.marketId, none, none⟩))) ∧
      (b.yesBook.isSome = true ∨ b.noBook.isSome = true →
        ∃ reason, pricePayload.decode ofBook = .error (.foreignFrame reason)) ∧
      (b.yesBook = none ∧ b.noBook = none →
        pricePayload.decode ofBook = .ok (pricePayload.layout.toJson
          (PricePayload.toContent ⟨b.marketId, Binary64.zero, Binary64.zero, 0⟩))) := by
  obtain ⟨-, rfl⟩ := encodeMessage_eq_ok_iff.1 hp
  obtain ⟨-, rfl⟩ := encodeMessage_eq_ok_iff.1 hb
  refine ⟨fun hprice => ?_, fun hbare => ?_, fun hbook => ?_, fun hbare => ?_⟩
  · have hpriced : p.isBare = false := by rwa [PricePayload.isBare, Bool.and_eq_false_iff]
    obtain ⟨reason, hdecode⟩ := decodeMessage_marketBook_of_price hpsize hpriced
    exact ⟨reason, decode_of_decodeMessage_error hdecode⟩
  · have hunpriced : p.isBare = true := by rwa [PricePayload.isBare, Bool.and_eq_true]
    exact decode_of_decodeMessage_ok (decodeMessage_marketBook_of_bare hpsize hunpriced)
  · have hbooked : b.isBare = false := by
      rwa [MarketBook.isBare, Bool.and_eq_false_iff, Option.isNone_eq_false_iff,
        Option.isNone_eq_false_iff]
    obtain ⟨reason, hdecode⟩ := decodeMessage_pricePayload_of_book hbsize hbooked
    exact ⟨reason, decode_of_decodeMessage_error hdecode⟩
  · have hunbooked : b.isBare = true := by simpa [MarketBook.isBare] using hbare
    exact decode_of_decodeMessage_ok (decodeMessage_pricePayload_of_bare hbsize hunbooked)

/-- A frame with only its second price, and one with only its second book, which is empty. -/
theorem decode_crossed_half :
    (∃ reason, marketBook.decode [10, 1, 109, 25, 0, 0, 0, 0, 0, 0, 224, 63] =
        .error (.foreignFrame reason)) ∧
      ∃ reason, pricePayload.decode [10, 1, 109, 26, 0] = .error (.foreignFrame reason) := by
  have hp : pricePayload.encodeMessage
      (PricePayload.toContent ⟨"m", Binary64.zero, Binary64.mk 0x3FE0000000000000, 0⟩) =
        .ok [10, 1, 109, 25, 0, 0, 0, 0, 0, 0, 224, 63] := by decide +kernel
  have hb : marketBook.encodeMessage (MarketBook.toContent ⟨"m", none, some ⟨[], []⟩⟩) =
      .ok [10, 1, 109, 26, 0] := by decide +kernel
  obtain ⟨hprice, -, hbook, -⟩ := decode_crossed hp hb (by decide) (by decide)
  exact ⟨hprice (.inr (by decide)), hbook (.inr rfl)⟩

end MessageType

end PushFeed
