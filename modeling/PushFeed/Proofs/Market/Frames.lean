import PushFeed.Channel.Message
import PushFeed.Proofs.Market.Sides
import PushFeed.Proofs.Schema.Typed
/-!
# Messages that frames read as

A frame that decodes reads as a message of its type whose amounts may all pass: none is
negative but in name (`MarketBook.exists_of_decode`, `PricePayload.exists_of_decode`). Nothing
bounds them from above, nor the number of levels, nor their users.
-/

namespace PushFeed

open Wire

/-! ## Frames -/

/-- A frame that has a structured value reads as a conforming message of its type. -/
theorem Message.exists_of_decode {k : MessageKind} {t : MessageType}
    {shown : t.layout.Content → Message} (hkeys : t.layout.hasOwnKeys = true)
    (hreader : ∀ v, Message.ofJson k v = (t.layout.ofJson t.name v).map shown) {bytes : Bytes}
    {v : Json} (h : t.decode bytes = .ok v) :
    ∃ m, t.layout.violation? m = none ∧ Message.ofJson k v = .ok (shown m) := by
  obtain ⟨m, hm, rfl⟩ := MessageType.decode_eq_ok h
  have hconforms := Layout.verify_eq_ok_iff.1 (MessageType.decodeMessage_eq_ok_iff.1 hm).2
  refine ⟨m, hconforms, ?_⟩
  rw [hreader, Layout.ofJson_toJson hkeys hconforms]
  rfl

/-- An amount that may pass is negative only in name. -/
theorem Binary64.mantissa_of_amountOk {x : Binary64} (h : amountOk x = true)
    (hnegative : x.negative = true) : x.mantissa = 0 := by
  rw [amountOk, hnegative, Bool.and_eq_true] at h
  exact mantissa_of_isZero h.2

theorem Scalar.amountOk_of_bad? {x : Binary64} (h : Scalar.amount.bad? x = none) :
    amountOk x = true := by
  simp only [Scalar.bad?] at h
  split at h
  · assumption
  · cases h

/-! ## Books -/

/-- Whether the amounts of a level may pass. -/
def OrderLevel.Conforms (l : OrderLevel) : Prop :=
  amountOk l.price = true ∧ amountOk l.shares = true

theorem OrderLevel.conforms_of_violation? {c : orderLevelLayout.Content}
    (h : orderLevelLayout.violation? c = none) : (ofContent c).Conforms := by
  obtain ⟨price, shares, users, _⟩ := c
  obtain ⟨hprice, hrest⟩ := Layout.violation?_scalar_iff.1 h
  obtain ⟨hshares, -⟩ := Layout.violation?_scalar_iff.1 hrest
  exact ⟨Scalar.amountOk_of_bad? hprice, Scalar.amountOk_of_bad? hshares⟩

theorem OrderLevel.conforms_map {cs : List orderLevelLayout.Content}
    (h : ∀ c ∈ cs, orderLevelLayout.violation? c = none) :
    ∀ l ∈ cs.map ofContent, l.Conforms := by
  intro l hl
  obtain ⟨c, hc, rfl⟩ := List.mem_map.1 hl
  exact conforms_of_violation? (h c hc)

/-- The levels of a book that may be absent. -/
theorem OrderBook.conforms_of_violation? {book : Option orderBookLayout.Content}
    (h : ∀ c ∈ book, orderBookLayout.violation? c = none) :
    (∀ l ∈ ((book.map ofContent).map (·.bids)).getD [], l.Conforms) ∧
      ∀ l ∈ ((book.map ofContent).map (·.asks)).getD [], l.Conforms := by
  cases book with
  | none => exact ⟨nofun, nofun⟩
  | some c =>
    obtain ⟨bids, asks, _⟩ := c
    obtain ⟨hbids, hrest⟩ := Layout.violation?_repeated_iff.1 (h _ rfl)
    obtain ⟨hasks, -⟩ := Layout.violation?_repeated_iff.1 hrest
    exact ⟨OrderLevel.conforms_map hbids, OrderLevel.conforms_map hasks⟩

namespace MarketBook

variable {b : MarketBook} {bytes : Bytes} {v : Json}

theorem conforms_of_violation? {c : marketBookLayout.Content}
    (h : marketBookLayout.violation? c = none) (o : Outcome) (side : BookSide) :
    ∀ l ∈ (ofContent c).levels o side, l.Conforms := by
  obtain ⟨id, yes, no, _⟩ := c
  obtain ⟨-, hbooks⟩ := Layout.violation?_scalar_iff.1 h
  obtain ⟨hyes, hrest⟩ := Layout.violation?_message_iff.1 hbooks
  obtain ⟨hno, -⟩ := Layout.violation?_message_iff.1 hrest
  cases o with
  | yes =>
    cases side with
    | buy => exact (OrderBook.conforms_of_violation? hyes).1
    | sell => exact (OrderBook.conforms_of_violation? hyes).2
  | no =>
    cases side with
    | buy => exact (OrderBook.conforms_of_violation? hno).1
    | sell => exact (OrderBook.conforms_of_violation? hno).2

/-- **A book frame reads as a book** whose amounts may all pass. -/
theorem exists_of_decode (h : MessageType.marketBook.decode bytes = .ok v) :
    ∃ b, Message.ofJson .book v = .ok (.book b) ∧
      ∀ o side, ∀ l ∈ b.levels o side, l.Conforms := by
  obtain ⟨c, hc, hv⟩ := Message.exists_of_decode (k := .book) (t := .marketBook) (by decide)
    (fun _ => rfl) h
  exact ⟨ofContent c, hv, conforms_of_violation? hc⟩

end MarketBook

/-! ## Prices -/

namespace PricePayload

variable {bytes : Bytes} {v : Json}

/-- **A price frame reads as prices** that may pass. -/
theorem exists_of_decode (h : MessageType.pricePayload.decode bytes = .ok v) :
    ∃ p, Message.ofJson .price v = .ok (.price p) ∧ amountOk p.yesPrice = true ∧
      amountOk p.noPrice = true := by
  obtain ⟨c, hc, hv⟩ := Message.exists_of_decode (k := .price) (t := .pricePayload) (by decide)
    (fun _ => rfl) h
  obtain ⟨id, yes, no, time, _⟩ := c
  obtain ⟨-, hprices⟩ := Layout.violation?_scalar_iff.1 hc
  obtain ⟨hyes, hrest⟩ := Layout.violation?_scalar_iff.1 hprices
  obtain ⟨hno, -⟩ := Layout.violation?_scalar_iff.1 hrest
  exact ⟨_, hv, Scalar.amountOk_of_bad? hyes, Scalar.amountOk_of_bad? hno⟩

end PricePayload

end PushFeed
