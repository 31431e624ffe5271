import PushFeed.Proofs.Schema.Causes
import PushFeed.Proofs.Wire.Unfinished
/-!
# Which frames more bytes would complete

A frame that runs out of bytes is truncated. That more bytes would make it a frame does not
follow. What is there may be wrong already, as a length is held against the end of the
frame before what it counts is looked at, and before the end of the message around it is.
A truncated frame can be completed exactly if it is whole fields and the beginning of one
more (`MessageType.completed_iff`).

A frame that nothing completes is malformed, as long as neither a length nor a number of
fixed width ran past its end and no declared field is laid out as another one. Of frames
that end in the middle of a number this is left open.
-/

namespace PushFeed

open Wire

namespace MessageType

variable {t : MessageType} {bundle : Bundle} {b : Bytes}

/-- Whether more bytes make a frame of a type of some bytes. -/
def CanBeCompleted (t : MessageType) (b : Bytes) : Prop :=
  ∃ c m, t.layout.decode t.name (b ++ c) = .ok m

/-- The built-in types leave a field number with a short key free in every message. -/
theorem hasSpare_of_mem_builtin (hb : bundle ∈ Bundle.builtin) (ht : t ∈ bundle.types) :
    t.layout.hasSpare depthLimit = true := by
  have h : ∀ b ∈ Bundle.builtin, ∀ t ∈ b.types, t.layout.hasSpare depthLimit = true := by
    decide
  exact h bundle hb t ht

/-- What cannot be completed is no frame to begin with. -/
theorem exists_fault_of_not_canBeCompleted (h : ¬t.CanBeCompleted b) :
    ∃ f, t.layout.decode t.name b = .error f := by
  cases hdecode : t.layout.decode t.name b with
  | error f => exact ⟨f, rfl⟩
  | ok m => exact absurd ⟨[], m, by rw [List.append_nil, hdecode]⟩ h

/-- A whole frame is not truncated. -/
theorem not_isFrame_of_truncated {text : String}
    (h : t.decode b = .error (.truncatedFrame text)) : ¬t.layout.IsFrame b := by
  intro hframe
  obtain ⟨m, hm⟩ : ∃ m, t.layout.decode t.name b = .ok m := Layout.decode_eq_ok_iff.2 hframe
  rw [decode, decodeMessage, hm] at h
  cases hverify : t.layout.verify m with
  | ok _ => simp only [hverify] at h; cases h
  | error violation => simp only [hverify] at h; cases h

/-- **Which frames can be completed, and what is reported of the others.** More bytes make a
frame of a truncated one if and only if it is whole fields and the beginning of one more. A
frame that no bytes complete is truncated all the same if bytes are missing from a length on
or from a number of fixed width, and foreign if a declared field is laid out as another one.
Otherwise it is malformed, unless a number in it is invalid and it ends in a byte that
another one should follow. -/
theorem completed_iff (hb : bundle ∈ Bundle.builtin) (ht : t ∈ bundle.types) (b : Bytes) :
    (∀ text, t.decode b = .error (.truncatedFrame text) →
        (t.CanBeCompleted b ↔ t.layout.IsCutFrame b)) ∧
      (¬t.CanBeCompleted b → ∃ f, t.layout.decode t.name b = .error f ∧
        (f.cause = .underflow → t.decode b = .error (.truncatedFrame (t.about f.message))) ∧
        (f.cause.isMismatch = true → t.decode b = .error (.foreignFrame (t.about f.message))) ∧
        (f.cause ≠ .underflow → f.cause.isMismatch = false →
          (f.cause = .invalidVarint → endsOpen b = false) →
            t.decode b = .error (.decode (t.about f.message)))) := by
  refine ⟨fun text htext => ?_, fun hnot => ?_⟩
  · have hwhole := not_isFrame_of_truncated htext
    exact (Layout.exists_decode_append_iff (hasSpare_of_mem_builtin hb ht)).trans
      (or_iff_right hwhole)
  · obtain ⟨f, hf⟩ := exists_fault_of_not_canBeCompleted hnot
    have herror := decode_eq_errorOf hb ht hf
    rw [herror]
    refine ⟨f, hf, fun hcause => ?_, fun hcause => ?_, fun hunderflow hmatch hvarint => ?_⟩
    · rw [hcause]
      rfl
    · exact congrArg Except.error (errorOf_of_isMismatch hcause)
    · exact congrArg Except.error (errorOf_of_not hunderflow hmatch hvarint)

/-- In the book of a market begins a level that would go on far beyond the book, and no bytes
complete it. -/
theorem not_canBeCompleted_overrun : ¬marketBook.CanBeCompleted [18, 2, 10, 127] := by
  rintro ⟨c, m, hm⟩
  have hframe : marketBook.layout.IsFrame ([18, 2, 10, 127] ++ c) :=
    Layout.decode_eq_ok_iff.1 ⟨m, hm⟩
  -- whatever follows, the book is the two bytes behind its length
  obtain ⟨number, w, v, more, hkey, hvalue, -⟩ := hframe.exists_of_ne_nil (List.cons_ne_nil _ _)
  have hbook : readKey ([18, 2, 10, 127] ++ c) = .ok (2, .delimited, [2, 10, 127] ++ c) := rfl
  rw [hbook] at hkey
  obtain ⟨rfl, rfl, hrest⟩ :
      2 = number ∧ WireType.delimited = w ∧ [2, 10, 127] ++ c = v ++ more := by simpa using hkey
  obtain ⟨-, body, hbody, hfields⟩ : IsNested orderBookLayout.IsValue 100 .delimited v := hvalue
  have hread := hbody.read more
  have htwo : readDelimited ([2, 10, 127] ++ c) = .ok ([10, 127], c) := by
    show takeBytes 2 ([10, 127] ++ c) = _
    exact takeBytes_eq_ok_iff.2 ⟨rfl, rfl⟩
  rw [← hrest, htwo] at hread
  obtain ⟨rfl, -⟩ : [10, 127] = body ∧ c = more := by simpa using hread
  -- and what they begin goes on behind them
  obtain ⟨number, w, v, more, hkey, hvalue, -⟩ := hfields.exists_of_ne_nil (List.cons_ne_nil _ _)
  have hbids : readKey [10, 127] = .ok (1, .delimited, [127]) := rfl
  rw [hbids] at hkey
  obtain ⟨rfl, rfl, hrest⟩ : 1 = number ∧ WireType.delimited = w ∧ [127] = v ++ more := by
    simpa using hkey
  obtain ⟨-, level, hlevel, -⟩ : IsNested orderLevelLayout.IsValue 99 .delimited v := hvalue
  have hread := hlevel.read more
  have hmissing : readDelimited [127] = .error .underflow := rfl
  rw [← hrest, hmissing] at hread
  cases hread

/-- A market's id of five letters lacks four of them. A book in which a level begins that goes
on behind the book's end lacks bytes as well. -/
theorem completed_iff_letters :
    marketBook.CanBeCompleted [10, 5, 109] ∧
      ∃ text, marketBook.decode [18, 2, 10, 127] = .error (.truncatedFrame text) := by
  have hb : (⟨Topic.orderBookSchema, [marketBook, orderBook, orderLevel]⟩ : Bundle) ∈
      Bundle.builtin := by decide
  have ht : marketBook ∈ [marketBook, orderBook, orderLevel] := List.mem_cons_self
  constructor
  · have hcut : marketBook.layout.IsCutFrame [10, 5, 109] := by
      refine ⟨[], [10, 5, 109], rfl, .nil, .inr ⟨[10], 1, .delimited, [5, 109], rfl, ?_, ?_⟩⟩
      · exact ⟨by decide, .last (by decide), by decide, by decide⟩
      · exact ⟨rfl, .inr ⟨[5], [109], [107, 116, 95, 49], rfl, List.cons_ne_nil _ _,
          ⟨.last (by decide), by decide, by decide⟩, "mkt_1", rfl⟩⟩
    exact ((completed_iff hb ht [10, 5, 109]).1 _ rfl).2 hcut
  · obtain ⟨f, hf, htruncated, -⟩ :=
      (completed_iff hb ht [18, 2, 10, 127]).2 not_canBeCompleted_overrun
    have hfault : marketBook.layout.decode marketBook.name [18, 2, 10, 127] =
        .error ⟨.underflow, [("OrderBook", "bids"), ("MarketBook", "yes_book")]⟩ := rfl
    have hcause : f.cause = .underflow := by rw [← Except.error.inj (hfault.symm.trans hf)]
    exact ⟨_, htruncated hcause⟩

/-- The book is truncated, and nothing completes it. -/
theorem truncated_overrun :
    marketBook.decode [18, 2, 10, 127] = .error (.truncatedFrame
        "order_book.MarketBook: failed to decode Protobuf message: OrderBook.bids: MarketBook.yes_book: buffer underflow") ∧
      ∀ c m, marketBook.layout.decode marketBook.name ([18, 2, 10, 127] ++ c) ≠ .ok m :=
  ⟨rfl, fun c m hm => not_canBeCompleted_overrun ⟨c, m, hm⟩⟩

end MessageType

end PushFeed
