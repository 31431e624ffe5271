import PushFeed.Proofs.Market.Frames
/-!
# What the view of a book frame can be asked

Best prices that are not negative have a spread, whatever their places, so the line about a
book is always written (`MarketBook.described_of_decode`). The users of a side have a total
only below 32 bits (`MarketBook.totalUsers_of_decode`).
-/

namespace PushFeed

open Wire

/-! ## Spreads -/

/-- The prices that a side shows of a conforming list are not negative. -/
theorem BookSide.Shows.zero_le_price {side : BookSide} {levels : List OrderLevel}
    {shown : List BookLevel} (h : side.Shows levels shown) (hconforms : ∀ l ∈ levels, l.Conforms)
    {s : BookLevel} (hs : s ∈ shown) : 0 ≤ s.price.value := by
  obtain ⟨l, hl, hshows⟩ := h.exists_showsAs hs
  exact Decimal.zero_le_value_of_ofBinary64?
    (Binary64.mantissa_of_amountOk (hconforms l hl).1) hshows.price

/-- How far an ask is above a bid: there is a number where there are both, and it is the
nearest one with its places. -/
structure IsSpread (ask? bid? spread? : Option Decimal) : Prop where
  isSome_iff : spread?.isSome = true ↔ ask?.isSome = true ∧ bid?.isSome = true
  isNearest : ∀ ask ∈ ask?, ∀ bid ∈ bid?, ∀ d ∈ spread?, d.IsNearest (ask.value - bid.value)

namespace BookView

variable {view : BookView} {o : Outcome}

/-- **Best prices that are not negative have a spread.** -/
theorem exists_spread (hask : ∀ p, view.bestAsk? o = some p → 0 ≤ p.value)
    (hbid : ∀ p, view.bestBid? o = some p → 0 ≤ p.value) :
    ∃ s, view.spread o = .ok s ∧ IsSpread (view.bestAsk? o) (view.bestBid? o) s := by
  rw [spread]
  cases hasks : view.bestAsk? o with
  | none => exact ⟨none, rfl, by simp, nofun⟩
  | some ask =>
    cases hbids : view.bestBid? o with
    | none => exact ⟨none, rfl, by simp, nofun⟩
    | some bid =>
      obtain ⟨d, hd, hnearest⟩ := Decimal.exists_sub_eq_ok (hask ask hasks) (hbid bid hbids)
      have hsome : (ask.sub bid).map some = .ok (some d) := by rw [hd]; rfl
      refine ⟨some d, hsome, by simp, ?_⟩
      rintro _ ⟨⟩ _ ⟨⟩ _ ⟨⟩
      exact hnearest

/-- The line about a book needs no more than its first spread. -/
theorem exists_line {s : Option Decimal} (h : view.spread .yes = .ok s) :
    ∃ text, view.line = .ok text := by
  rw [line, h]
  exact ⟨_, rfl⟩

end BookView

namespace MarketBook

variable {b : MarketBook} {bytes : Bytes} {v : Json}

theorem exists_spread (hb : ∀ o side, ∀ l ∈ b.levels o side, l.Conforms) (now : Instant)
    (o : Outcome) :
    ∃ s, (b.toView now).spread o = .ok s ∧
      IsSpread ((b.toView now).bestAsk? o) ((b.toView now).bestBid? o) s := by
  have hprices (side : BookSide) {best? : Option Decimal}
      (hbest : side.IsBest ((b.toView now).levels o side) best?) :
      ∀ p, best? = some p → 0 ≤ p.value := by
    intro p hp
    obtain ⟨s, hs, rfl⟩ := hbest.mem p hp
    exact (b.shows_levels now o side).zero_le_price (hb o side) hs
  obtain ⟨hbids, hasks⟩ := (b.toView_shows now).2.2.1 o
  exact BookView.exists_spread (hprices .sell hasks) (hprices .buy hbids)

/-- **A book frame is always described.** Whatever the places and sizes of its best prices,
the spread of either outcome does not overflow, and the line about the book is written. -/
theorem described_of_decode (h : MessageType.marketBook.decode bytes = .ok v) :
    ∃ b, Message.ofJson .book v = .ok (.book b) ∧ ∀ now,
      (∀ o, ∃ s, (b.toView now).spread o = .ok s ∧
        IsSpread ((b.toView now).bestAsk? o) ((b.toView now).bestBid? o) s) ∧
      ∃ text, (b.toView now).line = .ok text := by
  obtain ⟨b, hv, hconforms⟩ := exists_of_decode h
  refine ⟨b, hv, fun now => ⟨exists_spread hconforms now, ?_⟩⟩
  obtain ⟨s, hs, -⟩ := exists_spread hconforms now .yes
  exact BookView.exists_line hs

/-- A bid of 2⁻²⁰ and an ask of 2⁹⁵ for yes, whose difference has more digits than a decimal. -/
def farApart : MarketBook :=
  ⟨"m", some ⟨[⟨Binary64.mk 0x3EB0000000000000, Binary64.mk 0x3FF0000000000000, 1⟩],
    [⟨Binary64.mk 0x45E0000000000000, Binary64.mk 0x3FF0000000000000, 2⟩]⟩, none⟩

theorem decode_farApart :
    MessageType.marketBook.decode (MessageType.marketBook.layout.encode farApart.toContent) =
      .ok (MessageType.marketBook.layout.toJson farApart.toContent) := rfl

theorem ofJson_farApart :
    Message.ofJson .book (MessageType.marketBook.layout.toJson farApart.toContent) =
      .ok (.book farApart) := rfl

/-- The two prices have a spread all the same. -/
theorem described_of_decode_farApart :
    (∃ d, (farApart.toView ⟨0, 0⟩).spread .yes = .ok (some d)) ∧
      ∃ text, (farApart.toView ⟨0, 0⟩).line = .ok text := by
  obtain ⟨b, hv, hviews⟩ := described_of_decode decode_farApart
  cases hv.symm.trans ofJson_farApart
  obtain ⟨hspreads, htext⟩ := hviews ⟨0, 0⟩
  obtain ⟨s, hs, hspread⟩ := hspreads .yes
  obtain ⟨d, rfl⟩ := Option.isSome_iff_exists.1 (hspread.isSome_iff.2 (by decide +kernel))
  exact ⟨⟨d, hs⟩, htext⟩

end MarketBook

/-! ## Totals -/

theorem sumCounts_concat (counts : List UInt32) (n : UInt32) :
    sumCounts (counts ++ [n]) = (sumCounts counts).bind fun sum =>
      if sum.toNat + n.toNat < twoTo 32 then .ok (sum + n) else .error .count := by
  rw [sumCounts, List.foldlM_append]
  refine congrArg (sumCounts counts).bind (funext fun sum => ?_)
  rw [List.foldlM_cons]
  exact bind_pure _

/-- **Counts are added up exactly**, and what passes 32 bits on the way is reported: a sum
that fits does not pass them, for no count is negative. -/
theorem sumCounts_eq (counts : List UInt32) :
    sumCounts counts =
      if (counts.map UInt32.toNat).sum < twoTo 32 then
        .ok (UInt32.ofNat (counts.map UInt32.toNat).sum)
      else .error .count := by
  induction counts using List.reverseRecOn with
  | nil => rfl
  | append_singleton counts n ih =>
    rw [sumCounts_concat, ih, List.map_append, List.sum_append, List.map_singleton,
      List.sum_singleton]
    by_cases hfits : (counts.map UInt32.toNat).sum < twoTo 32
    · rw [if_pos hfits]
      show (if (UInt32.ofNat _).toNat + n.toNat < twoTo 32 then Except.ok _ else _) = _
      rw [UInt32.toNat_ofNat_of_lt' hfits, UInt32.ofNat_add, UInt32.ofNat_toNat]
    · rw [if_neg hfits, if_neg (by omega)]
      rfl

namespace MarketBook

variable {b : MarketBook} {bytes : Bytes} {v : Json}

/-- How many users stand behind the levels of a side that a view shows. -/
def usersShown (b : MarketBook) (o : Outcome) (side : BookSide) : Nat :=
  (((b.levels o side).filter (·.HasDecimals)).map (·.users.toNat)).sum

theorem sum_users_toView (b : MarketBook) (now : Instant) (o : Outcome) (side : BookSide) :
    (((b.toView now).levels o side).map (·.users.toNat)).sum = b.usersShown o side :=
  (b.shows_levels now o side).sum_users

theorem totalUsers_eq (b : MarketBook) (now : Instant) (o : Outcome) (side : BookSide) :
    (b.toView now).totalUsers o side =
      if b.usersShown o side < twoTo 32 then .ok (UInt32.ofNat (b.usersShown o side))
      else .error .count := by
  rw [BookView.totalUsers, sumCounts_eq, List.map_map, ← b.sum_users_toView now]
  rfl

/-- **The users of a side have an exact total below 32 bits, and none from there on.** Neither
the number of levels nor their counts are bounded by what a frame may hold. -/
theorem totalUsers_of_decode (h : MessageType.marketBook.decode bytes = .ok v) :
    ∃ b, Message.ofJson .book v = .ok (.book b) ∧ ∀ now o side,
      (((b.toView now).levels o side).map (·.users.toNat)).sum = b.usersShown o side ∧
        ((∃ n, (b.toView now).totalUsers o side = .ok n) ↔ b.usersShown o side < twoTo 32) ∧
        (∀ n, (b.toView now).totalUsers o side = .ok n → n.toNat = b.usersShown o side) ∧
        (twoTo 32 ≤ b.usersShown o side → (b.toView now).totalUsers o side = .error .count) := by
  obtain ⟨b, hv, -⟩ := exists_of_decode h
  refine ⟨b, hv, fun now o side => ⟨b.sum_users_toView now o side, ?_⟩⟩
  rw [totalUsers_eq]
  by_cases hfits : b.usersShown o side < twoTo 32
  · rw [if_pos hfits]
    refine ⟨iff_of_true ⟨_, rfl⟩ hfits, ?_, fun hlarge => absurd hfits (Nat.not_lt.2 hlarge)⟩
    rintro _ ⟨⟩
    exact UInt32.toNat_ofNat_of_lt' hfits
  · rw [if_neg hfits]
    exact ⟨iff_of_false nofun hfits, nofun, fun _ => rfl⟩

/-- The two users behind an ask. -/
theorem totalUsers_of_decode_farApart :
    farApart.usersShown .yes .sell = 2 ∧
      ∃ n, (farApart.toView ⟨0, 0⟩).totalUsers .yes .sell = .ok n ∧ n.toNat = 2 := by
  obtain ⟨b, hv, htotals⟩ := totalUsers_of_decode decode_farApart
  cases hv.symm.trans ofJson_farApart
  have htwo : farApart.usersShown .yes .sell = 2 := by decide +kernel
  obtain ⟨-, hexists, hexact, -⟩ := htotals ⟨0, 0⟩ .yes .sell
  obtain ⟨n, hn⟩ := hexists.2 (by rw [htwo]; decide)
  exact ⟨htwo, n, hn, (hexact n hn).trans htwo⟩

/-- Two bids with more users behind them than a count of 32 bits holds. -/
def crowded : MarketBook :=
  ⟨"m", some ⟨[⟨Binary64.mk 0x3FE0000000000000, Binary64.mk 0x3FF0000000000000, 4294967295⟩,
    ⟨Binary64.mk 0x3FE0000000000000, Binary64.mk 0x3FF0000000000000, 1⟩], []⟩, none⟩

/-- Their frame decodes, and both are shown, but their users have no total. -/
theorem totalUsers_crowded :
    ∃ v, MessageType.marketBook.decode (MessageType.marketBook.layout.encode crowded.toContent) =
        .ok v ∧
      Message.ofJson .book v = .ok (.book crowded) ∧
      ∀ now, (((crowded.toView now).levels .yes .buy).map (·.users.toNat)).sum = 4294967296 ∧
        (crowded.toView now).totalUsers .yes .buy = .error .count := by
  have hshown : crowded.usersShown .yes .buy = 4294967296 := by decide +kernel
  refine ⟨_, rfl, rfl, fun now => ⟨(crowded.sum_users_toView now .yes .buy).trans hshown, ?_⟩⟩
  rw [totalUsers_eq, hshown, if_neg (by decide)]

end MarketBook

end PushFeed
