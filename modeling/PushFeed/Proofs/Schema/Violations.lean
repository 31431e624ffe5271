import PushFeed.Proofs.Market.Sides
import PushFeed.Proofs.Number.Conversion
import PushFeed.Proofs.Schema.Agreement
import PushFeed.Proofs.Wire.Violations
import PushFeed.Schema.Envelope
/-!
# What refused books and envelopes name

The amounts of a market's books stand in an order (`AmountPlace.Before`): the book of yes
before the one of no, bids before asks, a level before the next one and a price before
the shares. The books are refused exactly when one of them is no amount, with the way to
the first such place (`MarketBook.isFirstFault_of_violation?`). In an envelope there are
two values to refuse, and the operation comes first (`Envelope.violation?_eq_some`).
-/

namespace PushFeed

open Wire

/-! ## Amounts and choices -/

/-- Whether a double is an amount: a finite number that is not below zero. -/
def Binary64.IsAmount (x : Binary64) : Prop := x.isFinite = true ∧ 0 ≤ x.value

namespace Wire

theorem Scalar.bad?_amount_eq_none_iff {x : Binary64} :
    Scalar.amount.bad? x = none ↔ x.IsAmount := by
  rw [Binary64.IsAmount, Binary64.zero_le_value_iff, ← amountOk_iff]
  simp [bad?]

theorem Scalar.bad?_amount_eq_some_iff {x : Binary64} {bad : BadValue} :
    Scalar.amount.bad? x = some bad ↔ ¬x.IsAmount ∧ bad = .amount x := by
  rw [← Scalar.bad?_amount_eq_none_iff]
  simp only [bad?]
  split <;> simp [eq_comm]

/-- A choice passes if it has a name. -/
theorem Scalar.bad?_choice_eq_none_iff (names : List String) {n : Int32} :
    (Scalar.choice names.length).bad? n = none ↔ (choiceName? names n).isSome = true := by
  simp only [bad?, choiceName?]
  by_cases hn : 0 ≤ n.toInt
  · have hnat : n.toInt < names.length ↔ n.toInt.toNat < names.length := by omega
    simp [hn, hnat]
  · simp [hn]

theorem Scalar.bad?_choice_eq_some_iff (names : List String) {n : Int32} {bad : BadValue} :
    (Scalar.choice names.length).bad? n = some bad ↔
      ¬(choiceName? names n).isSome = true ∧ bad = .choice n := by
  rw [← Scalar.bad?_choice_eq_none_iff]
  simp only [bad?]
  split <;> simp_all [eq_comm]

end Wire

/-! ## Order books -/

/-- The two amounts of a level. -/
inductive LevelAmount where
  /-- The price of a share. -/
  | price
  /-- How many shares there are. -/
  | shares
  deriving DecidableEq, Repr

/-- The key of an amount. -/
def LevelAmount.key : LevelAmount → String
  | .price => "price"
  | .shares => "shares"

/-- The key of the book for an outcome. -/
def Outcome.bookKey : Outcome → String
  | .yes => "yesBook"
  | .no => "noBook"

/-- The key of the levels on a side. -/
def BookSide.listKey : BookSide → String
  | .buy => "bids"
  | .sell => "asks"

/-- An amount of a level. -/
def OrderLevel.amount (l : OrderLevel) : LevelAmount → Binary64
  | .price => l.price
  | .shares => l.shares

/-- The place of an amount in the books of a market. -/
structure AmountPlace where
  /-- Whose book it is in. -/
  outcome : Outcome
  /-- On which side its level stands. -/
  side : BookSide
  /-- How many levels of the side come before. -/
  index : Nat
  /-- Which amount of the level it is. -/
  which : LevelAmount
  deriving DecidableEq, Repr

namespace AmountPlace

/-- The way from the books of a market to an amount. -/
def path (p : AmountPlace) : List PathStep :=
  [.field p.outcome.bookKey, .item p.side.listKey p.index, .field p.which.key]

/-- The order in which amounts are looked at. -/
def Before (q p : AmountPlace) : Prop :=
  (q.outcome = .yes ∧ p.outcome = .no) ∨
  (q.outcome = p.outcome ∧
    ((q.side = .buy ∧ p.side = .sell) ∨
    (q.side = p.side ∧
      (q.index < p.index ∨
      (q.index = p.index ∧ q.which = .price ∧ p.which = .shares)))))

/-- The text for a bad amount begins with the way to its place. -/
theorem text_violation (p : AmountPlace) (x : Binary64) :
    (Violation.mk p.path (.amount x)).text =
      p.outcome.bookKey ++ "." ++ p.side.listKey ++ "[" ++ toString p.index ++ "]." ++
        p.which.key ++ ": invalid value " ++ x.text := by
  -- the texts of the way and of the value join within these two words
  have hstep : "]." = "]" ++ "." := rfl
  have hvalue : ": invalid value " = ": " ++ "invalid value " := rfl
  simp only [Violation.text_mk, path, List.map_cons, List.map_nil, PathStep.text_field,
    PathStep.text_item, BadValue.text_amount, String.intercalate_cons_cons,
    String.intercalate_singleton, String.append_assoc]
  rw [hstep, hvalue, String.append_assoc, String.append_assoc]

end AmountPlace

/-- An amount of a level in a list. -/
def amountAt? (ls : List OrderLevel) (i : Nat) (which : LevelAmount) : Option Binary64 :=
  ls[i]?.map (·.amount which)

/-- An amount that may not pass, in a list of levels where all before it may. -/
structure IsFirstFaultAt (ls : List OrderLevel) (i : Nat) (which : LevelAmount) (x : Binary64) :
    Prop where
  /-- The amount is there. -/
  found : amountAt? ls i which = some x
  /-- It may not pass. -/
  bad : ¬x.IsAmount
  /-- Those of the levels before may, and so may the price before the shares. -/
  before : ∀ j a y, j < i ∨ (j = i ∧ a = .price ∧ which = .shares) →
    amountAt? ls j a = some y → y.IsAmount

namespace OrderLevel

variable {l : OrderLevel} {ls : List OrderLevel} {v : Violation} {key : String}

/-- Whether both amounts of a level may pass. -/
def IsSound (l : OrderLevel) : Prop := l.price.IsAmount ∧ l.shares.IsAmount

theorem IsSound.amount (h : l.IsSound) (a : LevelAmount) : (l.amount a).IsAmount := by
  cases a with
  | price => exact h.1
  | shares => exact h.2

theorem violation?_eq_none_iff : orderLevelLayout.violation? l.toContent = none ↔ l.IsSound := by
  rw [toContent, Layout.violation?_scalar_iff, Layout.violation?_scalar_iff,
    Layout.violation?_scalar_iff, Scalar.bad?_amount_eq_none_iff, Scalar.bad?_amount_eq_none_iff]
  simp [IsSound, Scalar.bad?, Layout.violation?]

/-- A level is refused for its price, or for its shares if the price may pass. -/
theorem violation?_eq_some (h : orderLevelLayout.violation? l.toContent = some v) :
    ∃ a, ¬(l.amount a).IsAmount ∧ (a = .shares → l.price.IsAmount) ∧
      v = ⟨[.field a.key], .amount (l.amount a)⟩ := by
  rcases Layout.violation?_scalar_eq_some_iff.1 h with ⟨bad, hprice, rfl⟩ | ⟨hprice, hrest⟩
  · obtain ⟨hbad, rfl⟩ := Scalar.bad?_amount_eq_some_iff.1 hprice
    exact ⟨.price, hbad, nofun, rfl⟩
  rcases Layout.violation?_scalar_eq_some_iff.1 hrest with ⟨bad, hshares, rfl⟩ | ⟨-, husers⟩
  · obtain ⟨hbad, rfl⟩ := Scalar.bad?_amount_eq_some_iff.1 hshares
    exact ⟨.shares, hbad, fun _ => Scalar.bad?_amount_eq_none_iff.1 hprice, rfl⟩
  -- the users of a level are never refused, and nothing comes after them
  · simp [Layout.violation?, Scalar.bad?] at husers

theorem violation?_levels_iff :
    (∀ c ∈ ls.map toContent, orderLevelLayout.violation? c = none) ↔ ∀ l ∈ ls, l.IsSound := by
  rw [List.forall_mem_map]
  simp only [violation?_eq_none_iff]

theorem amountAt?_eq_some {i : Nat} {a : LevelAmount} {x : Binary64}
    (h : amountAt? ls i a = some x) : ∃ l, ls[i]? = some l ∧ l.amount a = x :=
  Option.map_eq_some_iff.1 h

/-- A list of levels is refused for the first amount that may not pass. -/
theorem isFirstFaultAt_of_firstViolation?
    (h : firstViolation? orderLevelLayout.violation? key 0 (ls.map toContent) = some v) :
    ∃ i a x, IsFirstFaultAt ls i a x ∧ v = ⟨[.item key i, .field a.key], .amount x⟩ := by
  obtain ⟨i, c, w, hc, hw, hbefore, rfl⟩ := firstViolation?_eq_some_iff.1 h
  rw [List.getElem?_map] at hc
  obtain ⟨l, hl, rfl⟩ := Option.map_eq_some_iff.1 hc
  obtain ⟨a, hbad, hprice, rfl⟩ := violation?_eq_some hw
  refine ⟨i, a, l.amount a, ⟨?_, hbad, ?_⟩, by rw [Nat.zero_add]; rfl⟩
  · rw [amountAt?, hl]
    rfl
  · intro j a' y hj hy
    obtain ⟨l', hl', rfl⟩ := amountAt?_eq_some hy
    rcases hj with hj | ⟨rfl, rfl, rfl⟩
    · have hnone := hbefore j hj l'.toContent (by rw [List.getElem?_map, hl']; rfl)
      exact (violation?_eq_none_iff.1 hnone).amount a'
    · rw [hl] at hl'
      cases hl'
      exact hprice rfl

end OrderLevel

namespace OrderBook

variable {b : OrderBook} {v : Violation}

/-- The levels of a book on a side. -/
def levels (b : OrderBook) : BookSide → List OrderLevel
  | .buy => b.bids
  | .sell => b.asks

theorem violation?_eq_none_iff :
    orderBookLayout.violation? b.toContent = none ↔ ∀ side, ∀ l ∈ b.levels side, l.IsSound := by
  rw [toContent, Layout.violation?_repeated_iff, Layout.violation?_repeated_iff,
    OrderLevel.violation?_levels_iff, OrderLevel.violation?_levels_iff]
  constructor
  · rintro ⟨hbids, hasks, -⟩ side
    cases side with
    | buy => exact hbids
    | sell => exact hasks
  · intro h
    exact ⟨h .buy, h .sell, rfl⟩

/-- A book is refused for its bids, or for its asks if the bids may pass. -/
theorem violation?_eq_some (h : orderBookLayout.violation? b.toContent = some v) :
    ∃ side i a x, IsFirstFaultAt (b.levels side) i a x ∧
      (side = .sell → ∀ l ∈ b.bids, l.IsSound) ∧
      v = ⟨[.item side.listKey i, .field a.key], .amount x⟩ := by
  rcases Layout.violation?_repeated_eq_some_iff.1 h with hbids | ⟨hbids, hrest⟩
  · obtain ⟨i, a, x, hfault, rfl⟩ := OrderLevel.isFirstFaultAt_of_firstViolation? hbids
    exact ⟨.buy, i, a, x, hfault, nofun, rfl⟩
  rcases Layout.violation?_repeated_eq_some_iff.1 hrest with hasks | ⟨-, hdone⟩
  · obtain ⟨i, a, x, hfault, rfl⟩ := OrderLevel.isFirstFaultAt_of_firstViolation? hasks
    exact ⟨.sell, i, a, x, hfault, fun _ => OrderLevel.violation?_levels_iff.1 hbids, rfl⟩
  · cases hdone

end OrderBook

namespace MarketBook

variable {b : MarketBook} {v : Violation}

/-- The amount at a place, if there is one. -/
def amount? (b : MarketBook) (p : AmountPlace) : Option Binary64 :=
  amountAt? (b.levels p.outcome p.side) p.index p.which

/-- The first amount that may not pass: those at the places before it may. -/
structure IsFirstFault (b : MarketBook) (p : AmountPlace) (x : Binary64) : Prop where
  /-- The amount is there. -/
  found : b.amount? p = some x
  /-- It may not pass. -/
  bad : ¬x.IsAmount
  /-- Those before it may. -/
  before : ∀ q y, q.Before p → b.amount? q = some y → y.IsAmount

/-- The book for an outcome. -/
def book (b : MarketBook) : Outcome → Option OrderBook
  | .yes => b.yesBook
  | .no => b.noBook

theorem levels_of_book {o : Outcome} {d : OrderBook} (h : b.book o = some d) (side : BookSide) :
    b.levels o side = d.levels side := by
  cases o <;> cases side <;> simp only [book] at h <;>
    simp only [levels, bids, asks, h, Option.map_some, Option.getD_some, OrderBook.levels]

theorem levels_of_book_eq_none {o : Outcome} (h : b.book o = none) (side : BookSide) :
    b.levels o side = [] := by
  cases o <;> cases side <;> simp only [book] at h <;>
    simp only [levels, bids, asks, h, Option.map_none, Option.getD_none]

/-- An absent book has no level to refuse. -/
theorem violation?_book_iff {o : Outcome} :
    (∀ c ∈ (b.book o).map OrderBook.toContent, orderBookLayout.violation? c = none) ↔
      ∀ side, ∀ l ∈ b.levels o side, l.IsSound := by
  cases hbook : b.book o with
  | none =>
    simp only [levels_of_book_eq_none hbook]
    simp
  | some d =>
    simp only [levels_of_book hbook, ← OrderBook.violation?_eq_none_iff]
    simp

theorem violation?_eq_none_iff :
    marketBookLayout.violation? b.toContent = none ↔
      ∀ o side, ∀ l ∈ b.levels o side, l.IsSound := by
  rw [toContent, Layout.violation?_scalar_iff, Layout.violation?_message_iff,
    Layout.violation?_message_iff]
  constructor
  · rintro ⟨-, hyes, hno, -⟩ o
    cases o with
    | yes => exact violation?_book_iff.1 hyes
    | no => exact violation?_book_iff.1 hno
  · intro h
    exact ⟨rfl, violation?_book_iff.2 (h .yes), violation?_book_iff.2 (h .no), rfl⟩

/-- What a book is refused for, the levels of the books before it being sound, is the first
fault of all. -/
theorem isFirstFault_of_book {o : Outcome} {c : orderBookLayout.Content} {w : Violation}
    (hc : (b.book o).map OrderBook.toContent = some c)
    (hw : orderBookLayout.violation? c = some w)
    (hearlier : o = .no → ∀ side, ∀ l ∈ b.levels .yes side, l.IsSound) :
    ∃ p x, b.IsFirstFault p x ∧ w.after (.field o.bookKey) = ⟨p.path, .amount x⟩ := by
  obtain ⟨d, hbook, rfl⟩ := Option.map_eq_some_iff.1 hc
  obtain ⟨side, i, a, x, hfault, hbids, rfl⟩ := OrderBook.violation?_eq_some hw
  have hsound : ∀ q : AmountPlace, (∀ l ∈ b.levels q.outcome q.side, l.IsSound) →
      ∀ y, b.amount? q = some y → y.IsAmount := by
    intro q hq y hy
    obtain ⟨l, hl, rfl⟩ := OrderLevel.amountAt?_eq_some hy
    exact (hq l (List.mem_of_getElem? hl)).amount q.which
  have hlevels := levels_of_book hbook side
  refine ⟨⟨o, side, i, a⟩, x, ⟨?_, hfault.bad, ?_⟩, rfl⟩
  · rw [amount?, hlevels]
    exact hfault.found
  -- a place before is in the book before, on the side before or in the same list
  · rintro ⟨o', side', j, a'⟩ y hbefore hy
    rcases hbefore with ⟨rfl, ho⟩ | ⟨rfl, ⟨rfl, hside⟩ | ⟨rfl, hlist⟩⟩
    · exact hsound _ (hearlier ho side') y hy
    · refine hsound _ ?_ y hy
      rw [levels_of_book hbook .buy]
      exact hbids hside
    · rw [amount?, hlevels] at hy
      exact hfault.before j a' y hlist hy

/-- The books of a market are refused for the first amount that may not pass. -/
theorem isFirstFault_of_violation? (h : marketBookLayout.violation? b.toContent = some v) :
    ∃ p x, b.IsFirstFault p x ∧ v = ⟨p.path, .amount x⟩ := by
  rcases Layout.violation?_scalar_eq_some_iff.1 h with ⟨bad, hid, -⟩ | ⟨-, hbooks⟩
  · cases hid
  rcases Layout.violation?_message_eq_some_iff.1 hbooks with ⟨c, w, hc, hw, rfl⟩ | ⟨hyes, hrest⟩
  · exact isFirstFault_of_book (o := .yes) hc hw nofun
  rcases Layout.violation?_message_eq_some_iff.1 hrest with ⟨c, w, hc, hw, rfl⟩ | ⟨-, hdone⟩
  · exact isFirstFault_of_book (o := .no) hc hw fun _ => violation?_book_iff.1 hyes
  · cases hdone

end MarketBook

/-! ## Envelopes -/

/-- Whether the channel of an envelope has a name. -/
def EnvelopeData.IsKnown (d : EnvelopeData) : Prop :=
  (choiceName? envelopeChannels d.channel).isSome = true

/-- Whether the operation of an envelope has a name. -/
def EnvelopePayload.IsKnown (p : EnvelopePayload) : Prop :=
  (choiceName? envelopeOperations p.ops).isSome = true

namespace Envelope

variable {e : Envelope} {v : Violation}

theorem violation?_data_eq_none_iff {d : EnvelopeData} :
    envelopeDataLayout.violation? d.toContent = none ↔ d.IsKnown := by
  rw [EnvelopeData.toContent, Layout.violation?_scalar_iff, Layout.violation?_scalar_iff,
    EnvelopeData.IsKnown, ← Scalar.bad?_choice_eq_none_iff envelopeChannels]
  exact and_iff_left ⟨rfl, rfl⟩

theorem violation?_data_eq_some {d : EnvelopeData}
    (h : envelopeDataLayout.violation? d.toContent = some v) :
    ¬d.IsKnown ∧ v = ⟨[.field "channel"], .choice d.channel⟩ := by
  rcases Layout.violation?_scalar_eq_some_iff.1 h with ⟨bad, hchannel, rfl⟩ | ⟨-, hrest⟩
  · obtain ⟨hbad, rfl⟩ :=
      (Scalar.bad?_choice_eq_some_iff envelopeChannels).1 hchannel
    exact ⟨hbad, rfl⟩
  · cases hrest

theorem violation?_payload_eq_none_iff {p : EnvelopePayload} :
    envelopePayloadLayout.violation? p.toContent = none ↔ p.IsKnown ∧ ∀ d ∈ p.data, d.IsKnown := by
  rw [EnvelopePayload.toContent, Layout.violation?_scalar_iff, Layout.violation?_message_iff,
    EnvelopePayload.IsKnown, ← Scalar.bad?_choice_eq_none_iff envelopeOperations]
  simp only [← violation?_data_eq_none_iff, Option.forall_mem_map, Layout.violation?, and_true]
  rfl

/-- An operation is refused for its own number, or else for the channel it is about. -/
theorem violation?_payload_eq_some {p : EnvelopePayload}
    (h : envelopePayloadLayout.violation? p.toContent = some v) :
    (¬p.IsKnown ∧ v = ⟨[.field "ops"], .choice p.ops⟩) ∨
      p.IsKnown ∧ ∃ d ∈ p.data, ¬d.IsKnown ∧
        v = ⟨[.field "data", .field "channel"], .choice d.channel⟩ := by
  rcases Layout.violation?_scalar_eq_some_iff.1 h with ⟨bad, hops, rfl⟩ | ⟨hops, hrest⟩
  · obtain ⟨hbad, rfl⟩ := (Scalar.bad?_choice_eq_some_iff envelopeOperations).1 hops
    exact .inl ⟨hbad, rfl⟩
  refine .inr ⟨(Scalar.bad?_choice_eq_none_iff envelopeOperations).1 hops, ?_⟩
  rcases Layout.violation?_message_eq_some_iff.1 hrest with ⟨c, w, hc, hw, rfl⟩ | ⟨-, hdone⟩
  · obtain ⟨d, hd, rfl⟩ := Option.map_eq_some_iff.1 hc
    obtain ⟨hbad, rfl⟩ := violation?_data_eq_some hw
    exact ⟨d, hd, hbad, rfl⟩
  · cases hdone

theorem violation?_eq_none_iff :
    envelopeLayout.violation? e.toContent = none ↔
      ∀ p ∈ e.payload, p.IsKnown ∧ ∀ d ∈ p.data, d.IsKnown := by
  rw [toContent, Layout.violation?_scalar_iff, Layout.violation?_message_iff]
  simp only [← violation?_payload_eq_none_iff, Option.forall_mem_map, Layout.violation?, and_true]
  exact and_iff_right rfl

/-- An envelope is refused for its operation, or else for the channel it is about. -/
theorem violation?_eq_some (h : envelopeLayout.violation? e.toContent = some v) :
    ∃ p ∈ e.payload,
      (¬p.IsKnown ∧ v = ⟨[.field "payload", .field "ops"], .choice p.ops⟩) ∨
      p.IsKnown ∧ ∃ d ∈ p.data, ¬d.IsKnown ∧
        v = ⟨[.field "payload", .field "data", .field "channel"], .choice d.channel⟩ := by
  rcases Layout.violation?_scalar_eq_some_iff.1 h with ⟨bad, hid, -⟩ | ⟨-, hrest⟩
  · cases hid
  rcases Layout.violation?_message_eq_some_iff.1 hrest with ⟨c, w, hc, hw, rfl⟩ | ⟨-, hdone⟩
  · obtain ⟨p, hp, rfl⟩ := Option.map_eq_some_iff.1 hc
    refine ⟨p, hp, ?_⟩
    rcases violation?_payload_eq_some hw with ⟨hbad, rfl⟩ | ⟨hknown, d, hd, hbad, rfl⟩
    · exact .inl ⟨hbad, rfl⟩
    · exact .inr ⟨hknown, d, hd, hbad, rfl⟩
  · cases hdone

end Envelope

/-- **What is refused, and what the refusal names.** The books of a market pass exactly if
every level on the four sides has a price and shares that are finite and not negative, and
an envelope exactly if its operation and its channel have a name. The text for refused books
begins with the way to the first amount that may not pass, in the order yes before no, bids
before asks, level by level, the price before the shares. That for a refused envelope begins
with the way to the operation, and to the channel only if the operation has a name. -/
theorem verify_first_fault (b : MarketBook) (e : Envelope) :
    (marketBookLayout.verify b.toContent = .ok () ↔
      ∀ o side, ∀ l ∈ b.levels o side, l.price.IsAmount ∧ l.shares.IsAmount) ∧
    (∀ v, marketBookLayout.verify b.toContent = .error v →
      ∃ p x, b.IsFirstFault p x ∧ v.path = p.path ∧
        v.text = p.outcome.bookKey ++ "." ++ p.side.listKey ++ "[" ++ toString p.index ++ "]." ++
          p.which.key ++ ": invalid value " ++ x.text) ∧
    (envelopeLayout.verify e.toContent = .ok () ↔
      ∀ p ∈ e.payload, (choiceName? envelopeOperations p.ops).isSome = true ∧
        ∀ d ∈ p.data, (choiceName? envelopeChannels d.channel).isSome = true) ∧
    (∀ v, envelopeLayout.verify e.toContent = .error v →
      ∃ p ∈ e.payload,
        (choiceName? envelopeOperations p.ops = none ∧
          v.text = "payload.ops: enum value expected, got " ++ toString p.ops.toInt) ∨
        (choiceName? envelopeOperations p.ops).isSome = true ∧
          ∃ d ∈ p.data, choiceName? envelopeChannels d.channel = none ∧
            v.text = "payload.data.channel: enum value expected, got " ++
              toString d.channel.toInt) := by
  refine ⟨?_, fun v hv => ?_, ?_, fun v hv => ?_⟩
  · rw [Layout.verify_eq_ok_iff, MarketBook.violation?_eq_none_iff]
    rfl
  · obtain ⟨p, x, hfault, rfl⟩ :=
      MarketBook.isFirstFault_of_violation? (Layout.verify_eq_error_iff.1 hv)
    exact ⟨p, x, hfault, rfl, p.text_violation x⟩
  · rw [Layout.verify_eq_ok_iff, Envelope.violation?_eq_none_iff]
    rfl
  · obtain ⟨p, hp, hcases⟩ := Envelope.violation?_eq_some (Layout.verify_eq_error_iff.1 hv)
    refine ⟨p, hp, ?_⟩
    rcases hcases with ⟨hbad, rfl⟩ | ⟨hknown, d, hd, hbad, rfl⟩
    · exact .inl ⟨Option.not_isSome_iff_eq_none.1 hbad, Violation.text_choice ["payload", "ops"] p.ops⟩
    · exact .inr ⟨hknown, d, hd, Option.not_isSome_iff_eq_none.1 hbad,
        Violation.text_choice ["payload", "data", "channel"] d.channel⟩

/-- Books whose only bad amount is the last of all, the number of shares `-1` in the second
ask for no. -/
def oversold : MarketBook :=
  ⟨"m", some ⟨[⟨Binary64.mk 0x3FE0000000000000, Binary64.mk 0x3FF0000000000000, 1⟩], []⟩,
    some ⟨[], [⟨Binary64.mk 0x3FE0000000000000, Binary64.mk 0x3FF0000000000000, 1⟩,
      ⟨Binary64.mk 0x3FE0000000000000, Binary64.mk 0xBFF0000000000000, 2⟩]⟩⟩

/-- An envelope of a known operation about a channel without a name. -/
def unnamed : Envelope := ⟨none, some ⟨2, some ⟨7, "{}"⟩⟩⟩

/-- Both are refused, each for the value it is named after. -/
theorem verify_first_fault_oversold :
    (∃ p x, oversold.IsFirstFault p x ∧
      [.field "noBook", .item "asks" 1, .field "shares"] = p.path) ∧
    ∃ p ∈ unnamed.payload, ∃ d ∈ p.data, choiceName? envelopeChannels d.channel = none := by
  obtain ⟨-, hbook, -, henvelope⟩ := verify_first_fault oversold unnamed
  obtain ⟨p, x, hfault, hpath, -⟩ :=
    hbook ⟨[.field "noBook", .item "asks" 1, .field "shares"], .amount ⟨0xBFF0000000000000⟩⟩ rfl
  obtain ⟨q, hq, hcases⟩ :=
    henvelope ⟨[.field "payload", .field "data", .field "channel"], .choice 7⟩ rfl
  refine ⟨⟨p, x, hfault, hpath⟩, q, hq, ?_⟩
  rcases hcases with ⟨hnone, -⟩ | ⟨-, d, hd, hnone, -⟩
  · cases hq
    cases hnone
  · exact ⟨d, hd, hnone⟩

end PushFeed
