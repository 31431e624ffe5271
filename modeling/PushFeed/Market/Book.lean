import PushFeed.Number.Power
import PushFeed.Number.Decimal
import PushFeed.Time.Instant
/-!
# Order book views

The book of a market as it is shown: levels with decimal prices, the best first on
every side. The best bid is the highest, the best ask the lowest, and levels of one
price keep the order they came in.
-/

namespace PushFeed

/-- An outcome of a market. -/
inductive Outcome where
  | yes
  | no
  deriving DecidableEq, Repr

/-- A side of a book. -/
inductive BookSide where
  | buy
  | sell
  deriving DecidableEq, Repr

/-- A price level of a view. -/
structure BookLevel where
  /-- The price of a share. -/
  price : Decimal
  /-- How many shares rest there. -/
  shares : Decimal
  /-- How many users stand behind them. -/
  users : UInt32
  /-- The side of the book. -/
  side : BookSide
  deriving DecidableEq

/-- The book of a market. -/
structure BookView where
  /-- The market's id. -/
  marketId : String
  /-- When the view was built. -/
  timestamp : Instant
  /-- Buyers of yes. -/
  yesBids : List BookLevel
  /-- Sellers of yes. -/
  yesAsks : List BookLevel
  /-- Buyers of no. -/
  noBids : List BookLevel
  /-- Sellers of no. -/
  noAsks : List BookLevel
  deriving DecidableEq

namespace BookLevel

/-- Whether one level may stand before another, the highest price first. -/
def highestFirst (a b : BookLevel) : Bool := b.price.le a.price

/-- Whether one level may stand before another, the lowest price first. -/
def lowestFirst (a b : BookLevel) : Bool := a.price.le b.price

end BookLevel

/-- The sum of counts, or the report that it does not fit. -/
def sumCounts (counts : List UInt32) : Except Overflow UInt32 :=
  counts.foldlM (fun sum n =>
    if sum.toNat + n.toNat < twoTo 32 then .ok (sum + n) else .error .count) 0

namespace BookView

/-- A book without levels. -/
def empty (marketId : String) (now : Instant) : BookView := ⟨marketId, now, [], [], [], []⟩

/-- The book with the best level first on every side. -/
def sortLevels (v : BookView) : BookView :=
  { v with
    yesBids := v.yesBids.mergeSort BookLevel.highestFirst
    yesAsks := v.yesAsks.mergeSort BookLevel.lowestFirst
    noBids := v.noBids.mergeSort BookLevel.highestFirst
    noAsks := v.noAsks.mergeSort BookLevel.lowestFirst }

/-- The buyers of an outcome. -/
def bids (v : BookView) : Outcome → List BookLevel
  | .yes => v.yesBids
  | .no => v.noBids

/-- The sellers of an outcome. -/
def asks (v : BookView) : Outcome → List BookLevel
  | .yes => v.yesAsks
  | .no => v.noAsks

/-- The levels of a side. -/
def levels (v : BookView) (o : Outcome) : BookSide → List BookLevel
  | .buy => v.bids o
  | .sell => v.asks o

/-- The price of the first bid. -/
def bestBid? (v : BookView) (o : Outcome) : Option Decimal := (v.bids o).head?.map (·.price)

/-- The price of the first ask. -/
def bestAsk? (v : BookView) (o : Outcome) : Option Decimal := (v.asks o).head?.map (·.price)

/-- How far the best ask is above the best bid, if there are both. -/
def spread (v : BookView) (o : Outcome) : Except Overflow (Option Decimal) :=
  match v.bestAsk? o, v.bestBid? o with
  | some ask, some bid => (ask.sub bid).map some
  | _, _ => .ok none

/-- The bids of an outcome and then its asks. -/
def ladder (v : BookView) (o : Outcome) : List BookLevel := v.bids o ++ v.asks o

/-- How many users stand behind a side. -/
def totalUsers (v : BookView) (o : Outcome) (s : BookSide) : Except Overflow UInt32 :=
  sumCounts ((v.levels o s).map (·.users))

/-- How a price is shown, or a dash for none. -/
def priceLabel : Option Decimal → String
  | some price => price.text
  | none => "-"

/-- The book in one line. -/
def line (v : BookView) : Except Overflow String := do
  let spread ← v.spread .yes
  .ok ("[Watch] " ++ v.marketId ++ " YES " ++ priceLabel (v.bestBid? .yes) ++ " / " ++
    priceLabel (v.bestAsk? .yes) ++ " (spread " ++ priceLabel spread ++ ") | NO " ++
    priceLabel (v.bestBid? .no) ++ " / " ++ priceLabel (v.bestAsk? .no))

end BookView

end PushFeed
