import PushFeed.Number.Decimal.OfBinary64
import PushFeed.Schema.OrderBook
import PushFeed.Schema.MarketPrice
import PushFeed.Market.Book
import PushFeed.Market.Price
/-!
# Views of decoded messages

From the doubles of a message to the decimals of a view. A level whose price or
shares have no decimal value is left out.
-/

namespace PushFeed

/-- A level with decimal price and shares, if it has them. -/
def OrderLevel.toBookLevel? (side : BookSide) (l : OrderLevel) : Option BookLevel := do
  let price ← Decimal.ofBinary64? l.price
  let shares ← Decimal.ofBinary64? l.shares
  some ⟨price, shares, l.users, side⟩

/-- The levels of a side that have a decimal value. -/
def bookLevels (side : BookSide) (levels : List OrderLevel) : List BookLevel :=
  levels.filterMap (·.toBookLevel? side)

namespace MarketBook

/-- The bids for an outcome; an absent book has none. -/
def bids (b : MarketBook) : Outcome → List OrderLevel
  | .yes => (b.yesBook.map (·.bids)).getD []
  | .no => (b.noBook.map (·.bids)).getD []

/-- The asks for an outcome; an absent book has none. -/
def asks (b : MarketBook) : Outcome → List OrderLevel
  | .yes => (b.yesBook.map (·.asks)).getD []
  | .no => (b.noBook.map (·.asks)).getD []

/-- The book as a view, the best level first on every side. -/
def toView (b : MarketBook) (now : Instant) : BookView :=
  BookView.sortLevels
    { marketId := b.marketId
      timestamp := now
      yesBids := bookLevels .buy (b.bids .yes)
      yesAsks := bookLevels .sell (b.asks .yes)
      noBids := bookLevels .buy (b.bids .no)
      noAsks := bookLevels .sell (b.asks .no) }

/-- The highest price among the bids for yes. -/
def bestYesBid? (b : MarketBook) : Option Binary64 :=
  ((b.bids .yes).map (·.price)).foldl
    (fun best price => some (match best with
      | none => price
      | some best => best.max price)) none

end MarketBook

namespace PricePayload

/-- Whether the message says when its prices were posted. -/
def isTimed (p : PricePayload) : Bool := decide (0 < p.timestamp)

/-- When the prices were posted; `now` if the message does not say. -/
def time? (p : PricePayload) (now : Instant) : Option Instant :=
  if p.isTimed then Instant.ofSeconds? p.timestamp.toInt else some now

/-- The message as a price point, if its time and prices have a value. -/
def toPricePoint? (p : PricePayload) (now : Instant) : Option PricePoint := do
  let time ← p.time? now
  let yes ← Decimal.ofBinary64? p.yesPrice
  let no ← Decimal.ofBinary64? p.noPrice
  some ⟨yes, no, time⟩

end PricePayload

end PushFeed
