import PushFeed.Number.Decimal
import PushFeed.Time.Instant
/-!
# Price points

The prices of the two outcomes of a market at one time, and how they are shown as
percentages.
-/

namespace PushFeed

/-- The prices of a market at one time. -/
structure PricePoint where
  /-- The price of yes. -/
  yes : Decimal
  /-- The price of no. -/
  no : Decimal
  /-- When the prices were posted. -/
  time : Instant
  deriving DecidableEq

namespace PricePoint

/-- A price as a percentage. -/
def percent (price : Decimal) : Except Overflow Decimal := price.mul (Decimal.ofInt 100)

/-- The price of yes as a percentage. -/
def yesPercent (p : PricePoint) : Except Overflow Decimal := percent p.yes

/-- The price of no as a percentage. -/
def noPercent (p : PricePoint) : Except Overflow Decimal := percent p.no

/-- The prices in one line, to a tenth of a percent. -/
def pricesLine (p : PricePoint) : Except Overflow String := do
  let yes ← p.yesPercent
  let no ← p.noPercent
  .ok ("[Watch] YES " ++ (yes.roundPlaces 1).text ++ "% NO " ++ (no.roundPlaces 1).text ++ "%")

/-- The prices and the time of day in one line. -/
def line (p : PricePoint) : Except Overflow String := do
  let prices ← p.pricesLine
  .ok (prices ++ " at " ++ String.ofList p.time.clockText)

end PricePoint

end PushFeed
