import PushFeed.Wire.Layout
/-!
# Market price messages

The latest prices of the two outcomes of a market.
-/

namespace PushFeed

open Wire

/-- The layout of a price message. -/
abbrev pricePayloadLayout : Layout :=
  .scalar ⟨1, "market_id", "marketId"⟩ .text <|
  .scalar ⟨2, "yes_price", "yesPrice"⟩ .amount <|
  .scalar ⟨3, "no_price", "noPrice"⟩ .amount <|
  .scalar ⟨4, "timestamp", "timestamp"⟩ .moment .done

/-- The latest prices of a market. -/
structure PricePayload where
  /-- The market's id. -/
  marketId : String
  /-- The price of the outcome yes. -/
  yesPrice : Binary64
  /-- The price of the outcome no. -/
  noPrice : Binary64
  /-- When the prices were posted, in seconds of the Unix epoch; zero if not said. -/
  timestamp : Int64
  deriving DecidableEq

namespace PricePayload

/-- The message in its layout's form. -/
def toContent (p : PricePayload) : pricePayloadLayout.Content :=
  (p.marketId, p.yesPrice, p.noPrice, p.timestamp, ())

/-- The message of its layout's form. -/
def ofContent (c : pricePayloadLayout.Content) : PricePayload :=
  ⟨c.1, c.2.1, c.2.2.1, c.2.2.2.1⟩

@[simp] theorem ofContent_toContent (p : PricePayload) : ofContent p.toContent = p := rfl

@[simp] theorem toContent_ofContent (c : pricePayloadLayout.Content) :
    (ofContent c).toContent = c := rfl

end PricePayload

end PushFeed
