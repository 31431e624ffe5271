import PushFeed.Wire.Layout
/-!
# Order book messages

The full book of a market: for each outcome an optional book of bids and asks,
each a list of levels. The structures are the messages with their fields by name;
`toContent` and `ofContent` go to the layout's form and back.
-/

namespace PushFeed

open Wire

/-- The layout of a price level. -/
abbrev orderLevelLayout : Layout :=
  .scalar ⟨1, "price", "price"⟩ .amount <|
  .scalar ⟨2, "shares", "shares"⟩ .amount <|
  .scalar ⟨3, "users", "users"⟩ .count .done

/-- The layout of one side-by-side book. -/
abbrev orderBookLayout : Layout :=
  .repeated ⟨1, "bids", "bids"⟩ "OrderLevel" orderLevelLayout <|
  .repeated ⟨2, "asks", "asks"⟩ "OrderLevel" orderLevelLayout .done

/-- The layout of a market's books. -/
abbrev marketBookLayout : Layout :=
  .scalar ⟨1, "market_id", "marketId"⟩ .text <|
  .message ⟨2, "yes_book", "yesBook"⟩ "OrderBook" orderBookLayout <|
  .message ⟨3, "no_book", "noBook"⟩ "OrderBook" orderBookLayout .done

/-- A price level. -/
structure OrderLevel where
  /-- The price of a share. -/
  price : Binary64
  /-- How many shares are offered or wanted. -/
  shares : Binary64
  /-- How many users stand behind them. -/
  users : UInt32
  deriving DecidableEq

/-- The bids and asks for one outcome. -/
structure OrderBook where
  /-- Levels of buyers. -/
  bids : List OrderLevel
  /-- Levels of sellers. -/
  asks : List OrderLevel
  deriving DecidableEq

/-- The books of a market. -/
structure MarketBook where
  /-- The market's id. -/
  marketId : String
  /-- The book for the outcome yes. -/
  yesBook : Option OrderBook
  /-- The book for the outcome no. -/
  noBook : Option OrderBook
  deriving DecidableEq

namespace OrderLevel

/-- The level in its layout's form. -/
def toContent (l : OrderLevel) : orderLevelLayout.Content := (l.price, l.shares, l.users, ())

/-- The level of its layout's form. -/
def ofContent (c : orderLevelLayout.Content) : OrderLevel := ⟨c.1, c.2.1, c.2.2.1⟩

@[simp] theorem ofContent_toContent (l : OrderLevel) : ofContent l.toContent = l := rfl

@[simp] theorem toContent_ofContent (c : orderLevelLayout.Content) :
    (ofContent c).toContent = c := rfl

end OrderLevel

namespace OrderBook

/-- The book in its layout's form. -/
def toContent (b : OrderBook) : orderBookLayout.Content :=
  (b.bids.map OrderLevel.toContent, b.asks.map OrderLevel.toContent, ())

/-- The book of its layout's form. -/
def ofContent (c : orderBookLayout.Content) : OrderBook :=
  ⟨c.1.map OrderLevel.ofContent, c.2.1.map OrderLevel.ofContent⟩

@[simp] theorem ofContent_toContent (b : OrderBook) : ofContent b.toContent = b := by
  cases b
  simp [ofContent, toContent, Function.comp_def]

@[simp] theorem toContent_ofContent (c : orderBookLayout.Content) :
    (ofContent c).toContent = c := by
  obtain ⟨bids, asks, -⟩ := c
  simp [ofContent, toContent, Function.comp_def]

end OrderBook

namespace MarketBook

/-- The books in their layout's form. -/
def toContent (b : MarketBook) : marketBookLayout.Content :=
  (b.marketId, b.yesBook.map OrderBook.toContent, b.noBook.map OrderBook.toContent, ())

/-- The books of their layout's form. -/
def ofContent (c : marketBookLayout.Content) : MarketBook :=
  ⟨c.1, c.2.1.map OrderBook.ofContent, c.2.2.1.map OrderBook.ofContent⟩

@[simp] theorem ofContent_toContent (b : MarketBook) : ofContent b.toContent = b := by
  cases b
  simp [ofContent, toContent, Function.comp_def]

@[simp] theorem toContent_ofContent (c : marketBookLayout.Content) :
    (ofContent c).toContent = c := by
  obtain ⟨id, yes, no, -⟩ := c
  simp [ofContent, toContent, Function.comp_def]

end MarketBook

end PushFeed
