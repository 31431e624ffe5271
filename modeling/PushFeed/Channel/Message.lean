import PushFeed.Control.ClientMessage
import PushFeed.Schema.Catalog
import PushFeed.Wire.Structured
/-!
# Messages of a channel's stream

Whoever opens a channel says what its messages are to be read as. The structured
value of each frame is read that way, and a frame that cannot be is dropped.
-/

namespace PushFeed

/-- What the messages of a stream are read as. -/
inductive MessageKind where
  /-- The books of a market. -/
  | book
  /-- The prices of a market. -/
  | price
  /-- The messages of a type. -/
  | ofType (t : MessageType)
  /-- A control message. -/
  | control
  /-- Any value. -/
  | value
  deriving DecidableEq, Repr

/-- A message of a stream. -/
inductive Message where
  /-- The books of a market. -/
  | book (books : MarketBook)
  /-- The prices of a market. -/
  | price (prices : PricePayload)
  /-- A message of a type, in its layout's form. -/
  | ofType (t : MessageType) (m : t.layout.Content)
  /-- A control message. -/
  | control (message : ClientMessage)
  /-- Any value. -/
  | value (v : Json)

namespace Message

/-- Reads a structured value as a message of a kind. -/
def ofJson : MessageKind → Json → Except JsonFault Message
  | .book, v => (marketBookLayout.ofJson "MarketBook" v).map fun m => .book (.ofContent m)
  | .price, v => (pricePayloadLayout.ofJson "WsParamsPayload" v).map fun m => .price (.ofContent m)
  | .ofType t, v => (t.layout.ofJson t.name v).map (.ofType t)
  | .control, v => (ClientMessage.record.decode v).map .control
  | .value, v => .ok (.value v)

/-- The message as a structured value. -/
def toJson : Message → Json
  | .book books => marketBookLayout.toJson books.toContent
  | .price prices => pricePayloadLayout.toJson prices.toContent
  | .ofType t m => t.layout.toJson m
  | .control message => message.toJson
  | .value v => v

end Message

end PushFeed
