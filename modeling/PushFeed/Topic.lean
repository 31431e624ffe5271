import PushFeed.Text.Blank
import PushFeed.Json.Printer
import PushFeed.Json.Reader
/-!
# Topics

A topic names a channel of the server, the schema its frames follow and how the
stream of decoded messages keeps what arrives. Channel names of the server have a
form of their own, `ChannelKey`.
-/

namespace PushFeed

/-- A channel name the server understands. -/
inductive ChannelKey where
  /-- Prices of a market. -/
  | priceUpdate (market : String)
  /-- The order book of a market. -/
  | orderBookUpdate (market : String)
  /-- The channel prices are posted to. -/
  | pricePoster
  /-- The channel order books are posted to. -/
  | orderBookPoster
  deriving DecidableEq, Repr

namespace ChannelKey

/-- What stands before the market id of a price channel. -/
def priceHead : String := "price_update:"

/-- What stands before the market id of an order book channel. -/
def orderBookHead : String := "order_book_update:"

/-- The name of the channel prices are posted to. -/
def pricePosterName : String := "price_poster"

/-- The name of the channel order books are posted to. -/
def orderBookPosterName : String := "order_book_poster"

/-- The channel's name. -/
def text : ChannelKey → String
  | .priceUpdate market => priceHead ++ market
  | .orderBookUpdate market => orderBookHead ++ market
  | .pricePoster => pricePosterName
  | .orderBookPoster => orderBookPosterName

/-- The market a channel is about. -/
def market? : ChannelKey → Option String
  | .priceUpdate market => some market
  | .orderBookUpdate market => some market
  | .pricePoster => none
  | .orderBookPoster => none

/-- A market id without the blanks around it; an empty one is none. -/
def marketOf? (s : String) : Option String :=
  let market := Text.trim s
  if market = "" then none else some market

/-- The channel of a name. A poster's name may go on after its end. -/
def parse? (s : String) : Option ChannelKey :=
  match Text.dropPrefix? priceHead s with
  | some market => (marketOf? market).map .priceUpdate
  | none =>
    match Text.dropPrefix? orderBookHead s with
    | some market => (marketOf? market).map .orderBookUpdate
    | none =>
      if Text.hasPrefix pricePosterName s then some .pricePoster
      else if Text.hasPrefix orderBookPosterName s then some .orderBookPoster
      else none

/-- The names of the kinds of channel in JSON. -/
def kinds : List String :=
  ["price_update", "order_book_update", "price_poster", "order_book_poster"]

/-- The channel in JSON: an object of its kind and market, or its bare kind. -/
def json : ChannelKey → List Char
  | .priceUpdate market => Json.objectText [("price_update", Json.stringText market)]
  | .orderBookUpdate market => Json.objectText [("order_book_update", Json.stringText market)]
  | .pricePoster => Json.stringText "price_poster"
  | .orderBookPoster => Json.stringText "order_book_poster"

/-- Reads a channel from JSON. -/
def reader : Json.Reader ChannelKey :=
  Json.readVariant kinds
    (fun kind =>
      if kind = "price_poster" then .ok .pricePoster
      else if kind = "order_book_poster" then .ok .orderBookPoster
      else .error (.wrongType .unitVariant "newtype variant"))
    (fun kind depth cs =>
      if kind = "price_update" then do
        let (market, rest) ← Json.readText depth cs
        .ok (.priceUpdate market, rest)
      else if kind = "order_book_update" then do
        let (market, rest) ← Json.readText depth cs
        .ok (.orderBookUpdate market, rest)
      else do
        let ((), rest) ← Json.readUnit depth cs
        .ok (if kind = "price_poster" then .pricePoster else .orderBookPoster, rest))

end ChannelKey

/-- How a channel's stream keeps the messages that arrive. -/
inductive Retention where
  /-- All of them, the newest first. -/
  | newestFirst
  /-- All of them, in the order they arrived. -/
  | arrivalOrder
  /-- Those of the last arrival. -/
  | keepLatest
  deriving DecidableEq, Repr

namespace Retention

instance : Inhabited Retention := ⟨.keepLatest⟩

/-- All messages or the last arrival only. -/
def ofRetainAll (all : Bool) : Retention := if all then .newestFirst else .keepLatest

/-- Whether earlier messages stay. -/
def retainsHistory : Retention → Bool
  | .keepLatest => false
  | _ => true

/-- The stream after a batch of messages has arrived. -/
def apply {α : Type} (r : Retention) (queue batch : List α) : List α :=
  match r with
  | .newestFirst => batch.reverse ++ queue
  | .arrivalOrder => queue ++ batch
  | .keepLatest => batch

/-- The message that arrived last, of a stream. -/
def latest? {α : Type} (r : Retention) (queue : List α) : Option α :=
  match r with
  | .newestFirst => queue.head?
  | .arrivalOrder => queue.getLast?
  | .keepLatest => queue.getLast?

end Retention

/-- What a channel asks the server for. -/
structure Topic where
  /-- The server's name of the channel. -/
  channel : String
  /-- Where the schema of the frames comes from. -/
  source : String
  /-- The message type of the frames, with its package. -/
  typeName : String
  /-- How the stream keeps what arrives. -/
  retention : Retention
  deriving DecidableEq, Repr

namespace Topic

/-- The schema file of order books, below a schema root. -/
def orderBookSchema : String := "ws_server/order_book.proto"

/-- The schema file of market prices, below a schema root. -/
def marketPriceSchema : String := "ws_server/market_price.proto"

/-- The schema file of the shared envelope, below a schema root. -/
def commonSchema : String := "ws_server/common.proto"

/-- The message type of order books. -/
def marketBookType : String := "order_book.MarketBook"

/-- The message type of market prices. -/
def pricePayloadType : String := "ws_market_price.WsParamsPayload"

/-- A schema root without the slashes at its end. -/
def bareRoot (root : String) : String :=
  String.ofList (root.toList.reverse.dropWhile (· == '/')).reverse

/-- A schema file below a root; without a root, the file alone. -/
def schemaPath (root file : String) : String :=
  let root := bareRoot root
  if root = "" then file else root ++ "/" ++ file

/-- The order book of a market. -/
def orderBook (market root : String) : Topic :=
  { channel := (ChannelKey.orderBookUpdate market).text
    source := schemaPath root orderBookSchema
    typeName := marketBookType
    retention := .keepLatest }

/-- The prices of a market. -/
def marketPrice (market root : String) : Topic :=
  { channel := (ChannelKey.priceUpdate market).text
    source := schemaPath root marketPriceSchema
    typeName := pricePayloadType
    retention := .keepLatest }

/-- The topic as a message names it. -/
def text (t : Topic) : String := t.channel ++ " (" ++ t.typeName ++ ")"

end Topic

end PushFeed
