import PushFeed.Error
import PushFeed.Topic
import PushFeed.Schema.OrderBook
import PushFeed.Schema.MarketPrice
import PushFeed.Schema.Envelope
/-!
# The built-in message types

Message types by the schema file that declares them. A source names a file by its
path below any root: the path alone, or any text that ends in a slash and the
path.
-/

namespace PushFeed

/-- A message type. -/
structure MessageType where
  /-- The name with its package. -/
  typeName : String
  /-- The name alone. -/
  name : String
  /-- The fields. -/
  layout : Wire.Layout
  deriving DecidableEq, Repr

namespace MessageType

/-- A price level. -/
def orderLevel : MessageType := ⟨"order_book.OrderLevel", "OrderLevel", orderLevelLayout⟩

/-- A book of one outcome. -/
def orderBook : MessageType := ⟨"order_book.OrderBook", "OrderBook", orderBookLayout⟩

/-- The books of a market. -/
def marketBook : MessageType := ⟨Topic.marketBookType, "MarketBook", marketBookLayout⟩

/-- The prices of a market. -/
def pricePayload : MessageType :=
  ⟨Topic.pricePayloadType, "WsParamsPayload", pricePayloadLayout⟩

/-- A message of the posting services. -/
def envelope : MessageType := ⟨"ws_common_types.WsMessage", "WsMessage", envelopeLayout⟩

/-- An operation of the posting services. -/
def envelopePayload : MessageType := ⟨"ws_common_types.Payload", "Payload", envelopePayloadLayout⟩

/-- What an operation of the posting services is about. -/
def envelopeData : MessageType := ⟨"ws_common_types.WsData", "WsData", envelopeDataLayout⟩

end MessageType

/-- A schema file and the message types it declares. -/
structure Bundle where
  /-- The file's path below a schema root. -/
  path : String
  /-- The declared types. -/
  types : List MessageType
  deriving DecidableEq, Repr

namespace Bundle

/-- Whether a source names this file. -/
def matches? (b : Bundle) (source : String) : Bool :=
  source == b.path || (Text.dropSuffix? b.path source).any (Text.hasSuffix "/")

/-- The type of a name. -/
def lookup? (b : Bundle) (typeName : String) : Option MessageType :=
  b.types.find? fun t => t.typeName == typeName

/-- The built-in files. -/
def builtin : List Bundle :=
  [⟨Topic.orderBookSchema,
      [MessageType.marketBook, MessageType.orderBook, MessageType.orderLevel]⟩,
   ⟨Topic.marketPriceSchema, [MessageType.pricePayload]⟩,
   ⟨Topic.commonSchema,
      [MessageType.envelope, MessageType.envelopePayload, MessageType.envelopeData]⟩]

end Bundle

/-- The type of a name in the file that a source names, among the given files. -/
def loadFrom (bundles : List Bundle) (source typeName : String) :
    Except FeedError MessageType :=
  if !Text.hasSuffix ".proto" source then
    .error (.schemaLoad source typeName "invalid file type, only .proto files are supported")
  else
    match bundles.find? (·.matches? source) with
    | none => .error (.schemaLoad source typeName "schema source not found")
    | some bundle =>
      match bundle.lookup? typeName with
      | some t => .ok t
      | none => .error (.schemaLoad source typeName ("no such type in " ++ bundle.path))

/-- The type of a name in the built-in file that a source names. -/
def loadBuiltin (source typeName : String) : Except FeedError MessageType :=
  loadFrom Bundle.builtin source typeName

end PushFeed
