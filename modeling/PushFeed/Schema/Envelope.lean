import PushFeed.Wire.Layout
/-!
# Envelope messages

What the services that post prices and books exchange with the server: a message
with an optional id around an operation, around the channel it is about.
-/

namespace PushFeed

open Wire

/-- The channels of the envelope, by number. -/
def envelopeChannels : List String :=
  ["Priceupdate", "Priceposter", "Orderbookupdate", "Orderservice"]

/-- The operations of the envelope, by number. -/
def envelopeOperations : List String := ["Subscribe", "Unsubscribe", "Post", "Handshake"]

/-- The name of a choice among numbered ones. -/
def choiceName? (names : List String) (n : Int32) : Option String :=
  if 0 ≤ n.toInt then names[n.toInt.toNat]? else none

/-- The layout of the channel and its parameters. -/
abbrev envelopeDataLayout : Layout :=
  .scalar ⟨1, "channel", "channel"⟩ (.choice 4) <|
  .scalar ⟨2, "params", "params"⟩ .text .done

/-- The layout of an operation. -/
abbrev envelopePayloadLayout : Layout :=
  .scalar ⟨1, "ops", "ops"⟩ (.choice 4) <|
  .message ⟨2, "data", "data"⟩ "WsData" envelopeDataLayout .done

/-- The layout of a whole message. -/
abbrev envelopeLayout : Layout :=
  .scalar ⟨1, "id", "id"⟩ .optionalText <|
  .message ⟨2, "payload", "payload"⟩ "Payload" envelopePayloadLayout .done

/-- A channel and its parameters. -/
structure EnvelopeData where
  /-- The number of the channel. -/
  channel : Int32
  /-- The parameters. -/
  params : String
  deriving DecidableEq

/-- An operation and what it is about. -/
structure EnvelopePayload where
  /-- The number of the operation. -/
  ops : Int32
  /-- What the operation is about. -/
  data : Option EnvelopeData
  deriving DecidableEq

/-- A message of the posting services. -/
structure Envelope where
  /-- An id of the sender's choice. -/
  id : Option String
  /-- The operation. -/
  payload : Option EnvelopePayload
  deriving DecidableEq

/-- The data in its layout's form. -/
def EnvelopeData.toContent (d : EnvelopeData) : envelopeDataLayout.Content :=
  (d.channel, d.params, ())

/-- The operation in its layout's form. -/
def EnvelopePayload.toContent (p : EnvelopePayload) : envelopePayloadLayout.Content :=
  (p.ops, p.data.map EnvelopeData.toContent, ())

/-- The message in its layout's form. -/
def Envelope.toContent (e : Envelope) : envelopeLayout.Content :=
  (e.id, e.payload.map EnvelopePayload.toContent, ())

end PushFeed
