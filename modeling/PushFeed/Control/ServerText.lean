import PushFeed.Json.Reader
/-!
# Text frames from the server

The server confirms a subscription or its end; any other text is a notice.
-/

namespace PushFeed

/-- A text frame from the server. -/
inductive ServerText where
  /-- A channel is subscribed. -/
  | subscribed (channel : String)
  /-- A channel is no longer subscribed. -/
  | unsubscribed (channel : String)
  /-- Any other text. -/
  | notice (text : String)
  deriving DecidableEq, Repr

namespace ServerText

/-- The confirmation of a tag and its channel. -/
def ofTag? (tag channel : String) : Option ServerText :=
  if tag = "subscribed" then some (.subscribed channel)
  else if tag = "unsubscribed" then some (.unsubscribed channel)
  else none

/-- The values under a key of an object, in their order. -/
def valuesOf (key : String) (entries : List (String × Json)) : List Json :=
  (entries.filter fun e => e.1 == key).map (·.2)

/-- The confirmation a value holds: an object with one tag and one channel, in any
order and beside other entries, or the list of the two. -/
def confirmation? : Json → Option ServerText
  | .obj entries =>
    match valuesOf "type" entries, valuesOf "channel" entries with
    | [.str tag], [.str channel] => ofTag? tag channel
    | _, _ => none
  | .arr [.str tag, .str channel] => ofTag? tag channel
  | _ => none

/-- What a text frame says. -/
def parse (text : String) : ServerText :=
  match Json.readWhole Json.readAny text with
  | .ok value => (confirmation? value).getD (.notice text)
  | .error _ => .notice text

end ServerText

end PushFeed
