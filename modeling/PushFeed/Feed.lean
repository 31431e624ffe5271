import PushFeed.Connection.Hub
import PushFeed.Schema.Cache
/-!
# The feed

What all channels of one client share: the hub with its connections, the schema
cache, the time and the log. A channel's turn takes the feed and gives it back.
-/

namespace PushFeed

/-- What the channels of one client share. -/
structure Feed where
  /-- The connections. -/
  hub : Hub
  /-- What loads the schemas. -/
  loader : SchemaLoader := .builtin
  /-- The schemas loaded so far. -/
  cache : SchemaCache := {}
  /-- The time in milliseconds. -/
  now : Nat := 0
  /-- The lines written so far. -/
  log : List LogLine := []

namespace Feed

/-- Writes lines to the log. -/
def report (f : Feed) (lines : List LogLine) : Feed := { f with log := f.log ++ lines }

/-- Sees to it that there is a current connection, a new one if it is forced. -/
def getConnection (f : Feed) (force : Bool) : Feed :=
  let (hub, lines) := f.hub.get force
  { f with hub }.report lines

/-- Changes a connection and writes what it reports. -/
def onConnection (f : Feed) (generation : Nat)
    (change : Connection → Connection × List LogLine) : Feed :=
  match f.hub.find? generation with
  | none => f
  | some c =>
    let (c, lines) := change c
    { f with hub := f.hub.modify generation fun _ => c }.report lines

/-- Queues a text on a connection. -/
def sendText (f : Feed) (generation : Nat) (text : String) : Except FeedError Feed :=
  match f.hub.find? generation with
  | none => .error (.transport "connection task has stopped")
  | some c => (c.sendText text).map fun c => { f with hub := f.hub.modify generation fun _ => c }

/-- Decodes a frame and reads it as a type of the caller's. -/
def decodeAs {α : Type} (f : Feed) (reader : Json → Except JsonFault α)
    (source typeName : String) (frame : Wire.Bytes) : Except FeedError α × Feed :=
  let (result, cache, lines) := f.cache.decodeAs reader f.loader source typeName frame
  (result, { f with cache }.report lines)

end Feed

end PushFeed
