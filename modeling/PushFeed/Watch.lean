import PushFeed.Schedule
import PushFeed.Channel.Handle
import PushFeed.Market.OfFrames
/-!
# Watching a market

The watcher keeps two channels open, the order book and the prices of one market, and
writes a line for each change of either. It takes what happens to its connection from
a recording, an entry a line.
-/

namespace PushFeed

/-- An entry of a recording. -/
inductive RecordedEvent where
  /-- The server has accepted the connection. -/
  | accepted
  /-- The connection has closed. -/
  | closed
  /-- Time has gone by. -/
  | waited (milliseconds : Nat)
  /-- A frame has come in. -/
  | frame (bytes : Wire.Bytes)
  deriving DecidableEq, Repr

namespace RecordedEvent

/-- The bytes of an even number of hexadecimal digits. -/
def bytesOf? : List Char → Option Wire.Bytes
  | [] => some []
  | [_] => none
  | a :: b :: rest => do
    let high ← Json.hexValue? a
    let low ← Json.hexValue? b
    let bytes ← bytesOf? rest
    some (UInt8.ofNat (high * 16 + low) :: bytes)

/-- The entry of a line: `open`, `close`, `wait` with milliseconds, or `frame` with
hexadecimal digits. -/
def parse? (line : String) : Option RecordedEvent :=
  match ((Text.trim line).splitOn " ").filter (· ≠ "") with
  | ["open"] => some .accepted
  | ["close"] => some .closed
  | ["wait", milliseconds] => milliseconds.toNat?.map .waited
  | ["frame"] => some (.frame [])
  | ["frame", digits] => (bytesOf? digits.toList).map .frame
  | _ => none

end RecordedEvent

/-- A watcher at work. Its channels are the book's and the prices', in this order. -/
structure Watch where
  /-- The channels and their turns. -/
  schedule : Schedule
  /-- What it has seen of the book. -/
  books : ChannelHandle := {}
  /-- What it has seen of the prices. -/
  prices : ChannelHandle := {}

namespace Watch

/-- The schema root of a watcher that is told none. -/
def defaultRoot : String := "/proto/proto_defs"

/-- The variable of the market's id. -/
def marketVariable : String := "FEED_MARKET_ID"

/-- The variable of the schema root. -/
def rootVariable : String := "FEED_SCHEMA_ROOT"

/-- A watcher of a market with both its channels open. -/
def start (settings : Settings) (market root : String) : Watch :=
  let url := settings.url.text
  let options := { ChannelOptions.ofSettings settings with onExhausted := true }
  let session := Session.start url options
  let opening := session.feed.report
    [⟨.info, "Watching market " ++ market ++ " on " ++ url ++ " (schemas under " ++ root ++ ")"⟩]
  let session := { session with feed := opening }.run
    [session.subscribeEvent (.orderBook market root) .book,
     session.subscribeEvent (.marketPrice market root) .price]
  { schedule := ({ session } : Schedule).settle }

/-- The watcher after an entry of its recording. -/
def handle (w : Watch) (event : RecordedEvent) : Watch :=
  let current := w.schedule.session.feed.hub.generation
  let onCurrent (action : ConnectionAction) : Watch :=
    { w with schedule := (w.schedule.step (.act current action)).settle }
  match event with
  | .accepted => onCurrent .markOpen
  | .closed => onCurrent (.markClosed none)
  | .waited milliseconds => { w with schedule := w.schedule.advance milliseconds }
  | .frame bytes => onCurrent (.dispatch bytes)

/-- A line the watcher writes, or why it cannot. -/
def lineOf : Except Overflow String → LogLine
  | .ok text => ⟨.info, text⟩
  | .error overflow => ⟨.error, overflow.message⟩

/-- The line about a message. -/
def describe (now : Instant) : Message → List LogLine
  | .book books => [lineOf (books.toView now).line]
  | .price prices =>
    match prices.toPricePoint? now with
    | some point => [lineOf point.line]
    | none => [⟨.warn, "[Watch] Price update with unrepresentable values"⟩]
  | _ => []

/-- The line about the latest message of a channel, if there is news of it. -/
def newsOf (w : Watch) (channel : Nat) (seen : ChannelHandle) (now : Instant) :
    List LogLine × ChannelHandle :=
  match w.schedule.session.channels[channel]? with
  | none => ([], seen)
  | some c =>
    match seen.changed c with
    | (.ready true, seen) => ((c.latest?.map (describe now)).getD [], seen)
    | (_, seen) => ([], seen)

/-- The lines about channels that have given up. -/
def givenUp (before after : Watch) : List LogLine :=
  let gaveUp (w : Watch) (i : Nat) :=
    (w.schedule.session.channels[i]?.map (·.exhaustedCalls)).getD 0
  (List.range after.schedule.session.channels.length).flatMap fun i =>
    match after.schedule.session.channels[i]? with
    | some c =>
      if gaveUp before i < gaveUp after i then
        [⟨.warn, "[Watch] Gave up on " ++ c.topic.channel ++ "; restart to resume"⟩]
      else []
    | none => []

/-- What there is to write, and the watcher that has written it. -/
def collect (w : Watch) (now : Instant) : List LogLine × Watch :=
  let (bookNews, books) := w.newsOf 0 w.books now
  let (priceNews, prices) := w.newsOf 1 w.prices now
  let session := w.schedule.session
  let quiet := { session with feed := { session.feed with log := [] } }
  (session.feed.log ++ bookNews ++ priceNews,
    { schedule := { w.schedule with session := quiet }, books, prices })

/-- The watcher after an entry of its recording, and the lines it writes about it. -/
def follow (w : Watch) (event : RecordedEvent) (now : Instant) : List LogLine × Watch :=
  let after := w.handle event
  let (lines, after') := after.collect now
  (lines ++ givenUp w after, after')

/-- The watcher after its channels are torn down, with its last lines. -/
def stop (w : Watch) : List LogLine :=
  (w.schedule.session.run [.tearDown 0, .tearDown 1]).feed.log

end Watch

end PushFeed
