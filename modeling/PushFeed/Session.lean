import PushFeed.Channel.Turn
import PushFeed.Connection.Action
/-!
# Sessions

A session is one client at work: the feed with its connections, and the channels
opened over it. Everything that happens is an event, a channel's turn included, so a
run is a list of events, and turns may come in any order.
-/

namespace PushFeed

/-- One client at work. -/
structure Session where
  /-- What the channels share. -/
  feed : Feed
  /-- The options of channels that bring none of their own. -/
  options : ChannelOptions := {}
  /-- The channels opened so far. -/
  channels : List Channel := []

/-- Something that happens in a session. -/
inductive SessionEvent where
  /-- A channel is opened. -/
  | openChannel (topic : Topic) (request : ClientMessage) (options : ChannelOptions)
      (kind : MessageKind)
  /-- A channel has a turn. -/
  | turn (channel : Nat) (first : Precedence)
  /-- A channel is torn down. -/
  | tearDown (channel : Nat)
  /-- Somebody asks for a connection. -/
  | getConnection (force : Bool)
  /-- Something happens to a connection. -/
  | act (generation : Nat) (action : ConnectionAction)
  /-- Time goes by. -/
  | elapse (milliseconds : Nat)

namespace Session

/-- A session without a channel, at time zero. -/
def start (url : String) (options : ChannelOptions) : Session :=
  { feed := { hub := { url } }, options }

/-- Lets one channel do something to itself and the feed. -/
def onChannel (s : Session) (channel : Nat) (work : Channel → Feed → Channel × Feed) : Session :=
  match s.channels[channel]? with
  | none => s
  | some c =>
    let (c, feed) := work c s.feed
    { s with feed, channels := s.channels.set channel c }

/-- The session after an event. -/
def step (s : Session) : SessionEvent → Session
  | .openChannel topic request options kind =>
    let (c, lines) := Channel.opened topic request options kind
    { s with feed := s.feed.report lines, channels := s.channels ++ [c] }
  | .turn channel first => s.onChannel channel fun c feed => c.turn feed first
  | .tearDown channel => s.onChannel channel Channel.tearDown
  | .getConnection force => { s with feed := s.feed.getConnection force }
  | .act generation action =>
    { s with feed := s.feed.onConnection generation fun connection => connection.apply action }
  | .elapse milliseconds =>
    { s with feed := { s.feed with now := s.feed.now + milliseconds } }

/-- The session after a list of events. -/
def run (s : Session) (events : List SessionEvent) : Session := events.foldl step s

/-- Opens a channel that asks for its topic, with the session's options. -/
def subscribeEvent (s : Session) (topic : Topic) (kind : MessageKind) : SessionEvent :=
  .openChannel topic (.subscribe topic.channel) s.options kind

end Session

end PushFeed
