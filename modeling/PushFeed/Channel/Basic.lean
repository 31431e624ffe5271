import PushFeed.Watched
import PushFeed.Topic
import PushFeed.Channel.Options
import PushFeed.Channel.State
import PushFeed.Channel.Message
import PushFeed.Feed
/-!
# Channels

A channel asks the server for one topic over the shared connection, decodes the
frames that come in and publishes the stream of decoded messages. When its
connection closes it waits for another one, and forces one itself if none comes.

A channel is in one phase at a time and moves on only in its turns. All other fields
are what it remembers and publishes.
-/

namespace PushFeed

/-- A stretch of attempts to reconnect. -/
structure Episode where
  /-- When the channel saw the connection close. -/
  closedAt : Nat
  /-- The connection it waits for. -/
  tracked : Nat
  /-- The connection it has given its time already. -/
  lastChecked : Nat
  deriving DecidableEq, Repr

/-- Where a channel is in its work. -/
inductive Phase where
  /-- It has had no turn yet. -/
  | starting
  /-- It follows a connection, which it has seen in the given state. -/
  | following (generation : Nat) (seen : ReadyState)
  /-- It waits for an attempt to be due. -/
  | retrying (attempt : Nat) (episode : Episode)
  /-- It has given up and waits to be torn down. -/
  | stalled
  /-- It is done, or it was never to work. -/
  | ended
  /-- It broke down because an attempt had no deadline. -/
  | broken
  deriving DecidableEq, Repr

/-- A listener of the channel's on a connection. -/
structure Attachment where
  /-- The connection. -/
  generation : Nat
  /-- The listener's number on it. -/
  listener : Nat
  deriving DecidableEq, Repr

/-- A channel. -/
structure Channel where
  /-- What it asks the server for. -/
  topic : Topic
  /-- The message it asks with. -/
  request : ClientMessage
  /-- How it behaves. -/
  options : ChannelOptions
  /-- What its messages are read as. -/
  kind : MessageKind
  /-- Where it is in its work. -/
  phase : Phase := .starting
  /-- The states it has published, the latest first. -/
  states : List ChannelState := []
  /-- The stream of decoded messages. -/
  messages : List Message := []
  /-- Its listener. -/
  attached : Option Attachment := none
  /-- The connection its request went out on. -/
  sentOn : Option Nat := none
  /-- The connection on which its request turned out to be invalid. -/
  rejectedOn : Option Nat := none
  /-- Whether its schema could not be loaded. -/
  schemaFailed : Bool := false
  /-- How often its request went out. -/
  subscribes : Nat := 0
  /-- How many frames it has decoded. -/
  decoded : Nat := 0
  /-- How many frames it has dropped. -/
  dropped : Nat := 0
  /-- How often it has told its opener that it gave up. -/
  exhaustedCalls : Nat := 0

namespace Channel

/-- The state it published last. -/
def state (c : Channel) : ChannelState := c.states.headD .idle

/-- Whether it may still publish something. -/
def isLive (c : Channel) : Bool :=
  match c.phase with
  | .ended => false
  | .broken => false
  | _ => true

/-- Its state as its observers watch it. -/
def watchedState (c : Channel) : Watched ChannelState := ⟨c.state, c.states.length, c.isLive⟩

/-- Its stream as its observers watch it: every decoded frame is news. -/
def watchedMessages (c : Channel) : Watched (List Message) := ⟨c.messages, c.decoded, c.isLive⟩

/-- The message decoded last. -/
def latest? (c : Channel) : Option Message := c.topic.retention.latest? c.messages

/-- A log line about the channel. -/
def line (c : Channel) (level : LogLevel) (text : String) : LogLine :=
  ⟨level, "[Channel " ++ c.topic.channel ++ "] " ++ text⟩

/-- Publishes a state, if it is another one. -/
def publish (c : Channel) (s : ChannelState) : Channel :=
  if c.state = s then c else { c with states := s :: c.states }

/-- A new channel. A disabled one is done before it begins. -/
def opened (topic : Topic) (request : ClientMessage) (options : ChannelOptions)
    (kind : MessageKind) : Channel × List LogLine :=
  let c : Channel := { topic, request, options, kind }
  if options.disabled then
    ({ c.publish .disabled with phase := .ended }, [c.line .debug "Disabled, not connecting"])
  else (c, [])

/-- The channel as the log shows it. -/
def debug (c : Channel) : String :=
  "ChannelHandle \x7b topic: " ++ Text.quoted c.topic.channel ++ ", state: " ++ c.state.debug ++
    ", messages: " ++ toString c.messages.length ++ " \x7d"

@[simp] theorem state_publish (c : Channel) (s : ChannelState) : (c.publish s).state = s := by
  simp only [publish]
  split
  · assumption
  · rfl

end Channel

end PushFeed
