import PushFeed.Channel.Reconnect
/-!
# A channel's turn

A channel does its work in turns. In a turn it looks at everything it waits for and
does all it can before it waits again; nothing else happens meanwhile. Where a frame
and a change of the connection are both there, either may come first. The end of a
channel is a turn of its own.
-/

namespace PushFeed

/-- What a channel takes first where a frame and a change of its connection are both
there. -/
inductive Precedence where
  /-- The change. -/
  | stateFirst
  /-- One frame, and then the change. -/
  | frameFirst
  deriving DecidableEq, Repr

namespace Channel

/-- Looks at the state of a connection and does what it asks for. -/
def look (c : Channel) (f : Feed) (generation : Nat) : Channel × Feed :=
  let state := f.hub.stateOf generation
  match state with
  | .connecting => ({ c with phase := .following generation state }.publish .awaitingOpen, f)
  | .open => { c with phase := .following generation state }.subscribe f generation
  | .closing => c.reconnect f generation
  | .closed => c.reconnect f generation

/-- A turn of the channel. -/
def turn (c : Channel) (f : Feed) (first : Precedence) : Channel × Feed :=
  match c.phase with
  | .starting =>
    let f := f.getConnection false
    c.look f f.hub.generation
  | .following generation seen =>
    if f.hub.stateOf generation = seen then c.handleAll f
    else
      let (c, f) := if first = .frameFirst then c.handleNext f else (c, f)
      let (c, f) := c.look f generation
      c.handleAll f
  | .retrying attempt episode =>
    c.attempts (c.options.maxAttempts.toNat + 1 - attempt) attempt f episode
  | .stalled => (c, f)
  | .ended => (c, f)
  | .broken => (c, f)

/-- Lets the topic go on the connection the request went out on. -/
def unsubscribe (c : Channel) (f : Feed) (generation : Nat) : Feed :=
  if c.options.unsubscribeOnClose ∧ c.sentOn = some generation ∧
      (f.hub.stateOf generation).isOpen then
    match (ClientMessage.unsubscribe c.topic.channel).text?.bind (f.sendText generation) with
    | .ok f => f
    | .error e => f.report [c.line .warn ("Failed to unsubscribe: " ++ e.message)]
  else f

/-- Lets go of listener and topic. -/
def release (c : Channel) (f : Feed) : Channel × Feed :=
  match c.attached with
  | none => (c, f)
  | some a =>
    let (c, f) := c.detach f
    (c, c.unsubscribe f a.generation)

/-- The last turn of a channel. One that has had no turn before asks for a connection
all the same. -/
def tearDown (c : Channel) (f : Feed) : Channel × Feed :=
  if c.isLive then
    let f := if c.phase = .starting then f.getConnection false else f
    let (c, f) := c.release f
    ({ c with phase := .ended }, f.report [c.line .debug "Torn down"])
  else (c, f)

end Channel

end PushFeed
