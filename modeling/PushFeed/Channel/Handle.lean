import PushFeed.Channel.Basic
/-!
# Handles and streams

The opener's side of a channel. A handle looks at the stream and the state; a stream
gives the snapshots of the message stream one after the other. Both remember what
they have seen.
-/

namespace PushFeed

/-- The opener's side of a channel. -/
structure ChannelHandle where
  /-- The version of the message stream it has seen. -/
  messagesSeen : Nat := 0
  /-- The version of the state it has seen. -/
  statesSeen : Nat := 0
  deriving DecidableEq, Repr

/-- The snapshots of a channel's message stream. -/
structure ChannelStream where
  /-- The version of the message stream it has seen. -/
  seen : Nat := 0
  deriving DecidableEq, Repr

namespace ChannelHandle

/-- Looks whether the message stream has changed. -/
def changed (h : ChannelHandle) (c : Channel) : Polled Bool × ChannelHandle :=
  let (answer, seen) := c.watchedMessages.changed h.messagesSeen
  (answer, { h with messagesSeen := seen })

/-- Looks whether the message stream is as wanted. -/
def waitForMessages (h : ChannelHandle) (c : Channel) (wanted : List Message → Bool) :
    Polled (Option (List Message)) × ChannelHandle :=
  let (answer, seen) := c.watchedMessages.waitFor wanted
  (answer, { h with messagesSeen := seen })

/-- Looks whether the state is as wanted. -/
def waitForState (h : ChannelHandle) (c : Channel) (wanted : ChannelState → Bool) :
    Polled (Option ChannelState) × ChannelHandle :=
  let (answer, seen) := c.watchedState.waitFor wanted
  (answer, { h with statesSeen := seen })

/-- Goes over to snapshots, from what the handle has seen on. -/
def toStream (h : ChannelHandle) : ChannelStream := ⟨h.messagesSeen⟩

end ChannelHandle

/-- Looks for the next snapshot. -/
def ChannelStream.next (s : ChannelStream) (c : Channel) :
    Polled (Option (List Message)) × ChannelStream :=
  let (answer, seen) := c.watchedMessages.next s.seen
  (answer, ⟨seen⟩)

end PushFeed
