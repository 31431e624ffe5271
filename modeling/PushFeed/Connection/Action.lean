import PushFeed.Connection.Basic
/-!
# What can happen to a connection

Everything that users, listeners and the transport can do to a connection, in one
type, so that a connection's life is a list of actions.
-/

namespace PushFeed

/-- Something that happens to a connection. -/
inductive ConnectionAction where
  /-- The handshake succeeds. -/
  | markOpen
  /-- The transport comes to its end, with a fault or without. -/
  | markClosed (fault : Option String)
  /-- The transport goes away. -/
  | dropDriver
  /-- The transport stops taking from the queue. -/
  | dropOutbound
  /-- The transport takes an entry of the queue. -/
  | takeOutbound
  /-- A frame comes in. -/
  | dispatch (frame : Wire.Bytes)
  /-- A text comes in. -/
  | text (text : String)
  /-- A user asks to close. -/
  | close
  /-- A user queues a text. -/
  | send (text : String)
  /-- A listener is added. -/
  | addListener
  /-- A listener is taken off the list. -/
  | removeListener (listener : Nat)
  /-- A listener lets its mailbox go. -/
  | dropListener (listener : Nat)
  /-- A listener takes its next frame. -/
  | receive (listener : Nat)
  deriving DecidableEq, Repr

/-- Whether users and listeners do it; all else is up to the transport. -/
def ConnectionAction.isByUsers : ConnectionAction → Bool
  | .close | .send _ | .addListener | .removeListener _ | .dropListener _ | .receive _ => true
  | .markOpen | .markClosed _ | .dropDriver | .dropOutbound | .takeOutbound | .dispatch _
  | .text _ => false

namespace Connection

/-- The connection after an action, and what it reports. A text it does not take
leaves it as it is. -/
def apply (c : Connection) : ConnectionAction → Connection × List LogLine
  | .markOpen => c.markOpen
  | .markClosed fault => c.markClosed fault
  | .dropDriver => c.dropDriver
  | .dropOutbound => (c.dropOutbound, [])
  | .takeOutbound => (c.takeOutbound.2, [])
  | .dispatch frame => (c.dispatch frame, [])
  | .text text => (c, [textLine text])
  | .close => (c.close, [])
  | .send text => ((c.sendText text).toOption.getD c, [])
  | .addListener => c.addListener.2
  | .removeListener listener => (c.removeListener listener).2
  | .dropListener listener => (c.dropListener listener, [])
  | .receive listener => ((c.receive listener).2, [])

/-- The connection after a list of actions. -/
def applyAll (c : Connection) (actions : List ConnectionAction) : Connection :=
  actions.foldl (fun c action => (c.apply action).1) c

end Connection

end PushFeed
