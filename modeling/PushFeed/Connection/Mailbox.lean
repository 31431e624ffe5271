import PushFeed.Polled
import PushFeed.Wire.Varint
/-!
# Mailboxes

What a listener of a connection has not taken yet. A mailbox gets frames while the
connection lists it. Once it is off the list the frames in it can still be taken,
and after them it has ended.
-/

namespace PushFeed

/-- The frames on their way to one listener. -/
structure Mailbox where
  /-- Whether the connection lists it. -/
  registered : Bool := true
  /-- Whether its listener still holds it. -/
  held : Bool := true
  /-- The frames not taken yet, the oldest first. -/
  queue : List Wire.Bytes := []
  deriving DecidableEq, Repr

namespace Mailbox

/-- The mailbox after a frame for all listeners. One that nobody holds is taken off
the list instead. -/
def deliver (m : Mailbox) (frame : Wire.Bytes) : Mailbox :=
  if m.registered then
    if m.held then { m with queue := m.queue ++ [frame] } else { m with registered := false }
  else m

/-- Takes the oldest frame, or `none` at the end. -/
def take (m : Mailbox) : Polled (Option Wire.Bytes) × Mailbox :=
  match m.queue with
  | frame :: rest => (.ready (some frame), { m with queue := rest })
  | [] => (if m.registered then .pending else .ready none, m)

end Mailbox

end PushFeed
