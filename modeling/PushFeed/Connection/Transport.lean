import PushFeed.Connection.Action
/-!
# Transports

A transport carries one connection over the network. It dials the server; once the
server has accepted, it hands binary frames to the connection's listeners, answers
pings and writes what is queued, until either side closes. Whatever ends it, it
leaves the connection closed.

What the network brings, what is in the queue and what users do to the connection may
come in any order, so each is a step of its own. A write may fail, with the reason given
to the step.
-/

namespace PushFeed

/-- What the network brings. -/
inductive Arrival where
  /-- The server accepts the handshake. -/
  | accepted
  /-- The handshake fails. -/
  | refused (reason : String)
  /-- A binary message. -/
  | binary (frame : Wire.Bytes)
  /-- A text message. -/
  | text (text : String)
  /-- A ping. -/
  | ping (payload : Wire.Bytes)
  /-- A pong. -/
  | pong (payload : Wire.Bytes)
  /-- The server's close frame. -/
  | closing
  /-- The network fails. -/
  | failed (reason : String)
  /-- There will be nothing more. -/
  | ended
  deriving DecidableEq, Repr

/-- A frame that has been written. -/
inductive Written where
  | text (text : String)
  | pong (payload : Wire.Bytes)
  | close
  deriving DecidableEq, Repr

/-- How far a transport has come. -/
inductive TransportStage where
  /-- It waits for the server to accept. -/
  | dialing
  /-- It carries frames. -/
  | streaming
  /-- It is done. -/
  | finished
  deriving DecidableEq, Repr

/-- A transport. -/
structure Transport where
  /-- How far it has come. -/
  stage : TransportStage := .dialing
  /-- What it has written, the oldest first. -/
  written : List Written := []
  deriving DecidableEq, Repr

/-- What happens to a transport and its connection. -/
inductive TransportEvent where
  /-- The network brings something; if an answer is written, whether that fails. -/
  | arrive (arrival : Arrival) (writeFault : Option String)
  /-- The transport looks into the queue; if it writes, whether that fails. -/
  | takeCommand (writeFault : Option String)
  /-- A user or a listener does something to the connection. -/
  | use (action : ConnectionAction) (byUsers : action.isByUsers = true)
  deriving DecidableEq, Repr

namespace Transport

/-- Ends the transport, with a fault or without. -/
def finish (t : Transport) (c : Connection) (fault : Option String) :
    Transport × Connection × List LogLine :=
  let (closed, lines) := c.markClosed fault
  let (left, more) := closed.dropOutbound.dropDriver
  ({ t with stage := .finished }, left, lines ++ more)

/-- Writes a frame; a write that fails ends the transport. -/
def write (t : Transport) (c : Connection) (frame : Written) (name : String)
    (fault : Option String) : Transport × Connection × List LogLine :=
  match fault with
  | none => ({ t with written := t.written ++ [frame] }, c, [])
  | some reason =>
    let (t, c, lines) := t.finish c fault
    (t, c, ⟨.warn, "[Feed WS] Failed to send " ++ name ++ ": " ++ reason⟩ :: lines)

/-- Ends the transport with a line about why. -/
def finishWith (t : Transport) (c : Connection) (why : LogLine) (fault : Option String) :
    Transport × Connection × List LogLine :=
  let (t, c, lines) := t.finish c fault
  (t, c, why :: lines)

/-- Takes in what the network brings while the transport dials. -/
def dial (t : Transport) (c : Connection) (a : Arrival) : Transport × Connection × List LogLine :=
  match a with
  | .accepted => ({ t with stage := .streaming }, c.markOpen)
  | .refused reason =>
    t.finishWith c ⟨.error, c.title ++ " failed: " ++ reason⟩ (some reason)
  | _ => (t, c, [])

/-- Takes in what the network brings while frames are carried. -/
def stream (t : Transport) (c : Connection) (a : Arrival) (writeFault : Option String) :
    Transport × Connection × List LogLine :=
  match a with
  | .binary frame => (t, c.dispatch frame, [])
  | .text text => (t, c, [Connection.textLine text])
  | .ping payload => t.write c (.pong payload) "pong" writeFault
  | .closing => t.finishWith c ⟨.info, c.title ++ " closed by server"⟩ none
  | .failed reason => t.finishWith c ⟨.error, "[Feed WS] Error: " ++ reason⟩ (some reason)
  | .ended => t.finishWith c ⟨.info, "[Feed WS] Stream ended"⟩ none
  | .accepted => (t, c, [])
  | .refused _ => (t, c, [])
  | .pong _ => (t, c, [])

/-- Takes in what the network brings. -/
def arrive (t : Transport) (c : Connection) (a : Arrival) (writeFault : Option String) :
    Transport × Connection × List LogLine :=
  match t.stage with
  | .dialing => t.dial c a
  | .streaming => t.stream c a writeFault
  | .finished => (t, c, [])

/-- Does what a queue entry asks for. Before the server has accepted nothing can be
written. A request to close ends the transport either way. -/
def obey (t : Transport) (c : Connection) (command : Outbound) (writeFault : Option String) :
    Transport × Connection × List LogLine :=
  match t.stage, command with
  | .dialing, .text _ =>
    (t, c, [⟨.warn, "[Feed WS] Dropping frame queued before " ++ c.label ++ " opened"⟩])
  | .dialing, .close => t.finishWith c ⟨.debug, c.title ++ " closed while connecting"⟩ none
  | .streaming, .text text => t.write c (.text text) "text frame" writeFault
  | .streaming, .close =>
    let written := if writeFault.isNone then t.written ++ [.close] else t.written
    { t with written }.finish c none
  | .finished, _ => (t, c, [])

/-- Takes the oldest entry of the queue. -/
def takeCommand (t : Transport) (c : Connection) (writeFault : Option String) :
    Transport × Connection × List LogLine :=
  if t.stage = .finished then (t, c, [])
  else
    match c.takeOutbound with
    | (none, c) => (t, c, [])
    | (some command, c) => t.obey c command writeFault

/-- Transport and connection after an event. -/
def step (t : Transport) (c : Connection) : TransportEvent → Transport × Connection × List LogLine
  | .arrive a writeFault => t.arrive c a writeFault
  | .takeCommand writeFault => t.takeCommand c writeFault
  | .use action _ => (t, c.apply action)

/-- Transport and connection after a list of events. -/
def run (t : Transport) (c : Connection) (events : List TransportEvent) : Transport × Connection :=
  events.foldl (fun (t, c) event =>
    let (t, c, _) := step t c event
    (t, c)) (t, c)

/-- Whatever ends a transport, its connection is closed. -/
theorem state_finish (t : Transport) (c : Connection) (fault : Option String) :
    (t.finish c fault).2.1.state = .closed := by
  have h (c : Connection) (hc : c.state = .closed) : c.dropDriver.1.state = .closed := by
    simp only [Connection.dropDriver]
    split
    · rfl
    · exact hc
  exact h _ rfl

end Transport

end PushFeed
