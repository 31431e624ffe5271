import PushFeed.Error
import PushFeed.Log
import PushFeed.Text.Quoted
import PushFeed.Connection.Mailbox
import PushFeed.Control.ReadyState
import PushFeed.Control.ServerText
/-!
# Connections

A connection as its users see it: a ready state, a queue of what is to be written
and a mailbox for each listener. The transport on the other side opens and closes
it, hands frames to all listeners and takes what is queued. The state only ever
moves forward: a connection that has closed stays closed.

Operations that write to the log give their lines after the new connection.
-/

namespace PushFeed

/-- What is queued for the transport. -/
inductive Outbound where
  /-- A text to write. -/
  | text (text : String)
  /-- The request to close. -/
  | close
  deriving DecidableEq, Repr

/-- A connection. -/
structure Connection where
  /-- Its number among all connections, from one on. -/
  generation : Nat
  /-- Where it is in its life. -/
  state : ReadyState := .connecting
  /-- What is queued for the transport, the oldest first. -/
  outbound : List Outbound := []
  /-- Whether the transport still takes from the queue. -/
  outboundHeld : Bool := true
  /-- Whether the transport is still there to report what happens. -/
  driven : Bool := true
  /-- The mailboxes of all listeners there ever were; listener `n` has the `n`-th. -/
  mailboxes : List Mailbox := []
  /-- How many frames have been handed out. -/
  framesReceived : Nat := 0
  deriving DecidableEq, Repr

namespace Connection

/-- The connection as messages name it. -/
def label (c : Connection) : String := "connection #" ++ toString c.generation

/-- The connection as messages name it at their start. -/
def title (c : Connection) : String := "[Feed WS] Connection #" ++ toString c.generation

/-- A listener as the log names it. -/
def listenerName (listener : Nat) : String := "ListenerId(" ++ toString listener ++ ")"

/-- How many listeners the connection lists. -/
def listenerCount (c : Connection) : Nat := c.mailboxes.countP (·.registered)

/-- The mailbox of a listener. -/
def mailbox? (c : Connection) (listener : Nat) : Option Mailbox :=
  match listener with
  | 0 => none
  | n + 1 => c.mailboxes[n]?

/-- Changes the mailbox of a listener. -/
def modifyMailbox (c : Connection) (listener : Nat) (change : Mailbox → Mailbox) : Connection :=
  match listener with
  | 0 => c
  | n + 1 => { c with mailboxes := c.mailboxes.modify n change }

/-! ## What users do -/

/-- Queues a text. Only an open connection takes one. -/
def sendText (c : Connection) (text : String) : Except FeedError Connection :=
  if !c.state.isOpen then
    .error (.transport (c.label ++ " is " ++ c.state.name ++ ", cannot send"))
  else if !c.outboundHeld then .error (.transport "connection task has stopped")
  else .ok { c with outbound := c.outbound ++ [.text text] }

/-- Asks the transport to close. Where nobody takes the request any more the
connection is closed at once. -/
def close (c : Connection) : Connection :=
  if c.state.isTerminal then c
  else if c.outboundHeld then
    { c with state := .closing, outbound := c.outbound ++ [.close] }
  else { c with state := .closed }

/-- Adds a listener; its number is how many there have been with it. -/
def addListener (c : Connection) : Nat × Connection × List LogLine :=
  let listener := c.mailboxes.length + 1
  (listener, { c with mailboxes := c.mailboxes ++ [{}] },
    [⟨.debug, "[Feed WS] Listener " ++ listenerName listener ++ " attached to " ++ c.label⟩])

/-- Takes a listener off the list; whether it was on it. -/
def removeListener (c : Connection) (listener : Nat) : Bool × Connection × List LogLine :=
  if (c.mailbox? listener).any (·.registered) then
    (true, c.modifyMailbox listener fun m => { m with registered := false },
      [⟨.debug, "[Feed WS] Listener " ++ listenerName listener ++ " removed from " ++ c.label⟩])
  else (false, c, [])

/-- The listener lets its mailbox go. It stays on the list until the next frame. -/
def dropListener (c : Connection) (listener : Nat) : Connection :=
  c.modifyMailbox listener fun m => { m with held := false }

/-- A listener takes its next frame. -/
def receive (c : Connection) (listener : Nat) : Polled (Option Wire.Bytes) × Connection :=
  match c.mailbox? listener with
  | none => (.ready none, c)
  | some m =>
    let (frame, after) := m.take
    (frame, c.modifyMailbox listener fun _ => after)

/-! ## What the transport does -/

/-- The handshake has succeeded. -/
def markOpen (c : Connection) : Connection × List LogLine :=
  if c.state = .connecting then
    ({ c with state := .open }, [⟨.info, "WebSocket connection established."⟩])
  else (c, [])

/-- The transport is at its end, with a fault or without. -/
def markClosed (c : Connection) (fault : Option String) : Connection × List LogLine :=
  let line : LogLine := match fault with
    | some reason => ⟨.warn, c.title ++ " closed with error: " ++ reason⟩
    | none => ⟨.info, c.title ++ " closed"⟩
  ({ c with state := .closed }, if c.state = .closed then [] else [line])

/-- The transport goes away, which closes the connection. -/
def dropDriver (c : Connection) : Connection × List LogLine :=
  if c.driven then { c with driven := false }.markClosed none else (c, [])

/-- The transport stops taking from the queue; what is in it is lost. -/
def dropOutbound (c : Connection) : Connection :=
  { c with outboundHeld := false, outbound := [] }

/-- The transport takes the oldest entry of the queue. -/
def takeOutbound (c : Connection) : Option Outbound × Connection :=
  match c.outbound with
  | [] => (none, c)
  | first :: rest => (some first, { c with outbound := rest })

/-- Hands a frame to all listeners. -/
def dispatch (c : Connection) (frame : Wire.Bytes) : Connection :=
  { c with
    framesReceived := c.framesReceived + 1
    mailboxes := c.mailboxes.map (·.deliver frame) }

/-- The line about a text from the server. -/
def textLine (text : String) : LogLine :=
  match ServerText.parse text with
  | .subscribed channel =>
    ⟨.debug, "[Feed WS] Server confirmed subscription to " ++ channel⟩
  | .unsubscribed channel =>
    ⟨.debug, "[Feed WS] Server confirmed unsubscription from " ++ channel⟩
  | .notice notice => ⟨.warn, "[Feed WS] Server notice: " ++ notice⟩

/-- The connection as the log shows it. -/
def debug (url : String) (c : Connection) : String :=
  "Connection \x7b generation: " ++ toString c.generation ++ ", url: " ++ Text.quoted url ++
    ", state: " ++ c.state.name ++ ", listeners: " ++ toString c.listenerCount ++ " \x7d"

/-! ## The state only moves forward -/

/-- Opening does not move the state back. -/
theorem rank_le_markOpen (c : Connection) : c.state.rank ≤ c.markOpen.1.state.rank := by
  simp only [markOpen]
  split
  · simp_all [ReadyState.rank]
  · exact Nat.le_refl _

/-- Closing on request does not move the state back. -/
theorem rank_le_close (c : Connection) : c.state.rank ≤ c.close.state.rank := by
  simp only [close]
  split
  · exact Nat.le_refl _
  · split <;> cases h : c.state <;> simp_all [ReadyState.rank, ReadyState.isTerminal]

/-- The transport's end is the last state. -/
@[simp] theorem state_markClosed (c : Connection) (fault : Option String) :
    (c.markClosed fault).1.state = .closed := rfl

end Connection

end PushFeed
