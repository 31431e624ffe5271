import PushFeed.Connection.Basic
/-!
# The hub

The hub keeps the one connection that all channels share. It makes it when it is
first asked for, and replaces it, never mends it, when a new one is forced: the old
connection is asked to close, and the new one has the next number. Whatever it makes
it hands over to be carried over the network at once.
-/

namespace PushFeed

/-- All connections to one URL, the current one last. -/
structure Hub where
  /-- The feed's URL. -/
  url : String
  /-- The connections made so far; the one of number `n` is the `n`-th. -/
  connections : List Connection := []
  /-- The connections handed over to be carried over the network, in their order. -/
  handedOver : List Nat := []
  deriving DecidableEq, Repr

namespace Hub

/-- The number of the newest connection, zero if there is none. -/
def generation (h : Hub) : Nat := h.connections.length

/-- The current connection. -/
def current? (h : Hub) : Option Connection := h.connections.getLast?

/-- The connection of a number. -/
def find? (h : Hub) (generation : Nat) : Option Connection :=
  match generation with
  | 0 => none
  | n + 1 => h.connections[n]?

/-- The state of a connection; one that was never made counts as closed. -/
def stateOf (h : Hub) (generation : Nat) : ReadyState :=
  ((h.find? generation).map (·.state)).getD .closed

/-- Changes the connection of a number. -/
def modify (h : Hub) (generation : Nat) (change : Connection → Connection) : Hub :=
  match generation with
  | 0 => h
  | n + 1 => { h with connections := h.connections.modify n change }

/-- Replaces the connection of a number. -/
def put (h : Hub) (c : Connection) : Hub := h.modify c.generation fun _ => c

/-- Makes a connection with the next number and hands it over. -/
def connect (h : Hub) : Hub × List LogLine :=
  let generation := h.generation + 1
  ({ h with
      connections := h.connections ++ [{ generation }]
      handedOver := h.handedOver ++ [generation] },
    [⟨.debug, "[Feed WS] Created connection #" ++ toString generation ++ " to " ++ h.url⟩])

/-- Asks the current connection to close, to make room for a new one. -/
def retire (h : Hub) : Hub × List LogLine :=
  match h.current? with
  | none => (h, [])
  | some c =>
    (h.put c.close,
      [⟨.info, "[Feed WS] Replacing " ++ c.label ++ " (" ++ c.state.name ++ ")"⟩])

/-- Sees to it that there is a current connection, a new one if it is forced. -/
def get (h : Hub) (force : Bool) : Hub × List LogLine :=
  if force then
    let (retired, replaced) := h.retire
    let (made, created) := retired.connect
    (made, replaced ++ created)
  else if h.connections.isEmpty then h.connect
  else (h, [])

/-- The hub as the log shows it. -/
def debug (h : Hub) : String :=
  "ConnectionManager \x7b url: " ++ Text.quoted h.url ++ ", generation: " ++
    toString h.generation ++ " \x7d"

/-! ## How many connections there are -/

@[simp] theorem generation_modify (h : Hub) (g : Nat) (change : Connection → Connection) :
    (h.modify g change).generation = h.generation := by
  cases g <;> simp [modify, generation]

@[simp] theorem generation_retire (h : Hub) : h.retire.1.generation = h.generation := by
  simp only [retire]
  cases h.current? <;> simp [put]

/-- Forcing makes exactly one connection. -/
theorem generation_get_true (h : Hub) : (h.get true).1.generation = h.generation + 1 := by
  have := h.generation_retire
  simp only [generation] at this
  simp [get, connect, generation, this]

/-- Asking makes a connection only where there is none. -/
theorem generation_get_false (h : Hub) : (h.get false).1.generation = max 1 h.generation := by
  cases hc : h.connections with
  | nil => simp [get, connect, generation, hc]
  | cons c rest => simp [get, generation, hc]

end Hub

end PushFeed
