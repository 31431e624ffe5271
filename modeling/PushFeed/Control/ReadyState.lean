import PushFeed.Json.Printer
import PushFeed.Json.Reader
/-!
# Ready states

Where a connection is in its life. The states have an order, and a connection
never goes back in it.
-/

namespace PushFeed

/-- Where a connection is in its life. -/
inductive ReadyState where
  | connecting
  | open
  | closing
  | closed
  deriving DecidableEq, Repr

namespace ReadyState

/-- Whether the connection takes texts. -/
def isOpen : ReadyState → Bool
  | .open => true
  | _ => false

/-- Whether the connection will never take texts again. -/
def isTerminal : ReadyState → Bool
  | .closing => true
  | .closed => true
  | _ => false

/-- The place of a state in the order of a connection's life. -/
def rank : ReadyState → Nat
  | .connecting => 0
  | .open => 1
  | .closing => 2
  | .closed => 3

/-- The state's name in messages. -/
def name : ReadyState → String
  | .connecting => "Connecting"
  | .open => "Open"
  | .closing => "Closing"
  | .closed => "Closed"

/-- The state's name in JSON. -/
def tag : ReadyState → String
  | .connecting => "connecting"
  | .open => "open"
  | .closing => "closing"
  | .closed => "closed"

/-- The names of the states in JSON. -/
def tags : List String := ["connecting", "open", "closing", "closed"]

/-- The state of a JSON name; a name that is none of them counts as the last. -/
def ofTag (tag : String) : ReadyState :=
  if tag = "connecting" then .connecting
  else if tag = "open" then .open
  else if tag = "closing" then .closing
  else .closed

/-- Reads a state from JSON. -/
def reader : Json.Reader ReadyState := fun depth cs => do
  let (tag, rest) ← Json.readName? tags depth cs
  .ok (ofTag tag, rest)

/-- A state from a value. -/
def ofJson (v : Json) : Except JsonFault ReadyState := (Json.nameOf tags v).map ofTag

end ReadyState

end PushFeed
