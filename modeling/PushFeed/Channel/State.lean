/-!
# Channel states

What a channel publishes about itself.
-/

namespace PushFeed

/-- What a channel says it is doing. -/
inductive ChannelState where
  /-- It has not begun. -/
  | idle
  /-- It does nothing, as its opener wants it. -/
  | disabled
  /-- Its connection is not open yet. -/
  | awaitingOpen
  /-- It has subscribed, and its frames are decoded. -/
  | subscribed
  /-- Its connection has closed, and it waits for an attempt to reconnect. -/
  | reconnecting (attempt : Nat)
  /-- It has given up. -/
  | stalled
  deriving DecidableEq, Repr

/-- The state as the log shows it. -/
def ChannelState.debug : ChannelState → String
  | .idle => "Idle"
  | .disabled => "Disabled"
  | .awaitingOpen => "AwaitingOpen"
  | .subscribed => "Subscribed"
  | .reconnecting attempt => "Reconnecting \x7b attempt: " ++ toString attempt ++ " \x7d"
  | .stalled => "Stalled"

end PushFeed
