import PushFeed.Settings
/-!
# Channel options

How one channel behaves: whether it works at all, how it reconnects and what it does
at its end.
-/

namespace PushFeed

/-- How a channel behaves. -/
structure ChannelOptions where
  /-- Whether the channel does nothing at all. -/
  disabled : Bool := false
  /-- The base delay: attempt `i` to reconnect is due `i + 1` delays after the close. -/
  reconnectDelay : Delay := ⟨3000⟩
  /-- How many attempts it makes before it gives up. -/
  maxAttempts : UInt32 := 10
  /-- Whether it lets its topic go when it is torn down. -/
  unsubscribeOnClose : Bool := false
  /-- Whether its opener is told when it gives up. -/
  onExhausted : Bool := false
  deriving DecidableEq, Repr

namespace ChannelOptions

/-- The options that settings ask for. -/
def ofSettings (s : Settings) : ChannelOptions :=
  { reconnectDelay := s.reconnectDelay, maxAttempts := s.maxAttempts }

/-- The word for a flag. -/
def flagText (flag : Bool) : String := if flag then "true" else "false"

/-- The options as the log shows them. -/
def debug (o : ChannelOptions) : String :=
  "ChannelOptions \x7b disabled: " ++ flagText o.disabled ++
    ", reconnect_delay: " ++ o.reconnectDelay.text ++
    ", max_reconnect_attempts: " ++ toString o.maxAttempts.toNat ++
    ", unsubscribe_on_close: " ++ flagText o.unsubscribeOnClose ++
    ", on_exhausted: " ++ flagText o.onExhausted ++ " \x7d"

/-- A client with these options as the log shows it. -/
def clientDebug (o : ChannelOptions) : String := "FeedClient \x7b options: " ++ o.debug ++ " \x7d"

end ChannelOptions

end PushFeed
