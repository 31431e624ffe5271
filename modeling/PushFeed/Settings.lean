import PushFeed.Number.Power
import PushFeed.Number.Whole
import PushFeed.Text.Quoted
import PushFeed.Time.Delay
import PushFeed.Url.Parse
/-!
# Settings

Where the feed is and how patiently a channel reconnects to it, as read from named
variables. Of several faults the one of the URL is reported first, then the one of
the delay.
-/

namespace PushFeed

/-- Where the feed is and how channels reconnect. -/
structure Settings where
  /-- The feed's URL. -/
  url : Url
  /-- The base delay: attempt `i` is due `i + 1` delays after the close. -/
  reconnectDelay : Delay := ⟨3000⟩
  /-- How many attempts a channel makes before it gives up. -/
  maxAttempts : UInt32 := 10

/-- Why there are no settings. -/
inductive SettingsFault where
  /-- A variable that has to be there is not. -/
  | missing (variableName : String)
  /-- A text is no URL of a feed. -/
  | invalidUrl (text reason : String)
  /-- The value of a variable cannot be used. -/
  | invalidValue (variableName reason : String)
  deriving DecidableEq, Repr

/-- The fault's text. -/
def SettingsFault.message : SettingsFault → String
  | .missing variableName => variableName ++ " is not set"
  | .invalidUrl text reason => "Invalid push-feed URL " ++ text ++ ": " ++ reason
  | .invalidValue variableName reason => "Invalid value in " ++ variableName ++ ": " ++ reason

/-- The URL of a feed: of the scheme `ws` or `wss`, blanks around it left aside. -/
def parseFeedUrl (text : String) : Except SettingsFault Url :=
  let unsupported (scheme : String) : SettingsFault :=
    .invalidUrl text ("unsupported scheme " ++ Text.quoted scheme ++ ", expected ws or wss")
  match Url.parse (Text.trim text).toList with
  | .error fault => .error (.invalidUrl text fault.message)
  | .ok (.foreign scheme) => .error (unsupported scheme)
  | .ok (.url url) =>
    if url.scheme = "ws" ∨ url.scheme = "wss" then .ok url else .error (unsupported url.scheme)

namespace Settings

/-- The variable of the feed's URL. -/
def urlVariable : String := "FEED_WS_URL"

/-- The variable of the base delay, in milliseconds. -/
def delayVariable : String := "FEED_RECONNECT_DELAY_MS"

/-- The variable of the number of attempts. -/
def attemptsVariable : String := "FEED_MAX_RECONNECT_ATTEMPTS"

/-- The whole number a variable holds, if it is there. -/
def numberOf? (valueOf : String → Option String) (name : String) (limit : Nat) :
    Except SettingsFault (Option Nat) :=
  match valueOf name with
  | none => .ok none
  | some text =>
    match readWhole limit (Text.trim text).toList with
    | .ok n => .ok (some n)
    | .error fault => .error (.invalidValue name fault.message)

/-- The settings that variables hold. -/
def ofVariables (valueOf : String → Option String) : Except SettingsFault Settings := do
  match valueOf urlVariable with
  | none => .error (.missing urlVariable)
  | some text =>
    let url ← parseFeedUrl text
    let delay ← numberOf? valueOf delayVariable (twoTo 64 - 1)
    let attempts ← numberOf? valueOf attemptsVariable (twoTo 32 - 1)
    let base : Settings := { url }
    .ok {
      url
      reconnectDelay := (delay.map fun ms => ⟨UInt64.ofNat ms⟩).getD base.reconnectDelay
      maxAttempts := (attempts.map UInt32.ofNat).getD base.maxAttempts }

/-- The settings with another delay. -/
def withReconnectDelay (s : Settings) (delay : Delay) : Settings :=
  { s with reconnectDelay := delay }

/-- The settings with another number of attempts. -/
def withMaxAttempts (s : Settings) (attempts : UInt32) : Settings :=
  { s with maxAttempts := attempts }

end Settings

end PushFeed
