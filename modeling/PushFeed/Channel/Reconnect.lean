import PushFeed.Channel.Follow
/-!
# Reconnecting

After its connection has closed a channel makes a bounded number of attempts.
Attempt `i` is due `i + 1` delays after the close, or as soon as the connection the
channel waits for is open. An attempt that finds the current connection open follows
it. One that finds a connection on its way that it has not waited for yet gives it
time until the next attempt. Any other forces a new connection.
-/

namespace PushFeed.Channel

/-- Gives up. -/
def stall (c : Channel) (f : Feed) : Channel × Feed :=
  let limit := toString c.options.maxAttempts.toNat
  let c' := c.publish .stalled
  ({ c' with
      phase := .stalled
      exhaustedCalls := c.exhaustedCalls + if c.options.onExhausted then 1 else 0 },
    f.report [c.line .error ("Max reconnect attempts (" ++ limit ++ ") reached")])

/-- Whether an attempt with the given deadline is due. -/
def isDue (f : Feed) (deadline : Nat) (e : Episode) : Bool :=
  decide (deadline ≤ f.now) || (f.hub.stateOf e.tracked).isOpen

/-- Follows a connection that an attempt has found open. -/
def resume (c : Channel) (f : Feed) (generation : Nat) : Channel × Feed :=
  let found := "Connection #" ++ toString generation ++ " is open, resubscribing"
  ({ c with phase := .following generation .open }).subscribe
    (f.report [c.line .info found]) generation

/-- What an attempt does that finds no open connection: it gives the current one time
or forces a new one. -/
def attemptOnce (c : Channel) (f : Feed) (attempt : Nat) (e : Episode) : Feed × Episode :=
  let current := f.hub.generation
  let count := toString attempt ++ "/" ++ toString c.options.maxAttempts.toNat
  if f.hub.stateOf current = .connecting ∧ e.lastChecked ≠ current then
    (f.report [c.line .debug ("Connection #" ++ toString current ++ " still connecting (attempt " ++
        count ++ ")")],
      { e with tracked := current, lastChecked := current })
  else
    let f := (f.report [c.line .warn ("Reconnect attempt " ++ count ++
      ": forcing a new connection")]).getConnection true
    (f, { e with tracked := f.hub.generation, lastChecked := f.hub.generation })

/-- Makes the attempts that are due, from the given one on, of as many as remain. -/
def attempts : Nat → Nat → Channel → Feed → Episode → Channel × Feed
  | 0, _, c, f, _ => c.stall f
  | remaining + 1, attempt, c, f, e =>
    let c := c.publish (.reconnecting attempt)
    match c.options.reconnectDelay.deadline? e.closedAt (attempt + 1) with
    | none => ({ c with phase := .broken }, f)
    | some deadline =>
      if isDue f deadline e then
        let f := f.getConnection false
        if (f.hub.stateOf f.hub.generation).isOpen then c.resume f f.hub.generation
        else
          let (f, e) := c.attemptOnce f attempt e
          attempts remaining (attempt + 1) c f e
      else ({ c with phase := .retrying attempt e }, f)

/-- Lets a closed connection go and begins with the attempts. -/
def reconnect (c : Channel) (f : Feed) (generation : Nat) : Channel × Feed :=
  let (c, f) := c.detach f
  let c := { c with sentOn := none, rejectedOn := none }
  let f := f.getConnection false
  let closed := "Connection #" ++ toString generation ++ " closed, reconnecting"
  attempts c.options.maxAttempts.toNat 1 c (f.report [c.line .info closed])
    ⟨f.now, f.hub.generation, generation⟩

end PushFeed.Channel
