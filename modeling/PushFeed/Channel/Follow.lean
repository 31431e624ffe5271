import PushFeed.Channel.Frames
/-!
# Following a connection

Once the connection a channel follows is open, the channel sends its request on it
and adds a listener. It does so at most once for each connection. A request that is
invalid is reported once for each connection and never sent.
-/

namespace PushFeed.Channel

/-- Takes the channel's listener off its connection. -/
def detach (c : Channel) (f : Feed) : Channel × Feed :=
  match c.attached with
  | none => (c, f)
  | some a =>
    ({ c with attached := none },
      f.onConnection a.generation fun connection => (connection.removeListener a.listener).2)

/-- Adds a listener on a connection, in place of one elsewhere. -/
def attach (c : Channel) (f : Feed) (generation : Nat) : Channel × Feed :=
  if c.attached.any (·.generation == generation) then (c, f)
  else
    let (c, f) := c.detach f
    match f.hub.find? generation with
    | none => (c, f)
    | some connection =>
      ({ c with attached := some ⟨generation, connection.addListener.1⟩ },
        f.onConnection generation fun connection => connection.addListener.2)

/-- Sends the request on an open connection, unless it has been sent or found
invalid there. -/
def subscribe (c : Channel) (f : Feed) (generation : Nat) : Channel × Feed :=
  if c.sentOn = some generation then (c.publish .subscribed, f)
  else if c.rejectedOn = some generation then (c, f)
  else
    match c.request.text? with
    | .error e =>
      ({ c with rejectedOn := some generation },
        f.report [c.line .error ("Subscribe request rejected: " ++ e.message)])
    | .ok text =>
      match f.sendText generation text with
      | .error e => (c, f.report [c.line .warn ("Failed to subscribe: " ++ e.message)])
      | .ok f =>
        let sent := { c with sentOn := some generation, subscribes := c.subscribes + 1 }
        let (c, f) := sent.attach f generation
        (c.publish .subscribed,
          f.report [c.line .info ("Subscribed on connection #" ++ toString generation)])

end PushFeed.Channel
