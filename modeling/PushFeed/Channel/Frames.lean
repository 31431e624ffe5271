import PushFeed.Channel.Basic
/-!
# The frames of a channel

A channel takes the frames from its listener one by one. A frame that decodes joins
the stream as the topic keeps it; any other is counted as dropped and leaves the
stream alone. Cut frames and frames of other topics are expected on a shared
connection, so they are dropped without complaint. Once a schema could not be loaded
no frame is decoded any more.
-/

namespace PushFeed.Channel

/-- The channel with one more message in its stream. -/
def accept (c : Channel) (m : Message) : Channel :=
  { c with messages := c.topic.retention.apply c.messages [m], decoded := c.decoded + 1 }

/-- The channel with one more dropped frame. -/
def drop (c : Channel) : Channel := { c with dropped := c.dropped + 1 }

/-- The log lines about a frame that fails. -/
def failureLines (c : Channel) (e : FeedError) : List LogLine :=
  match e with
  | .truncatedFrame _ => []
  | .foreignFrame _ => [c.line .trace ("Skipping frame for another topic: " ++ e.message)]
  | .schemaLoad _ _ _ =>
    [c.line .error (e.message ++ "; no messages will be decoded for this topic")]
  | _ => [c.line .error ("Error decoding protobuf: " ++ e.message)]

/-- Whether an error is that of a schema. -/
def isSchemaFailure : FeedError → Bool
  | .schemaLoad _ _ _ => true
  | _ => false

/-- Takes in one frame. -/
def handleFrame (c : Channel) (f : Feed) (frame : Wire.Bytes) : Channel × Feed :=
  if c.schemaFailed then (c.drop, f)
  else
    match f.decodeAs (Message.ofJson c.kind) c.topic.source c.topic.typeName frame with
    | (.ok m, f) => (c.accept m, f)
    | (.error e, f) =>
      ({ c.drop with schemaFailed := isSchemaFailure e }, f.report (c.failureLines e))

/-- Takes the next frame of its listener, if there is one. A listener that has been
taken off its connection is let go after its last frame. -/
def handleNext (c : Channel) (f : Feed) : Channel × Feed :=
  match c.attached with
  | none => (c, f)
  | some a =>
    match f.hub.find? a.generation with
    | none => (c, f)
    | some connection =>
      let (received, connection) := connection.receive a.listener
      let f := { f with hub := f.hub.modify a.generation fun _ => connection }
      match received with
      | .pending => (c, f)
      | .ready none => ({ c with attached := none }, f)
      | .ready (some frame) => c.handleFrame f frame

/-- How many frames wait at its listener. -/
def waiting (c : Channel) (f : Feed) : Nat :=
  match c.attached with
  | none => 0
  | some a =>
    (((f.hub.find? a.generation).bind (·.mailbox? a.listener)).map (·.queue.length)).getD 0

/-- Takes the next frame a number of times. -/
def handleMany : Nat → Channel → Feed → Channel × Feed
  | 0, c, f => (c, f)
  | n + 1, c, f =>
    let (c, f) := c.handleNext f
    handleMany n c f

/-- Takes all frames that wait, and notices if there will be no more. -/
def handleAll (c : Channel) (f : Feed) : Channel × Feed := handleMany (c.waiting f + 1) c f

end PushFeed.Channel
