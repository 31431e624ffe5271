import PushFeed.Session
/-!
# The order of turns

A session says what a turn does; a schedule says whose turn it is. Attempts that are
due are made in the order of their deadlines, and of two with one deadline the one
that has been waited for longer comes first. `settle` gives turns until every channel
waits, and time moves on only then.
-/

namespace PushFeed

/-- When the attempt that the channel waits for is due. -/
def Channel.deadline? (c : Channel) : Option Nat :=
  match c.phase with
  | .retrying attempt episode =>
    c.options.reconnectDelay.deadline? episode.closedAt (attempt + 1)
  | _ => none

/-- A session and the order of its turns. -/
structure Schedule where
  /-- The session. -/
  session : Session
  /-- The channels that have waited for an attempt, the latest to begin last. -/
  waits : List Nat := []

namespace Schedule

/-- What a channel waits for. -/
def waitOf? (s : Session) (channel : Nat) : Option (Nat × Episode) := do
  let c ← s.channels[channel]?
  match c.phase with
  | .retrying attempt episode => some (attempt, episode)
  | _ => none

/-- The schedule after an event. A channel whose turn ends with a wait for another
attempt than before goes to the end of those that wait. -/
def step (s : Schedule) (event : SessionEvent) : Schedule :=
  let session := s.session.step event
  match event with
  | .turn channel _ =>
    let wait := waitOf? session channel
    if wait.isSome ∧ wait ≠ waitOf? s.session channel then
      { session, waits := s.waits.erase channel ++ [channel] }
    else { s with session }
  | _ => { s with session }

/-- The channels whose attempts are due, in the order of their deadlines. -/
def due (s : Schedule) : List Nat :=
  let deadlines := s.waits.filterMap fun channel => do
    let c ← s.session.channels[channel]?
    let deadline ← c.deadline?
    if deadline ≤ s.session.feed.now then some (deadline, channel) else none
  (deadlines.mergeSort fun a b => decide (a.1 ≤ b.1)).map (·.2)

/-- All channels, those with an attempt due first. -/
def turnOrder (s : Schedule) : List Nat :=
  let due := s.due
  due ++ (List.range s.session.channels.length).filter fun channel => !due.contains channel

/-- One turn for each channel. -/
def round (s : Schedule) : Schedule :=
  s.turnOrder.foldl (fun s channel => s.step (.turn channel .stateFirst)) s

/-- A number of rounds. -/
def rounds : Nat → Schedule → Schedule
  | 0, s => s
  | n + 1, s => rounds n s.round

/-- Gives turns until every channel waits. Only a forced connection gives a channel
that has had its turn something new to do, so one round more than there are channels
is enough. -/
def settle (s : Schedule) : Schedule := rounds (s.session.channels.length + 1) s

/-- Lets time go by, at most a tenth of a second at once, and every channel react
after each slice. -/
def advance (s : Schedule) (milliseconds : Nat) : Schedule :=
  let slices := List.replicate (milliseconds / 100) 100 ++
    if milliseconds % 100 = 0 then [] else [milliseconds % 100]
  slices.foldl (fun s slice => (s.step (.elapse slice)).settle) s

end Schedule

end PushFeed
