import PushFeed.Proofs.Channel.Intake
import PushFeed.Proofs.Session.Run
/-!
# What a session's channels publish

`Session.takenBy` lists the frames that a channel takes in a run, over all connections it
comes to follow. The channel's stream and counters are an account of these frames at all
times (`account_run`), so a run can be read off them, whatever its topic, its retention
and the schemas there are (`stream_run`).
-/

namespace PushFeed

namespace Session

variable {s : Session} {i : Nat} {c : Channel} {events : List SessionEvent}

/-! ## The schemas -/

/-- An event leaves a feed with the built-in types. -/
theorem faithful_step (hs : s.feed.hub.Sound) (hf : s.feed.Faithful) (e : SessionEvent) :
    (s.step e).feed.Faithful := by
  cases e with
  | openChannel => exact ⟨hf.loader_eq, hf.cache⟩
  | turn channel first =>
    simp only [step]
    cases hc : s.channels[channel]? with
    | none =>
      rw [onChannel_of_none hc]
      exact hf
    | some c =>
      rw [onChannel_eq hc]
      exact (Channel.turn_moves c s.feed first).faithful hs hf
  | tearDown channel =>
    simp only [step]
    cases hc : s.channels[channel]? with
    | none =>
      rw [onChannel_of_none hc]
      exact hf
    | some c =>
      rw [onChannel_eq hc]
      exact (c.still_tearDown hs).faithful hf
  | getConnection force => exact (Feed.still_getConnection hs force).faithful hf
  | act g a =>
    obtain ⟨hloader, hcache⟩ := s.feed.schemas_onConnection g fun c => c.apply a
    exact ⟨hloader.trans hf.loader_eq, hcache ▸ hf.cache⟩
  | elapse => exact ⟨hf.loader_eq, hf.cache⟩

/-- The schemas are the built-in types at all times. -/
theorem faithful_run (url : String) (options : ChannelOptions) (events : List SessionEvent) :
    ((start url options).run events).feed.Faithful := by
  induction events using List.reverseRecOn with
  | nil => exact ⟨rfl, SchemaCache.faithful_empty⟩
  | append_singleton events e ih =>
    rw [run_concat]
    exact faithful_step (sound_run url options events) ih e

/-! ## The frames -/

/-- The frames that a channel takes in an event. -/
def takenIn (i : Nat) (s : Session) (e : SessionEvent) : List Taking :=
  match e with
  | .turn channel first =>
    if channel = i then ((s.channels[i]?).map fun c => c.takings s.feed first).getD [] else []
  | _ => []

/-- **The frames that a channel takes in a run**, in the order they are taken. -/
def takenBy (s : Session) (i : Nat) (events : List SessionEvent) : List Taking :=
  s.collect (takenIn i) events

theorem takenIn_turn (hc : s.channels[i]? = some c) (first : Precedence) :
    takenIn i s (.turn i first) = c.takings s.feed first := by
  simp only [takenIn, if_true, hc, Option.map_some, Option.getD_some]

theorem takenIn_of_not {e : SessionEvent} (he : e.isTurnOf i = false) : takenIn i s e = [] := by
  cases e with
  | turn channel first =>
    have hne : channel ≠ i := by simpa [SessionEvent.isTurnOf] using he
    exact if_neg hne
  | openChannel | tearDown | getConnection | act | elapse => rfl

theorem takenBy_concat (s : Session) (i : Nat) (events : List SessionEvent) (e : SessionEvent) :
    s.takenBy i (events ++ [e]) = s.takenBy i events ++ takenIn i (s.run events) e :=
  collect_concat ..

theorem takenBy_of_none (hc : (s.run events).channels[i]? = none) : s.takenBy i events = [] := by
  refine collect_of_none (fun s e hs => ?_) hc
  cases e with
  | turn channel first => simp [takenIn, hs]
  | openChannel | tearDown | getConnection | act | elapse => rfl

/-- **A channel has the account of all frames it has taken**, at all times. -/
theorem account_run (hs : s.channels = []) (hc : (s.run events).channels[i]? = some c) :
    c.Account (s.takenBy i events) := by
  induction events using List.reverseRecOn generalizing c with
  | nil =>
    rw [run, List.foldl_nil, hs] at hc
    cases hc
  | append_singleton events e ih =>
    rw [run_concat] at hc
    rw [takenBy_concat]
    rcases step_cases_at hc with ⟨topic, request, options, kind, rfl, hnone, rfl, -⟩ |
      ⟨d, first, rfl, hd, heq⟩ | ⟨d, rfl, hd, heq⟩ | ⟨he, hd⟩
    · rw [takenBy_of_none hnone]
      exact Channel.account_opened topic request options kind
    · obtain rfl := congrArg Prod.fst heq
      rw [takenIn_turn hd]
      exact (ih hd).turn _ first
    · obtain rfl := congrArg Prod.fst heq
      rw [takenIn_of_not rfl, List.append_nil]
      exact (ih hd).unfed (Channel.unfed_tearDown d _)
    · rw [takenIn_of_not (SessionEvent.isTurnOf_of_isOf he), List.append_nil]
      exact ih hd

/-- **The law of the stream.** Take the frames that a channel has taken from its listeners
in a run, in order, and the messages read from them. Then the stream has these messages as
the topic keeps them, the latest message is the last of them, and each of the frames
counts as decoded if it was read and as dropped if not. A frame that fails changes nothing
but the count, and whether the schema could be loaded; and after one that failed to load
its schema every frame is dropped, whatever the decoder would make of it. -/
theorem stream_run (hs : s.channels = []) (hc : (s.run events).channels[i]? = some c) :
    c.messages = c.topic.retention.arrange (Taking.readings (s.takenBy i events)) ∧
      c.latest? = (Taking.readings (s.takenBy i events)).getLast? ∧
      c.decoded = (Taking.readings (s.takenBy i events)).length ∧
      c.decoded + c.dropped = (s.takenBy i events).length ∧
      (∀ x ∈ s.takenBy i events,
        (∃ rest, x.channel.inbox x.feed.hub = x.frame :: rest) ∧
          ∀ e, x.outcome = .error e → ∃ failed, (x.channel.handleNext x.feed).1 =
            { x.channel.drop with schemaFailed := failed }) ∧
      ∀ before x after, s.takenBy i events = before ++ x :: after → x.failsToLoad = true →
        ∀ y ∈ after, ∀ f, y.channel.handleFrame f y.frame = (y.channel.drop, f) := by
  have haccount := account_run hs hc
  refine ⟨haccount.messages_eq, ?_, haccount.decoded_eq, haccount.handled_eq, ?_, ?_⟩
  · rw [Channel.latest?, haccount.messages_eq, Retention.latest?_arrange]
  · intro x hx
    obtain ⟨rest, hinbox⟩ := haccount.waited x hx
    exact ⟨⟨rest, hinbox⟩, fun e he => Channel.handleNext_of_error he hinbox⟩
  · intro before x after hsplit hx y hy f
    have hpairs := haccount.untried
    rw [hsplit, List.pairwise_append, List.pairwise_cons] at hpairs
    exact Channel.handleFrame_of_schemaFailed (hpairs.2.1.1 y hy hx) f y.frame

/-- A channel that reads a frame on one connection, drops a cut one and, after the
connection is lost, reads another frame on the next connection. -/
def resumed : List SessionEvent :=
  let topic := Topic.orderBook "mkt_1" "/proto"
  [.openChannel topic (.subscribe topic.channel) {} .book, .turn 0 .stateFirst,
    .act 1 .markOpen, .turn 0 .stateFirst, .act 1 (.dispatch [10, 1, 109]),
    .act 1 (.dispatch [10, 5]), .turn 0 .stateFirst, .act 1 .dropDriver, .turn 0 .stateFirst,
    .getConnection true, .act 2 .markOpen, .elapse 10000, .turn 0 .stateFirst,
    .act 2 (.dispatch [10, 1, 110]), .turn 0 .stateFirst]

theorem stream_run_resumed :
    ∃ c, ((start "ws://localhost:4010/ws" {}).run resumed).channels[0]? = some c ∧
      c.decoded = 2 ∧ c.dropped = 1 ∧
      ((start "ws://localhost:4010/ws" {}).takenBy 0 resumed).length = 3 ∧
      c.messages = c.topic.retention.arrange
        (Taking.readings ((start "ws://localhost:4010/ws" {}).takenBy 0 resumed)) := by
  have hcounts : (((start "ws://localhost:4010/ws" {}).run resumed).channels[0]?.map fun c =>
      (c.decoded, c.dropped)) = some (2, 1) := by decide +kernel
  obtain ⟨c, hc, heq⟩ := Option.map_eq_some_iff.1 hcounts
  obtain ⟨hmessages, -, -, hhandled, -⟩ := stream_run rfl hc
  obtain ⟨hdecoded, hdropped⟩ := Prod.mk.inj heq
  rw [hdecoded, hdropped] at hhandled
  exact ⟨c, hc, hdecoded, hdropped, hhandled.symm, hmessages⟩

end Session

end PushFeed
