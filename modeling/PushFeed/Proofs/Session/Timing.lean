import PushFeed.Proofs.Channel.Timing
import PushFeed.Proofs.Session.Closing
import PushFeed.Proofs.Session.Replacing
/-!
# Attempts by the clock

The attempts of a channel over a whole run, each with the moment it ended at
(`datedAttemptsBy`). However other channels force connections and whatever becomes of those,
an attempt that has not found an open connection ends when it is due or later, and the
channel gives up no earlier than one attempt more would be due (`reconnects_on_schedule`).

What makes this hold is that a channel is woken before the time by one connection alone, the
one it waits for, and that of all connections only the newest can be open. So what has woken
it is what the attempt then finds.
-/

namespace PushFeed

namespace Session

variable {s : Session} {e : SessionEvent} {i : Nat} {c : Channel} {url : String}
  {options : ChannelOptions} {events : List SessionEvent}

/-- The attempts that a channel makes in a run, with the moments they end at. -/
def datedAttemptsBy (s : Session) (i : Nat) (events : List SessionEvent) :
    List (Nat × Channel.Attempt) :=
  s.collect (fun s e => (s.attemptsIn i e).map (s.feed.now, ·)) events

theorem datedAttemptsBy_concat (s : Session) (i : Nat) (events : List SessionEvent)
    (e : SessionEvent) :
    s.datedAttemptsBy i (events ++ [e]) =
      s.datedAttemptsBy i events ++
        ((s.run events).attemptsIn i e).map ((s.run events).feed.now, ·) :=
  s.collect_concat _ events e

/-- Without the dates they are the attempts of the run. -/
theorem map_datedAttemptsBy (s : Session) (i : Nat) (events : List SessionEvent) :
    (s.datedAttemptsBy i events).map (·.2) = s.attemptsBy i events := by
  induction events using List.reverseRecOn with
  | nil => rfl
  | append_singleton events e ih =>
    rw [datedAttemptsBy_concat, attemptsBy_concat, List.map_append, ih]
    simp [Function.comp_def]

theorem datedAttemptsBy_of_none (hc : ((start url options).run events).channels[i]? = none) :
    (start url options).datedAttemptsBy i events = [] := by
  rw [← List.map_eq_nil_iff (f := (·.2)), map_datedAttemptsBy, attemptsBy_of_none hc]

/-- **The attempts of a channel keep pace with the clock at all times.** -/
theorem paced_run (hc : ((start url options).run events).channels[i]? = some c) :
    Channel.Paced ((start url options).datedAttemptsBy i events) c := by
  induction events using List.reverseRecOn generalizing c with
  | nil => simp [run, start] at hc
  | append_singleton events e ih =>
    have hs := sound_run url options events
    rw [run_concat] at hc
    rw [datedAttemptsBy_concat]
    rcases step_cases_at hc with ⟨topic, request, opts, kind, rfl, hnone, rfl, -⟩ |
      ⟨d, first, rfl, hd, heq⟩ | ⟨d, rfl, hd, heq⟩ | ⟨hno, hd⟩
    · rw [datedAttemptsBy_of_none hnone]
      refine .nil fun k e hp => ?_
      rcases Channel.phase_opened topic request opts kind with h | h <;> cases h.symm.trans hp
    · obtain rfl := congrArg Prod.fst heq
      have hpaced := ih hd
      obtain ⟨-, -, hready⟩ := disciplined_run hd
      have hturn := Channel.turnLogged_snd d ((start url options).run events).feed first
      have hpursues := Channel.turnLogged_pursues hs hready
        (fun k e hp => (hpaced.retrying k e hp).1) (hopeful_run hd) first
      have halike := (Channel.turn_moves d ((start url options).run events).feed first).alike
      rw [attemptsIn_turn hd, ← hturn]
      exact hpaced.turn hpursues (by rw [hturn]; exact halike.options_eq)
    · -- the end of a channel is no attempt
      obtain rfl := congrArg Prod.fst heq
      rw [attemptsIn_of_not rfl, List.map_nil, List.append_nil]
      cases hl : d.isLive with
      | false =>
        rw [Channel.tearDown_of_not_isLive hl]
        exact ih hd
      | true =>
        rw [(Channel.tearDown_eq hs hl).1]
        exact (ih hd).congr rfl (.inr (by rintro ⟨k, e, hp⟩; cases hp))
    · rw [attemptsIn_of_not (SessionEvent.isTurnOf_of_isOf hno), List.map_nil, List.append_nil]
      exact ih hd

/-- **Channels reconnect on schedule**, whatever else happens. -/
theorem reconnects_on_schedule (url : String) (options : ChannelOptions)
    (events : List SessionEvent) (i : Nat) (c : Channel)
    (hc : ((start url options).run events).channels[i]? = some c) :
    let log := (start url options).datedAttemptsBy i events
    Channel.madeIn (log.map (·.2)) = (start url options).forcedBy i events ∧
      (∀ episode ∈ Channel.episodes log, ∃ closedAt,
        Channel.OnSchedule c.options.reconnectDelay c.options.maxAttempts.toNat closedAt
          episode) ∧
      ∀ first, c.OnTime ((start url options).run events).feed first := by
  intro log
  obtain ⟨-, hmade, hready⟩ := disciplined_run hc
  have hpaced := paced_run hc
  refine ⟨?_, hpaced.onSchedule, fun first => ?_⟩
  · rw [map_datedAttemptsBy, hmade]
  · exact Channel.turn_onTime (sound_run url options events) hready
      (fun k e hp => (hpaced.retrying k e hp).1) (hopeful_run hc) first

/-- A channel with two attempts loses its connection. The first attempt forces another one,
which opens before the second is due; that one is lost too, and then both attempts force
connections that do not open. -/
def twiceLost : List SessionEvent :=
  let topic := Topic.orderBook "mkt_1" "/proto"
  [.openChannel topic (.subscribe topic.channel) { reconnectDelay := ⟨1000⟩, maxAttempts := 2 } .book,
    .turn 0 .stateFirst, .act 1 .markOpen, .turn 0 .stateFirst, .act 1 .dropDriver,
    .turn 0 .stateFirst, .elapse 2000, .turn 0 .stateFirst, .elapse 500, .act 2 .markOpen,
    .turn 0 .stateFirst, .act 2 .dropDriver, .turn 0 .stateFirst, .elapse 2000,
    .turn 0 .stateFirst, .elapse 1000]

theorem reconnects_on_schedule_twiceLost :
    let s := (start "ws://localhost:4010/ws" {}).run twiceLost
    let log := (start "ws://localhost:4010/ws" {}).datedAttemptsBy 0 twiceLost
    (Channel.episodes log =
        [[(2000, ⟨0, 1, 1, .closed, 2⟩), (2500, ⟨0, 2, 2, .open, 2⟩)],
          [(4500, ⟨2500, 1, 2, .closed, 3⟩)]] ∧
      ∀ episode ∈ Channel.episodes log, ∃ closedAt,
        Channel.OnSchedule ⟨1000⟩ 2 closedAt episode) ∧
      ∃ c, s.channels[0]? = some c ∧ c.OnTime s.feed .stateFirst ∧
        (c.turn s.feed .stateFirst).1.phase = .stalled ∧ s.feed.now = 5500 := by
  intro s log
  have hrun : s.channels[0]?.map (fun c =>
      (c.options.reconnectDelay, c.options.maxAttempts, (c.turn s.feed .stateFirst).1.phase)) =
        some (⟨1000⟩, 2, .stalled) := by
    decide +kernel
  have hlog : Channel.episodes log =
      [[(2000, ⟨0, 1, 1, .closed, 2⟩), (2500, ⟨0, 2, 2, .open, 2⟩)],
        [(4500, ⟨2500, 1, 2, .closed, 3⟩)]] := by
    decide +kernel
  obtain ⟨c, hc, heq⟩ := Option.map_eq_some_iff.1 hrun
  simp only [Prod.mk.injEq] at heq
  obtain ⟨hdelay, hlimit, hphase⟩ := heq
  obtain ⟨-, hepisodes, hturns⟩ :=
    reconnects_on_schedule "ws://localhost:4010/ws" {} twiceLost 0 c hc
  rw [hdelay, hlimit] at hepisodes
  exact ⟨⟨hlog, hepisodes⟩, c, hc, hturns .stateFirst, hphase, by decide +kernel⟩

end Session

end PushFeed
