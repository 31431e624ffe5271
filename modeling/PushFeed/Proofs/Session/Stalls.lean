import PushFeed.Proofs.Channel.Attempts
import PushFeed.Proofs.Session.Run
/-!
# When a channel gives up

A channel that gives up does so right after its last attempt. At that moment the newest
connection is always on its way, and everything older is on its way out. So all that the
channel has forced has failed just when the newest connection is not its own, and that
is when its last attempt gave time to a connection that somebody else had made.
-/

namespace PushFeed

namespace Session

variable {url : String} {options : ChannelOptions} {events : List SessionEvent}
  {e : SessionEvent} {i : Nat} {c c' : Channel}

/-- The connections a channel has forced in a run: those made in its turns, but not the
first of all, for which it would only have asked. -/
def forcedBy (s : Session) (i : Nat) (events : List SessionEvent) : List Nat :=
  s.collect (fun s e =>
    if e.isTurnOf i then Channel.madeSince s.feed.hub.generation (s.step e).feed.hub else []) events

theorem forcedBy_concat (s : Session) (i : Nat) (events : List SessionEvent) (e : SessionEvent) :
    s.forcedBy i (events ++ [e]) = s.forcedBy i events ++
      if e.isTurnOf i then
        Channel.madeSince (s.run events).feed.hub.generation ((s.run events).step e).feed.hub
      else [] :=
  s.collect_concat _ events e

theorem forcedBy_of_none (hc : ((start url options).run events).channels[i]? = none) :
    (start url options).forcedBy i events = [] := by
  refine collect_of_none (fun s e hs => ?_) hc
  split
  · rename_i he
    rw [step_of_none hs (by simp [SessionEvent.isOf, he])]
    simp [Channel.madeSince]
  · rfl

/-- A channel that has published that it gave up has done so. -/
theorem truthful_run (hc : ((start url options).run events).channels[i]? = some c) :
    c.Truthful := by
  refine channel_run (fun topic request opts kind => ?_) Channel.Move.truthful
    (fun _ _ _ => .inr rfl) hc
  rcases Channel.opened_cases topic request opts kind with heq | heq <;> rw [heq]
  · exact fun hmem => nomatch hmem
  · exact fun _ => .inr rfl

/-- **What is known of a channel's attempts is true at all times.** -/
theorem outlook_run (hc : ((start url options).run events).channels[i]? = some c)
    (hlim : 1 ≤ c.limit) :
    Channel.Outlook ((start url options).forcedBy i events) c
        ((start url options).run events).feed.hub := by
  induction events using List.reverseRecOn generalizing c with
  | nil => simp [run, start] at hc
  | append_singleton events e ih =>
    have hs := sound_run url options events
    have he := step_evolves hs e
    rw [run_concat] at hc
    rw [forcedBy_concat, run_concat]
    rcases step_cases_at hc with ⟨topic, request, opts, kind, rfl, hnone, rfl, hhub⟩ |
      ⟨d, first, rfl, hd, heq⟩ | ⟨d, rfl, hd, heq⟩ | ⟨hno, hd⟩
    · rw [forcedBy_of_none hnone]
      exact .of_idle ((Channel.phase_opened topic request opts kind).imp_left (⟨·, rfl⟩))
    · have hfeed := congrArg Prod.snd heq
      obtain rfl := congrArg Prod.fst heq
      dsimp only at hfeed
      have halike := (Channel.turn_moves d ((start url options).run events).feed first).alike
      have hlim' : 1 ≤ d.limit := Channel.limit_congr halike.options_eq ▸ hlim
      rw [if_pos (by simp [SessionEvent.isTurnOf]), hfeed]
      exact ((ih hd hlim').turn hs hlim' first).1
    · -- a channel that has ended makes no attempts any more
      obtain rfl := congrArg Prod.fst heq
      rw [if_neg (by simp [SessionEvent.isTurnOf]), List.append_nil]
      cases hl : d.isLive with
      | false =>
        simp only [Channel.tearDown_of_not_isLive hl] at hlim ⊢
        exact (ih hd hlim).evolves he
      | true =>
        rw [(Channel.tearDown_eq hs hl).1]
        exact .of_idle (.inr rfl)
    · have hturn := SessionEvent.isTurnOf_of_isOf hno
      rw [hturn, if_neg (by simp), List.append_nil]
      exact (ih hd hlim).evolves he

/-- A channel gives up in one of its turns. -/
theorem eq_turn_of_stalled (hc : ((start url options).run events).channels[i]? = some c)
    (hc' : ((start url options).run (events ++ [e])).channels[i]? = some c')
    (hbefore : c.state ≠ .stalled) (hafter : c'.state = .stalled) :
    ∃ first, e = .turn i first ∧ (c', ((start url options).run (events ++ [e])).feed) =
      c.turn ((start url options).run events).feed first := by
  have hs := sound_run url options events
  rw [run_concat] at hc' ⊢
  rcases step_cases_at hc' with ⟨_, _, _, _, _, hnone, _⟩ | ⟨d, first, rfl, hd, heq⟩ |
    ⟨d, rfl, hd, heq⟩ | ⟨_, hd⟩
  · cases hc.symm.trans hnone
  · cases hc.symm.trans hd
    exact ⟨first, rfl, heq⟩
  · -- ending publishes nothing
    cases hc.symm.trans hd
    obtain rfl := congrArg Prod.fst heq
    refine absurd ?_ hbefore
    cases hl : c.isLive with
    | false => rwa [Channel.tearDown_of_not_isLive hl] at hafter
    | true =>
      rw [(Channel.tearDown_eq hs hl).1] at hafter
      exact hafter
  · cases hc.symm.trans hd
    exact absurd hafter hbefore

/-- **When a channel that makes attempts gives up**, it tells its opener, the newest
connection is on its way, and of those the channel has forced all others are on their
way out. So all it has forced has failed if and only if the turn in which it gave up
made no connection. -/
theorem forced_terminal_iff_of_stalled (url : String) (options : ChannelOptions)
    (events : List SessionEvent) (e : SessionEvent) (i : Nat) (c c' : Channel)
    (hc : ((start url options).run events).channels[i]? = some c)
    (hc' : ((start url options).run (events ++ [e])).channels[i]? = some c')
    (hlimit : 1 ≤ c.options.maxAttempts.toNat) (hbefore : c.state ≠ .stalled)
    (hafter : c'.state = .stalled) :
    c'.exhaustedCalls = c.exhaustedCalls + (if c.options.onExhausted then 1 else 0) ∧
    ((start url options).run (events ++ [e])).feed.hub.stateOf
        ((start url options).run (events ++ [e])).feed.hub.generation = .connecting ∧
    (∀ g ∈ (start url options).forcedBy i (events ++ [e]),
      g ≠ ((start url options).run (events ++ [e])).feed.hub.generation →
        (((start url options).run (events ++ [e])).feed.hub.stateOf g).isTerminal = true) ∧
    ((∀ g ∈ (start url options).forcedBy i (events ++ [e]),
        (((start url options).run (events ++ [e])).feed.hub.stateOf g).isTerminal = true) ↔
      ((start url options).run (events ++ [e])).feed.hub.generation =
        ((start url options).run events).feed.hub.generation) := by
  obtain ⟨first, rfl, heq⟩ := eq_turn_of_stalled hc hc' hbefore hafter
  have hs := sound_run url options events
  have hs' := sound_run url options (events ++ [.turn i first])
  have ho := outlook_run hc hlimit
  have hms := Channel.turn_moves c ((start url options).run events).feed first
  have hturn : (c.turn ((start url options).run events).feed first).1.state = .stalled := by
    rw [← heq]
    exact hafter
  obtain ⟨hp, hp'⟩ := Channel.phase_of_turn_stalled (truthful_run hc) hbefore hturn
  obtain ⟨hpos, hpending⟩ := (ho.turn hs hlimit first).2 hp hp'
  have hle := hms.evolves.generation_le
  have hcalls := hms.exhaustedCalls hp
  rw [← heq] at hp' hpending hle hcalls
  refine ⟨?_, hpending.1, fun g _ hg => hs'.isTerminal_of_ne hg, ?_⟩
  · rw [hcalls, if_pos hp']
    rfl
  · rw [forcedBy_concat, if_pos (by simp [SessionEvent.isTurnOf]), ← run_concat]
    exact hpending.forced_terminal_iff hs' hpos hle

/-- The connection closes, time goes by until the only attempt is due, and the channel
has another turn. -/
def surrender : List SessionEvent :=
  let topic := Topic.orderBook "mkt_1" "/proto"
  [.openChannel topic (.subscribe topic.channel)
      { reconnectDelay := ⟨1000⟩, maxAttempts := 1, onExhausted := true } .book,
    .turn 0 .stateFirst, .act 1 .dropDriver, .turn 0 .stateFirst, .elapse 2000]

theorem forced_terminal_iff_of_stalled_surrender :
    ∃ c c', ((start "ws://localhost:4010/ws" {}).run surrender).channels[0]? = some c ∧
      ((start "ws://localhost:4010/ws" {}).run
        (surrender ++ [.turn 0 .stateFirst])).channels[0]? = some c' ∧
      1 ≤ c.options.maxAttempts.toNat ∧ c.state ≠ .stalled ∧ c'.state = .stalled ∧
      ((start "ws://localhost:4010/ws" {}).run
        (surrender ++ [.turn 0 .stateFirst])).feed.hub.stateOf 2 = .connecting := by
  have hbefore : ((start "ws://localhost:4010/ws" {}).run surrender).channels[0]?.map (fun c =>
      (c.options.maxAttempts.toNat, c.state)) = some (1, .reconnecting 1) := by decide +kernel
  have hafter : ((start "ws://localhost:4010/ws" {}).run
      (surrender ++ [.turn 0 .stateFirst])).channels[0]?.map (·.state) = some .stalled := by
    decide +kernel
  have hgen : ((start "ws://localhost:4010/ws" {}).run
      (surrender ++ [.turn 0 .stateFirst])).feed.hub.generation = 2 := by decide +kernel
  obtain ⟨c, hc, heq⟩ := Option.map_eq_some_iff.1 hbefore
  obtain ⟨c', hc', hstalled⟩ := Option.map_eq_some_iff.1 hafter
  obtain ⟨hlimit, hstate⟩ := Prod.mk.inj heq
  have hlimit : 1 ≤ c.options.maxAttempts.toNat := Nat.le_of_eq hlimit.symm
  have hstate : c.state ≠ .stalled := by
    rw [hstate]
    nofun
  have hlaw := forced_terminal_iff_of_stalled "ws://localhost:4010/ws" {} surrender
    (.turn 0 .stateFirst) 0 c c' hc hc' hlimit hstate hstalled
  refine ⟨c, c', hc, hc', hlimit, hstate, hstalled, ?_⟩
  rw [← hgen]
  exact hlaw.2.1

/-- A channel gives up, and says so, while the connection it has just forced is still on
its way. -/
theorem stalled_while_forced_connecting :
    ((start "ws://localhost:4010/ws" {}).run
        (surrender ++ [.turn 0 .stateFirst])).channels[0]?.map (fun c =>
          (c.state, c.exhaustedCalls)) = some (.stalled, 1) ∧
      (start "ws://localhost:4010/ws" {}).forcedBy 0 (surrender ++ [.turn 0 .stateFirst]) = [2] ∧
      ((start "ws://localhost:4010/ws" {}).run
        (surrender ++ [.turn 0 .stateFirst])).feed.hub.stateOf 2 = .connecting := by
  refine ⟨?_, ?_, ?_⟩ <;> decide +kernel

end Session

end PushFeed
