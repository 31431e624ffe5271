import PushFeed.Proofs.Channel.Course
import PushFeed.Proofs.Session.Closing
import PushFeed.Proofs.Session.Requests
import PushFeed.Proofs.Session.Stalls
/-!
# The course of a session's channels

Whatever happens in a session, each channel that works at all is on its course at all times
(`on_course_run`), as its turns keep it there and nobody else touches it. So the states it
publishes follow one another as they may, and giving up is the last of them
(`states_conform`).
-/

namespace PushFeed

open ChannelState (Leads)

namespace Channel

variable {c : Channel} {f : Feed}

/-- A channel that is to work is new when it is opened. -/
theorem opened_of_enabled (topic : Topic) (request : ClientMessage) {options : ChannelOptions}
    (kind : MessageKind) (h : options.disabled = false) :
    (opened topic request options kind).1 = { topic, request, options, kind } := by
  simp [opened, h]

theorem options_opened (topic : Topic) (request : ClientMessage) (options : ChannelOptions)
    (kind : MessageKind) : (opened topic request options kind).1.options = options := by
  rcases opened_cases topic request options kind with heq | heq <;> rw [heq]

/-- A new channel follows no connection. -/
theorem phase_opened_ne (topic : Topic) (request : ClientMessage) (options : ChannelOptions)
    (kind : MessageKind) (g : Nat) (seen : ReadyState) :
    (opened topic request options kind).1.phase ≠ .following g seen := by
  intro hp
  rcases phase_opened topic request options kind with h | h <;> cases h.symm.trans hp

/-- The end of a channel that has no listener touches no connection, if it had a turn. -/
theorem hub_tearDown_of_detached (hp : c.phase ≠ .starting) (ha : c.attached = none) (f : Feed) :
    (c.tearDown f).2.hub = f.hub := by
  unfold tearDown release
  split
  · rw [ha]
    rfl
  · rfl

/-- The end of a channel publishes nothing. -/
theorem OnCourse.tearDown (hc : c.OnCourse) (hs : f.hub.Sound) : Advance c (c.tearDown f) := by
  cases hl : c.isLive with
  | false =>
    rw [tearDown_of_not_isLive hl]
    exact hc.advance rfl
  | true =>
    have hended : Lawful { c with attached := none, phase := .ended } :=
      hc.lawful.congr rfl rfl rfl
    have hcourse := hended.onCourse (.inr (.inl rfl))
    rw [← (tearDown_eq hs hl).1] at hcourse
    refine hcourse.advance ?_
    rw [(tearDown_eq hs hl).1]

end Channel

namespace Session

variable {url : String} {options : ChannelOptions} {events before more : List SessionEvent}
  {e : SessionEvent} {i g : Nat} {c d : Channel}

/-- What a channel has seen of the connection it follows is never ahead of it. -/
theorem sees_run (hc : ((start url options).run events).channels[i]? = some c) :
    c.Sees ((start url options).run events).feed.hub := by
  refine channel_hub_run (P := Channel.Sees) ?_ ?_ ?_ ?_ hc
  · intro topic request opts kind h
    exact Channel.sees_of_ne (Channel.phase_opened_ne topic request opts kind)
  · intro before d first _ hd
    exact (d.turn_moves _ first).sees (sound_run url options before) hd
  · exact fun d h => Channel.sees_of_ne (by simp)
  · exact fun _ hd he => hd.evolves (sound_run url options _) he

/-- **An event keeps a channel on its course.** -/
theorem advance_step (hd : ((start url options).run events).channels[i]? = some d)
    (hcourse : d.OnCourse)
    (hc : ((start url options).run (events ++ [e])).channels[i]? = some c) :
    Channel.Advance d (c, ((start url options).run (events ++ [e])).feed) := by
  have hs := sound_run url options events
  rw [run_concat] at hc ⊢
  rcases step_cases_at hc with ⟨_, _, _, _, _, hnone, _⟩ | ⟨d', first, -, hd', heq⟩ |
    ⟨d', -, hd', heq⟩ | ⟨-, hd'⟩
  · cases hd.symm.trans hnone
  · cases hd.symm.trans hd'
    rw [heq]
    exact hcourse.turn (hopeful_run hd) (sees_run hd) first
  · cases hd.symm.trans hd'
    rw [heq]
    exact hcourse.tearDown hs
  · cases hd.symm.trans hd'
    exact hcourse.advance rfl

/-- **A channel that is to work is on its course at all times.** -/
theorem on_course_run (hc : ((start url options).run events).channels[i]? = some c)
    (henabled : c.options.disabled = false) : c.OnCourse := by
  induction events using List.reverseRecOn generalizing c with
  | nil => simp [run, start] at hc
  | append_singleton events e ih =>
    cases hd : ((start url options).run events).channels[i]? with
    | none =>
      rw [run_concat] at hc
      rcases step_cases_at hc with ⟨topic, request, opts, kind, -, -, rfl, -⟩ | ⟨_, _, _, hd', _⟩ |
        ⟨_, _, hd', _⟩ | ⟨_, hd'⟩
      · rw [Channel.options_opened] at henabled
        rw [Channel.opened_of_enabled topic request kind henabled]
        exact Channel.onCourse_of_new rfl rfl rfl
      all_goals cases hd.symm.trans hd'
    | some d =>
      obtain ⟨c', hc', halike⟩ := exists_alike_step (sound_run url options events) hd e
      rw [run_concat, hc'] at hc
      cases hc
      refine (advance_step hd (ih hd ?_) (by rw [run_concat, hc'])).onCourse
      rw [← halike.options_eq, henabled]

/-- A channel that has come to remember its request on an open connection has queued it in
this very event. -/
theorem queued_of_sentOn {text : String}
    (hd : ((start url options).run events).channels[i]? = some d)
    (hc : ((start url options).run (events ++ [e])).channels[i]? = some c)
    (ht : d.request.text? = .ok text) (hsent : c.sentOn = some g)
    (hopen : ((start url options).run (events ++ [e])).feed.hub.stateOf g = .open) :
    d.sentOn = some g ∨ .text text ∈ ((start url options).run events).queuedIn e g := by
  have hs := sound_run url options events
  have ht' : c.request.text? = .ok text := by
    obtain ⟨c', hc', halike⟩ := exists_alike_step hs hd e
    rw [run_concat, hc'] at hc
    cases hc
    exact halike.request_eq ▸ ht
  have hasked := (recalls_run hc ht').asked g hsent
  rw [timesQueued, queuedBy_concat, List.count_append] at hasked
  by_cases hbefore : 0 < ((start url options).queuedBy (SessionEvent.isTurnOf i) g events).count
      (.text text)
  · -- what it has asked on before is on its way out, or it has remembered it
    obtain ⟨hg, hterminal | hlast⟩ := (books_run hd ht).1.gone g hbefore
    · have hgone := (step_evolves hs e).isTerminal hs hg hterminal
      rw [← run_concat, hopen] at hgone
      cases hgone
    · exact .inl hlast
  · refine .inr ?_
    split at hasked
    · exact List.count_pos_iff.1 (by omega)
    · simp only [List.count_nil] at hasked
      omega

/-- A channel that has given up stays as it is but for its end. -/
theorem absorbed_run (hc : ((start url options).run events).channels[i]? = some c)
    (hstalled : c.state = .stalled) (more : List SessionEvent) :
    ∃ c', ((start url options).run (events ++ more)).channels[i]? = some c' ∧
      c'.states = c.states ∧ c'.exhaustedCalls = c.exhaustedCalls ∧
      (c'.phase = .stalled ∨ c'.phase = .ended) := by
  have hmem : ∀ d : Channel, d.state = .stalled → .stalled ∈ d.states :=
    fun d hd => Channel.mem_states_of_state hd (by simp)
  induction more using List.reverseRecOn with
  | nil =>
    rw [List.append_nil]
    exact ⟨c, hc, rfl, rfl, truthful_run hc (hmem c hstalled)⟩
  | append_singleton more e ih =>
    obtain ⟨d, hd, hstates, hcalls, hphase⟩ := ih
    have hs := sound_run url options (events ++ more)
    obtain ⟨c', hc', -⟩ := exists_alike_step hs hd e
    rw [← List.append_assoc, run_concat]
    refine ⟨c', hc', ?_⟩
    rcases step_cases_at hc' with ⟨_, _, _, _, _, hnone, _⟩ | ⟨d', first, -, hd', heq⟩ |
      ⟨d', -, hd', heq⟩ | ⟨-, hd'⟩
    · cases hd.symm.trans hnone
    · cases hd.symm.trans hd'
      obtain rfl := congrArg Prod.fst heq
      rw [Channel.turn_of_idle (hphase.imp_right .inl)]
      exact ⟨hstates, hcalls, hphase⟩
    · cases hd.symm.trans hd'
      obtain rfl := congrArg Prod.fst heq
      cases hl : d.isLive with
      | false =>
        rw [Channel.tearDown_of_not_isLive hl]
        exact ⟨hstates, hcalls, hphase⟩
      | true =>
        rw [(Channel.tearDown_eq hs hl).1]
        exact ⟨hstates, hcalls, .inr rfl⟩
    · cases hd.symm.trans hd'
      exact ⟨hstates, hcalls, hphase⟩

/-- **The states a channel publishes**, in any run, follow one another as they may; attempts
are numbered from one to the limit, and a channel awaits its first connection only, before
anything else. It calls itself subscribed in a turn after which it follows an open
connection on which its request went out, in this turn if not before. It tells its opener
when it gives up, once, and then nothing happens to it any more: it publishes nothing, its
turns leave all as it is, and its end touches no connection. -/
theorem states_conform (url : String) (options : ChannelOptions) (events : List SessionEvent)
    (i : Nat) (c : Channel) (hc : ((start url options).run events).channels[i]? = some c)
    (henabled : c.options.disabled = false) :
    c.history.IsChain (Leads c.options.maxAttempts.toNat) ∧
    (∀ k, .reconnecting k ∈ c.states → 1 ≤ k ∧ k ≤ c.options.maxAttempts.toNat) ∧
    (∀ earlier later, c.history = earlier ++ .awaitingOpen :: later → earlier = [.idle]) ∧
    (∀ before e after d d', events = before ++ e :: after →
      ((start url options).run before).channels[i]? = some d →
      ((start url options).run (before ++ [e])).channels[i]? = some d' →
      ∃ new, d'.states = new ++ d.states ∧ (.awaitingOpen ∈ new → d.phase = .starting) ∧
        (.subscribed ∈ new → ∃ g text, d'.phase = .following g .open ∧
          ((start url options).run (before ++ [e])).feed.hub.stateOf g = .open ∧
          d'.sentOn = some g ∧ c.request.text? = .ok text ∧
          (d.sentOn = some g ∨
            .text text ∈ ((start url options).run before).queuedIn e g))) ∧
    c.exhaustedCalls =
      (if .stalled ∈ c.states then if c.options.onExhausted then 1 else 0 else 0) ∧
    (c.state = .stalled → ∀ more, ∃ c',
      ((start url options).run (events ++ more)).channels[i]? = some c' ∧
      c'.states = c.states ∧ c'.exhaustedCalls = c.exhaustedCalls ∧ c'.attached = none ∧
      ∀ f, (∀ first, c'.turn f first = (c', f)) ∧ (c'.tearDown f).2.hub = f.hub) := by
  have hcourse := on_course_run hc henabled
  refine ⟨hcourse.lawful.history, hcourse.lawful.bounds, ?_, ?_, ?_, ?_⟩
  · exact fun earlier later heq => hcourse.lawful.awaits_first heq
  · intro before e after d d' hsplit hd hd'
    -- what the channel was opened with is read off the end of the run
    obtain ⟨b, hb, halike⟩ := exists_alike_run (sound_run url options before) hd (e :: after)
    rw [← run_append, ← hsplit, hc] at hb
    cases hb
    have hcourse' := on_course_run hd (halike.options_eq ▸ henabled)
    obtain ⟨-, new, hnew, hawait, hsub⟩ := advance_step hd hcourse' hd'
    refine ⟨new, hnew, hawait, fun hmem => ?_⟩
    obtain ⟨g, hphase, hopen, hsent⟩ := hsub hmem
    cases ht : d.request.text? with
    | ok text =>
      exact ⟨g, text, hphase, hopen, hsent, halike.request_eq ▸ ht,
        queued_of_sentOn hd hd' ht hsent hopen⟩
    | error error =>
      -- a channel that never asks does not call itself subscribed
      obtain ⟨b, hb, halike'⟩ := exists_alike_step (sound_run url options before) hd e
      rw [← run_concat, hd'] at hb
      cases hb
      refine absurd ?_ (silent_run hd' (halike'.request_eq ▸ ht)).1.not_subscribed
      rw [hnew]
      exact List.mem_append_left _ hmem
  · rw [hcourse.lawful.calls]
    simp only [hcourse.lawful.stalled_mem_iff]
    rfl
  · intro hstalled more
    obtain ⟨c', hc', hstates, hcalls, hphase⟩ := absorbed_run hc hstalled more
    have hdetached : c'.attached = none := by
      refine (moored_run hc').attached_of_phase fun g seen hp => ?_
      rcases hphase with h | h <;> cases h.symm.trans hp
    refine ⟨c', hc', hstates, hcalls, hdetached, fun f => ⟨fun first => ?_, ?_⟩⟩
    · exact Channel.turn_of_idle (hphase.imp_right .inl) first
    · refine Channel.hub_tearDown_of_detached (fun hp => ?_) hdetached f
      rcases hphase with h | h <;> cases h.symm.trans hp

/-- A channel awaits its connection, asks on it, loses it, makes its only attempt and gives
up. -/
def career : List SessionEvent :=
  let topic := Topic.orderBook "mkt_1" "/proto"
  [.openChannel topic (.subscribe topic.channel)
      { reconnectDelay := ⟨1000⟩, maxAttempts := 1, onExhausted := true } .book,
    .turn 0 .stateFirst, .act 1 .markOpen, .turn 0 .stateFirst, .act 1 .dropDriver,
    .turn 0 .stateFirst, .elapse 2000, .turn 0 .stateFirst]

theorem states_conform_career :
    ∃ c, ((start "ws://localhost:4010/ws" {}).run career).channels[0]? = some c ∧
      c.options.disabled = false ∧
      c.history = [.idle, .awaitingOpen, .subscribed, .reconnecting 1, .stalled] ∧
      c.history.IsChain (Leads 1) ∧ c.exhaustedCalls = 1 := by
  have hrun : ((start "ws://localhost:4010/ws" {}).run career).channels[0]?.map (fun c =>
      (c.options.disabled, c.options.maxAttempts.toNat, c.options.onExhausted, c.history)) =
        some (false, 1, true, [.idle, .awaitingOpen, .subscribed, .reconnecting 1, .stalled]) := by
    decide +kernel
  obtain ⟨c, hc, heq⟩ := Option.map_eq_some_iff.1 hrun
  simp only [Prod.mk.injEq] at heq
  obtain ⟨henabled, hlimit, hcalls, hhistory⟩ := heq
  obtain ⟨hchain, -, -, -, hexhausted, -⟩ :=
    states_conform "ws://localhost:4010/ws" {} career 0 c hc henabled
  have hmem : .stalled ∈ c.states := by
    have hlast : .stalled ∈ c.history := by simp [hhistory]
    simpa [Channel.history] using hlast
  refine ⟨c, hc, henabled, hhistory, hlimit ▸ hchain, ?_⟩
  rw [hexhausted, if_pos hmem, hcalls]
  rfl

end Session

end PushFeed
