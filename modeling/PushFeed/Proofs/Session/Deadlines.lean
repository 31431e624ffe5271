import PushFeed.Proofs.Channel.Deadlines
import PushFeed.Proofs.Session.Timing
import PushFeed.Proofs.Session.Waiting
/-!
# Episodes that come to an end

A channel that has lost its connection follows another one or gives up, or else it waits for
a moment that the clock can reach. And the wait is not for ever: once one attempt more than
the limit would be due, the next turn ends the matter, if no turn before has, unless the
channel is torn down (`settlesWithin`).

This is so for all delays and limits with one exception, and there it is not
(`episodes_settle_iff`). A limit of `2 ^ 32 - 1` lets a channel come to the attempt of that
number if the clock lets as many delays go by, and the deadline of that attempt is counted
with the number `2 ^ 32`, which has more than 32 bits: the channel breaks down
(`exists_broken`).
-/

namespace PushFeed

namespace Session

variable {s : Session} {e : SessionEvent} {i k t : Nat} {c d : Channel} {url : String}
  {options : ChannelOptions} {events more : List SessionEvent}

/-! ## Channels that wait for a moment there is -/

/-- A channel that is to do nothing has ended. -/
theorem ended_of_disabled_run (hc : ((start url options).run events).channels[i]? = some c)
    (hdisabled : c.options.disabled = true) : c.phase = .ended := by
  refine channel_hub_run (P := fun c _ => c.options.disabled = true → c.phase = .ended)
    ?_ ?_ (fun _ _ _ => rfl) (fun _ hd _ => hd) hc hdisabled
  · intro topic request opts kind _ h
    rw [Channel.options_opened] at h
    unfold Channel.opened
    rw [if_pos h]
  · intro before d first _ hd h
    rw [disabled_turn] at h
    rw [Channel.turn_of_idle (.inr (.inl (hd h)))]
    exact hd h

/-- **A channel that is retrying waits for a moment there is**, at all times. -/
theorem awaits_run (hc : ((start url options).run events).channels[i]? = some c) : c.Awaits := by
  refine channel_hub_run (P := fun c _ => c.Awaits) ?_ ?_ (fun _ _ => nofun) (fun _ hd _ => hd) hc
  · intro topic request opts kind _ k e hp
    rcases Channel.phase_opened topic request opts kind with h | h <;> cases h.symm.trans hp
  · intro before d first hd hwaits
    cases hdisabled : d.options.disabled with
    | true =>
      rw [Channel.turn_of_idle (.inr (.inl (ended_of_disabled_run hd hdisabled)))]
      exact hwaits
    | false => exact ((on_course_run hd hdisabled).rests_turn (hopeful_run hd) _ first).awaits

theorem pursues_run (hc : ((start url options).run events).channels[i]? = some c)
    (first : Precedence) :
    Channel.Pursues c ((start url options).run events).feed
      (c.turnLogged ((start url options).run events).feed first) := by
  obtain ⟨-, -, hready⟩ := disciplined_run hc
  exact Channel.turnLogged_pursues (sound_run url options events) hready
    (fun k e hp => ((paced_run hc).retrying k e hp).1) (hopeful_run hc) first

/-! ## The end of the wait -/

/-- Among the events is a turn of the channel that ends the attempts about a close. -/
inductive SettlesWithin (i t : Nat) : Session → List SessionEvent → Prop
  /-- It is the first of them. -/
  | now {s : Session} {c : Channel} {k : Nat} {first : Precedence} {more : List SessionEvent}
      (hc : s.channels[i]? = some c) (hab : Channel.About c s.feed t k)
      (hsettles : c.Settles s.feed first) : SettlesWithin i t s (.turn i first :: more)
  /-- It comes later. -/
  | later {s : Session} {e : SessionEvent} {more : List SessionEvent}
      (h : SettlesWithin i t (s.step e) more) : SettlesWithin i t s (e :: more)

theorem now_le_run (s : Session) (events : List SessionEvent) :
    s.feed.now ≤ (s.run events).feed.now := by
  induction events generalizing s with
  | nil => exact Nat.le_refl _
  | cons e events ih =>
    have hstep := ih (s.step e)
    rw [now_step] at hstep
    rw [run_cons]
    omega

/-- A turn of a channel that is retrying ends the matter or leaves the channel waiting, and
not past the moment at which it gives up. -/
theorem turn_of_retrying {k : Nat} {e : Episode}
    (hc : ((start url options).run events).channels[i]? = some c) (hp : c.phase = .retrying k e)
    (hroom : c.options.reconnectDelay.HasRoom ((start url options).run events).feed.now)
    (hcount : c.Countable) (first : Precedence) :
    c.Settles ((start url options).run events).feed first ∨
      ∃ c' k' e', ((start url options).run (events ++ [.turn i first])).channels[i]? = some c' ∧
        c'.options = c.options ∧ c'.phase = .retrying k' e' ∧ e'.closedAt = e.closedAt ∧
        ((start url options).run events).feed.now <
          e.closedAt + c.options.reconnectDelay.milliseconds.toNat * (c.limit + 1) := by
  have henabled : c.options.disabled = false := by
    by_contra hdisabled
    have hended := ended_of_disabled_run hc (Bool.not_eq_false _ ▸ hdisabled)
    cases hp.symm.trans hended
  rcases Channel.about_cases (pursues_run hc first) (awaits_run hc) hroom hcount (.before hp) with
    ⟨k', e', hwait, hclosed⟩ | hsettles
  · right
    have hoptions := (c.turn_moves ((start url options).run events).feed first).alike.options_eq
    have hnow := c.now_turn ((start url options).run events).feed first
    have hrests := (on_course_run hc henabled).rests_turn (hopeful_run hc)
      ((start url options).run events).feed first
    have hle := Channel.le_limit_of_turn first
      (fun k e hp => ((paced_run hc).retrying k e hp).1) hwait
    have hlt := hrests.lt_of_retrying hwait (by rwa [Channel.limit_congr hoptions])
    rw [hnow, hoptions, Channel.limit_congr hoptions, hclosed] at hlt
    have hlive : i < ((start url options).run events).channels.length :=
      (List.getElem?_eq_some_iff.1 hc).1
    refine ⟨_, k', e', ?_, hoptions, hwait, hclosed, hlt⟩
    rw [run_concat, step, onChannel_eq hc]
    exact List.getElem?_set_self hlive
  · exact .inl hsettles

/-- **A channel that is retrying does not wait for ever.** Once one attempt more than the limit
would be due, the next turn ends the matter, if no turn before has. -/
theorem settlesWithin {k : Nat} {e : Episode}
    (hc : ((start url options).run events).channels[i]? = some c) (hp : c.phase = .retrying k e)
    (hstays : ∀ x ∈ more, x.isTearDownOf i = false)
    (hlate : e.closedAt + c.options.reconnectDelay.milliseconds.toNat * (c.limit + 1) ≤
      ((start url options).run (events ++ more)).feed.now)
    (hroom : c.options.reconnectDelay.HasRoom
      ((start url options).run (events ++ more)).feed.now)
    (hcount : c.Countable) (last : Precedence) :
    SettlesWithin i e.closedAt ((start url options).run events) (more ++ [.turn i last]) := by
  -- the channel stays about the same close until a turn ends the matter
  induction more generalizing events c k e with
  | nil =>
    rw [List.append_nil] at hlate hroom
    rcases turn_of_retrying hc hp hroom hcount last with hsettles | ⟨_, _, _, _, _, _, _, hlt⟩
    · exact .now hc (.before hp) hsettles
    · omega
  | cons x more ih =>
    obtain ⟨hx, hmore⟩ := List.forall_mem_cons.1 hstays
    rw [List.append_cons] at hlate hroom
    rw [List.cons_append]
    cases hturn : x.isTurnOf i with
    | false =>
      refine .later ?_
      rw [← run_concat]
      refine ih ?_ hp hmore hlate hroom hcount
      rw [run_concat]
      exact channels_step_of_not (by rw [SessionEvent.isOf, hturn, hx]; rfl) hc
    | true =>
      obtain ⟨first, rfl⟩ : ∃ first, x = .turn i first := by
        cases x with
        | turn channel first =>
          obtain rfl : channel = i := by simpa [SessionEvent.isTurnOf] using hturn
          exact ⟨first, rfl⟩
        | openChannel | tearDown | getConnection | act | elapse => cases hturn
      have hbefore : ((start url options).run events).feed.now ≤
          ((start url options).run (events ++ [.turn i first] ++ more)).feed.now := by
        rw [List.append_assoc, run_append]
        exact now_le_run _ _
      rcases turn_of_retrying hc hp (hroom.of_le hbefore) hcount first with
        hsettles | ⟨c', k', e', hc', hoptions, hp', hclosed, -⟩
      · exact .now hc (.before hp) hsettles
      · refine .later ?_
        rw [← run_concat, ← hclosed]
        refine ih hc' hp' hmore ?_ ?_ ((Channel.countable_congr hoptions).2 hcount)
        · rw [hclosed, hoptions, Channel.limit_congr hoptions]
          exact hlate
        · rw [hoptions]
          exact hroom

/-! ## Sound episodes -/

/-- **What a channel comes to after a close has its moment, and its end.** -/
structure SettlesEpisodes (s : Session) (i : Nat) (c : Channel) : Prop where
  /-- An attempt that a turn comes to has a number up to the limit, and its deadline, as many
  delays after the close and one more. -/
  deadline : ∀ first t k, c.ComesTo s.feed first t k → k ≤ c.limit ∧
    c.options.reconnectDelay.deadline? t (k + 1) =
      some (t + c.options.reconnectDelay.milliseconds.toNat * (k + 1))
  /-- A turn about a close makes no other attempts. -/
  made : ∀ first t k, Channel.About c s.feed t k →
    ∀ a ∈ (c.turnLogged s.feed first).1, c.ComesTo s.feed first a.closedAt a.number
  /-- It waits for no other attempt. -/
  next : ∀ first t k, Channel.About c s.feed t k →
    ∀ k' e, (c.turn s.feed first).1.phase = .retrying k' e → c.ComesTo s.feed first e.closedAt k'
  /-- It leaves the channel waiting, or the channel follows an open connection or gives up. -/
  ends : ∀ first t k, Channel.About c s.feed t k →
    (∃ k' e, (c.turn s.feed first).1.phase = .retrying k' e ∧ e.closedAt = t) ∨
      c.Settles s.feed first
  /-- No turn breaks the channel down. -/
  whole : ∀ first, c.phase ≠ .broken → (c.turn s.feed first).1.phase ≠ .broken
  /-- The wait is over by the next turn once one attempt more than the limit would be due. -/
  settles : ∀ k e, c.phase = .retrying k e → ∀ more last,
    (∀ x ∈ more, x.isTearDownOf i = false) →
    e.closedAt + c.options.reconnectDelay.milliseconds.toNat * (c.limit + 1) ≤
      (s.run more).feed.now →
    c.options.reconnectDelay.HasRoom (s.run more).feed.now →
    SettlesWithin i e.closedAt s (more ++ [.turn i last])

/-- The episodes of a channel whose attempts can be counted are sound. -/
theorem settlesEpisodes_run (hc : ((start url options).run events).channels[i]? = some c)
    (hroom : c.options.reconnectDelay.HasRoom ((start url options).run events).feed.now)
    (hcount : c.Countable) : SettlesEpisodes ((start url options).run events) i c := by
  have hwaits := awaits_run hc
  have hdeadline (first : Precedence) {t k : Nat}
      (hcomes : c.ComesTo ((start url options).run events).feed first t k) :
      c.options.reconnectDelay.deadline? t (k + 1) =
        some (t + c.options.reconnectDelay.milliseconds.toNat * (k + 1)) :=
    hcomes.deadline?_eq (pursues_run hc first) hwaits hroom
      (hcomes.lt_last (pursues_run hc first) hwaits hroom hcount)
  refine ⟨fun first t k hcomes => ⟨hcomes.le_limit, hdeadline first hcomes⟩, ?_, ?_, ?_, ?_, ?_⟩
  · intro first t k hab
    exact ((pursues_run hc first).comesTo hab).1
  · intro first t k hab
    have hnext := ((pursues_run hc first).comesTo hab).2
    rwa [Channel.turnLogged_snd] at hnext
  · intro first t k hab
    exact Channel.about_cases (pursues_run hc first) hwaits hroom hcount hab
  · intro first hwhole hbroken
    obtain ⟨t, k, hcomes, hnone⟩ :=
      Channel.comesTo_of_broken (pursues_run hc first) hwhole hbroken
    cases (hdeadline first hcomes).symm.trans hnone
  · intro k e hp more last hstays hlate hlater
    rw [← run_append] at hlate hlater
    exact settlesWithin hc hp hstays hlate hlater hcount last

/-! ## Attempts that cannot be counted -/

/-- A channel with a delay and a limit is about to see that its connection has closed. -/
def bereft (delay : Delay) (limit : UInt32) : List SessionEvent :=
  let topic := Topic.orderBook "mkt_1" "/proto"
  let patience : ChannelOptions := { reconnectDelay := delay, maxAttempts := limit }
  [.openChannel topic (.subscribe topic.channel) patience .book, .turn 0 .stateFirst,
    .act 1 .dropDriver]

/-- It has seen the close, and time has gone by. -/
def overdue (delay : Delay) (limit : UInt32) (span : Nat) : List SessionEvent :=
  bereft delay limit ++ [.turn 0 .stateFirst, .elapse span]

theorem bereft_spec (url : String) (options : ChannelOptions) (delay : Delay) (limit : UInt32) :
    let s := (start url options).run (bereft delay limit)
    s.feed.now = 0 ∧ s.feed.hub.generation = 1 ∧ s.feed.hub.stateOf 1 = .closed ∧
      ∃ c, s.channels[0]? = some c ∧
        c.options = { reconnectDelay := delay, maxAttempts := limit } ∧
        c.phase = .following 1 .connecting ∧ c.SeesClose s.feed 1 :=
  ⟨rfl, rfl, rfl, _, rfl, rfl, rfl, ⟨_, rfl, nofun⟩, Nat.one_pos, Nat.le_refl _, rfl⟩

/-- With a delay it waits for its first attempt. -/
theorem overdue_spec (url : String) (options : ChannelOptions) {delay : Delay} {limit : UInt32}
    (hdelay : 0 < delay.milliseconds.toNat) (hlimit : 0 < limit.toNat) (hroom : delay.HasRoom 0)
    (span : Nat) :
    let s := (start url options).run (overdue delay limit span)
    s.feed.now = span ∧ s.feed.hub.generation = 1 ∧ s.feed.hub.stateOf 1 = .closed ∧
      ∃ c, s.channels[0]? = some c ∧
        c.options = { reconnectDelay := delay, maxAttempts := limit } ∧
        c.phase = .retrying 1 ⟨0, 1, 1⟩ := by
  obtain ⟨hnow, hgen, hclosed, c, hc, ho, -, hsees⟩ := bereft_spec url options delay limit
  have hs := sound_run url options (bereft delay limit)
  rw [overdue, run_append]
  generalize (start url options).run (bereft delay limit) = s at hnow hgen hclosed hc hsees hs ⊢
  have halike := (c.turn_moves s.feed .stateFirst).alike.options_eq
  obtain ⟨hphase, hquiet⟩ := hsees.turn_early hs (by rw [hgen, hclosed]; decide)
    (by rwa [Channel.limit, ho]) (by rwa [ho]) (by rwa [ho, hnow]) .stateFirst
  rw [hnow, hgen] at hphase
  have hlive : 0 < s.channels.length := (List.getElem?_eq_some_iff.1 hc).1
  have hrun : s.run [.turn 0 .stateFirst, .elapse span] =
      (s.step (.turn 0 .stateFirst)).step (.elapse span) := rfl
  have hturn : s.step (.turn 0 .stateFirst) = { s with
      feed := (c.turn s.feed .stateFirst).2
      channels := s.channels.set 0 (c.turn s.feed .stateFirst).1 } := by
    rw [step, onChannel_eq hc]
  rw [hrun, hturn]
  refine ⟨?_, hquiet.generation_eq.trans hgen, (hquiet.stateOf_eq 1).trans hclosed,
    (c.turn s.feed .stateFirst).1, List.getElem?_set_self hlive, halike.trans ho, hphase⟩
  show (c.turn s.feed .stateFirst).2.now + span = span
  rw [c.now_turn, hnow, Nat.zero_add]

/-- Without a delay all attempts are due when the channel sees the close. -/
theorem phase_turn_bereft {delay : Delay} {limit : UInt32} (hdelay : delay.milliseconds.toNat = 0)
    (hlimit : limit.toNat = twoTo 32 - 1)
    (hc : ((start url options).run (bereft delay limit)).channels[0]? = some c) :
    (c.turn ((start url options).run (bereft delay limit)).feed .stateFirst).1.phase =
      .broken := by
  obtain ⟨hnow, hgen, hclosed, c₀, hc₀, ho, -, hsees⟩ := bereft_spec url options delay limit
  obtain rfl := Option.some.inj (hc₀.symm.trans hc)
  have hs := sound_run url options (bereft delay limit)
  generalize (start url options).run (bereft delay limit) = s at hnow hgen hclosed hsees hs ⊢
  obtain ⟨c', f', hoptions, hnow', hs', hquiet, heq⟩ := hsees.turn_eq hs .stateFirst
  have hmany : 1 < twoTo 32 - 1 := by decide
  have hcount : c₀.limit = twoTo 32 - 2 + 1 := by
    rw [Channel.limit, ho]
    omega
  rw [heq, hcount]
  dsimp only
  rw [Channel.handleAll, Channel.phase_handleMany]
  refine Channel.phase_attempts_of_overdue (by omega) hs' ?_ ?_ ?_ ?_
  · rw [hquiet.generation_eq, hgen]
    exact Nat.one_pos
  · rw [hquiet.generation_eq, hquiet.stateOf_eq, hgen, hclosed]
    decide
  · rw [hoptions, ho, hdelay, Nat.zero_mul, hnow']
    exact Nat.le_refl _
  · rw [Delay.HasRoom, hoptions, ho, hdelay, hnow', hnow]
    decide

/-- With a delay they are due when all delays but the last have gone by. -/
theorem phase_turn_overdue {delay : Delay} {limit : UInt32} {span : Nat}
    (hdelay : 0 < delay.milliseconds.toNat) (hlimit : limit.toNat = twoTo 32 - 1)
    (hspan : delay.milliseconds.toNat * (twoTo 32 - 1) ≤ span) (hroom : delay.HasRoom span)
    (hc : ((start url options).run (overdue delay limit span)).channels[0]? = some c) :
    (c.turn ((start url options).run (overdue delay limit span)).feed .stateFirst).1.phase =
      .broken := by
  have hmany : 1 ≤ twoTo 32 - 1 := by decide
  have hsome : 0 < limit.toNat := by omega
  obtain ⟨hnow, hgen, hclosed, c₀, hc₀, ho, hp⟩ :=
    overdue_spec url options hdelay hsome (hroom.of_le (Nat.zero_le _)) span
  obtain rfl := Option.some.inj (hc₀.symm.trans hc)
  have hs := sound_run url options (overdue delay limit span)
  have hcount : c₀.limit = twoTo 32 - 1 := by rw [Channel.limit, ho, hlimit]
  rw [Channel.turn_of_retrying hp (by omega)]
  refine Channel.phase_attempts_of_overdue (by omega) hs ?_ ?_ ?_ ?_
  · rw [hgen]
    exact Nat.one_pos
  · rw [hgen, hclosed]
    decide
  · rwa [ho, hnow, Nat.zero_add]
  · rwa [ho, hnow]

/-- **A channel that may make as many attempts as 32 bits can count breaks down** in some run,
on a clock that lets as many delays go by. -/
theorem exists_broken {delay : Delay} {limit : UInt32} (hlimit : limit.toNat = twoTo 32 - 1)
    (hroom : delay.HasRoom (delay.milliseconds.toNat * (twoTo 32 - 1))) :
    ∃ events c, ((start url options).run events).channels[0]? = some c ∧
      c.options.reconnectDelay = delay ∧ c.options.maxAttempts = limit ∧
      delay.HasRoom ((start url options).run events).feed.now ∧ c.phase ≠ .broken ∧
      (c.turn ((start url options).run events).feed .stateFirst).1.phase = .broken := by
  rcases Nat.eq_zero_or_pos delay.milliseconds.toNat with hzero | hdelay
  · obtain ⟨hnow, -, -, c, hc, ho, hp, -⟩ := bereft_spec url options delay limit
    refine ⟨_, c, hc, by rw [ho], by rw [ho], ?_, by rw [hp]; nofun,
      phase_turn_bereft hzero hlimit hc⟩
    rw [hnow]
    exact hroom.of_le (Nat.zero_le _)
  · have hmany : 1 ≤ twoTo 32 - 1 := by decide
    have hsome : 0 < limit.toNat := by omega
    obtain ⟨hnow, -, -, c, hc, ho, hp⟩ :=
      overdue_spec url options hdelay hsome (hroom.of_le (Nat.zero_le _))
        (delay.milliseconds.toNat * (twoTo 32 - 1))
    exact ⟨_, c, hc, by rw [ho], by rw [ho], by rwa [hnow], by rw [hp]; nofun,
      phase_turn_overdue hdelay hlimit (Nat.le_refl _) hroom hc⟩

/-- **Which delays and limits are sound.** The episodes of all channels with a delay and a
limit are sound, in every run and while the clock has room for two delays, if and only if the
limit is less than `2 ^ 32 - 1` or the clock ends before as many delays, and the two there is
room for, have gone by. -/
theorem episodes_settle_iff (delay : Delay) (limit : UInt32) :
    (∀ (url : String) (options : ChannelOptions) (events : List SessionEvent) (i : Nat)
      (c : Channel), ((start url options).run events).channels[i]? = some c →
        c.options.reconnectDelay = delay → c.options.maxAttempts = limit →
        delay.HasRoom ((start url options).run events).feed.now →
        SettlesEpisodes ((start url options).run events) i c) ↔
      (limit.toNat = twoTo 32 - 1 →
        ¬delay.HasRoom (delay.milliseconds.toNat * (twoTo 32 - 1))) := by
  constructor
  · intro hsound hlimit hroom
    obtain ⟨events, c, hc, hd, hl, hnow, hwhole, hbroken⟩ := exists_broken hlimit hroom
    exact (hsound "" {} events 0 c hc hd hl hnow).whole .stateFirst hwhole hbroken
  · intro hcount url options events i c hc hd hl hroom
    refine settlesEpisodes_run hc (by rwa [hd]) fun hlimit => ?_
    rw [Channel.limit, hl] at hlimit
    rw [hd]
    exact hcount hlimit

/-- A channel with two attempts, whose opener wants to know, has lost its connection. -/
def bereaved : List SessionEvent :=
  let topic := Topic.orderBook "mkt_1" "/proto"
  let patience : ChannelOptions :=
    { reconnectDelay := ⟨1000⟩, maxAttempts := 2, onExhausted := true }
  [.openChannel topic (.subscribe topic.channel) patience .book, .turn 0 .stateFirst,
    .act 1 .dropDriver, .turn 0 .stateFirst]

/-- It waits for its first attempt, whose deadline is two delays after the close. When it has
a turn a third delay later, it gives up. -/
theorem episodes_settle_bereaved :
    let s := (start "ws://localhost:4010/ws" {}).run bereaved
    let more := [SessionEvent.elapse 3000]
    ∃ c, s.channels[0]? = some c ∧ c.phase = .retrying 1 ⟨0, 1, 1⟩ ∧
      c.ComesTo s.feed .stateFirst 0 1 ∧ c.options.reconnectDelay.deadline? 0 2 = some 2000 ∧
      SettlesWithin 0 0 s (more ++ [.turn 0 .stateFirst]) ∧
      (s.run (more ++ [.turn 0 .stateFirst])).channels.map (fun c => (c.phase, c.exhaustedCalls)) =
        [(.stalled, 1)] := by
  intro s more
  have hrun : s.channels[0]?.map (fun c => (c.options.reconnectDelay, c.options.maxAttempts,
      c.phase)) = some (⟨1000⟩, 2, .retrying 1 ⟨0, 1, 1⟩) := by
    decide +kernel
  have hstart : s.feed.now = 0 := by decide +kernel
  have hend : (s.run more).feed.now = 3000 := by decide +kernel
  have hafter : (s.run (more ++ [.turn 0 .stateFirst])).channels.map
      (fun c => (c.phase, c.exhaustedCalls)) = [(.stalled, 1)] := by
    decide +kernel
  obtain ⟨c, hc, heq⟩ := Option.map_eq_some_iff.1 hrun
  simp only [Prod.mk.injEq] at heq
  obtain ⟨hdelay, hlimit, hphase⟩ := heq
  have hcomes : c.ComesTo s.feed .stateFirst 0 1 := by
    refine .begins (.before hphase) ?_
    rw [Channel.limit, hlimit]
    decide
  have hsound := (episodes_settle_iff ⟨1000⟩ 2).2 (by decide) "ws://localhost:4010/ws" {}
    bereaved 0 c hc hdelay hlimit (by rw [hstart]; decide)
  refine ⟨c, hc, hphase, hcomes, ?_, ?_, hafter⟩
  · rw [(hsound.deadline .stateFirst 0 1 hcomes).2, hdelay]
    rfl
  · refine hsound.settles 1 ⟨0, 1, 1⟩ hphase more .stateFirst ?_ ?_ ?_
    · exact List.forall_mem_singleton.2 rfl
    · rw [Channel.limit, hend, hdelay, hlimit]
      decide
    · rw [hend, hdelay]
      decide

/-- Variables that ask for no delay and for as many attempts as 32 bits can count. -/
def boundless (name : String) : Option String :=
  if name = Settings.urlVariable then some "ws://localhost:4010/ws"
  else if name = Settings.delayVariable then some "0"
  else if name = Settings.attemptsVariable then some "4294967295"
  else none

/-- **The settings in them are taken, and a channel with these settings breaks down.** When it
sees that its connection has closed, it comes to the attempt numbered `2 ^ 32 - 1`, for which
there is no deadline. -/
theorem episodes_overflow :
    ∃ settings, Settings.ofVariables boundless = .ok settings ∧
      let s := (start settings.url.text (.ofSettings settings)).run
        (bereft settings.reconnectDelay settings.maxAttempts)
      ∃ c, s.channels[0]? = some c ∧ c.options = .ofSettings settings ∧ s.feed.now = 0 ∧
        (∃ t, c.ComesTo s.feed .stateFirst t (twoTo 32 - 1) ∧
          c.options.reconnectDelay.deadline? t (twoTo 32) = none) ∧
        c.phase ≠ .broken ∧ (c.turn s.feed .stateFirst).1.phase = .broken := by
  have hread : (Settings.ofVariables boundless).toOption.map
      (fun settings => (settings.reconnectDelay, settings.maxAttempts)) =
        some (⟨0⟩, 4294967295) := by
    decide +kernel
  obtain ⟨settings, hsettings, heq⟩ := Option.map_eq_some_iff.1 hread
  simp only [Prod.mk.injEq] at heq
  obtain ⟨hdelay, hlimit⟩ := heq
  have htaken : Settings.ofVariables boundless = .ok settings := by
    cases h : Settings.ofVariables boundless with
    | error e =>
      rw [h] at hsettings
      cases hsettings
    | ok found =>
      rw [h] at hsettings
      cases hsettings
      rfl
  refine ⟨settings, htaken, ?_⟩
  intro s
  obtain ⟨hnow, -, -, c, hc, ho, hp, -⟩ := bereft_spec settings.url.text (.ofSettings settings)
    settings.reconnectDelay settings.maxAttempts
  have hwhole : c.phase ≠ .broken := by
    rw [hp]
    nofun
  have hbroken : (c.turn s.feed .stateFirst).1.phase = .broken :=
    phase_turn_bereft (by rw [hdelay]; rfl) (by rw [hlimit]; rfl) hc
  obtain ⟨t, k, hcomes, hnone⟩ :=
    Channel.comesTo_of_broken (pursues_run hc .stateFirst) hwhole hbroken
  have hroom : c.options.reconnectDelay.HasRoom s.feed.now := by
    rw [ho, hdelay, hnow]
    show Delay.HasRoom ⟨0⟩ 0
    decide
  obtain rfl := hcomes.eq_of_none (pursues_run hc .stateFirst) (awaits_run hc) hroom hnone
  exact ⟨c, hc, ho, hnow, ⟨t, hcomes, hnone⟩, hwhole, hbroken⟩

end Session

end PushFeed
