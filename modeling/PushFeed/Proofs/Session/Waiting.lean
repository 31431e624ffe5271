import PushFeed.Proofs.Channel.Waiting
import PushFeed.Proofs.Session.Abreast
import PushFeed.Proofs.Session.Course
import PushFeed.Proofs.Session.Listening
/-!
# Sessions at rest

A channel is at rest in a session if a turn would leave it where it is. So it is right
after its turn (`at_rest_of_turn`), and any event may end that. At rest it waits for what
the state it has published says, whatever the others have done meanwhile
(`truthful_at_rest`): no event is lost on it.
-/

namespace PushFeed

namespace Session

variable {url : String} {options : ChannelOptions} {events : List SessionEvent} {i : Nat}
  {c : Channel}

/-- A turn would leave the channel where it is in its work. -/
def AtRest (s : Session) (i : Nat) : Prop :=
  ∀ c ∈ s.channels[i]?, ∀ first, (c.turn s.feed first).1.phase = c.phase

instance (s : Session) (i : Nat) : Decidable (s.AtRest i) :=
  decidable_of_iff (∀ c ∈ s.channels[i]?, ∀ first ∈ [Precedence.stateFirst, .frameFirst],
      (c.turn s.feed first).1.phase = c.phase)
    ⟨fun h c hc first => h c hc first (by cases first <;> decide), fun h c hc first _ => h c hc first⟩

theorem outspoken_run (hc : ((start url options).run events).channels[i]? = some c) :
    c.Outspoken := by
  refine channel_run (fun topic request opts kind => ?_) Channel.Move.outspoken
    (fun _ _ => nofun) hc
  rcases Channel.opened_cases topic request opts kind with heq | heq <;> rw [heq] <;> exact nofun

/-- A channel that is to work still is after a turn. -/
theorem disabled_turn (d : Channel) (f : Feed) (first : Precedence) :
    (d.turn f first).1.options.disabled = d.options.disabled := by
  rw [(d.turn_moves f first).alike.options_eq]

/-- **A channel has asked where it could**, at all times. -/
theorem earnest_run (hc : ((start url options).run events).channels[i]? = some c)
    (henabled : c.options.disabled = false) :
    c.Earnest ((start url options).run events).feed.hub := by
  refine channel_hub_run (P := fun c h => c.options.disabled = false → c.Earnest h) ?_ ?_ ?_ ?_ hc
    henabled
  · intro topic request opts kind h _
    exact Channel.earnest_of_ne fun g => Channel.phase_opened_ne topic request opts kind g .open
  · intro before d first hd hearnest henabled
    rw [disabled_turn] at henabled
    exact (on_course_run hd henabled).earnest_turn (hopeful_run hd) (accepted_run hd)
      (hearnest henabled) first
  · exact fun d h _ => Channel.earnest_of_ne (by simp)
  · intro before d h hd hearnest he henabled
    exact (hearnest henabled).evolves (sees_run hd) (sound_run url options before) he

/-- **A channel is at rest after its turn.** -/
theorem at_rest_of_turn (first : Precedence)
    (henabled : ∀ c, ((start url options).run (events ++ [.turn i first])).channels[i]? = some c →
      c.options.disabled = false) :
    ((start url options).run (events ++ [.turn i first])).AtRest i := by
  intro c hc second
  have hcourse := on_course_run hc (henabled c hc)
  have hrests : c.Rests ((start url options).run (events ++ [.turn i first])).feed := by
    have henabled := henabled c hc
    rw [run_concat, step] at hc ⊢
    rcases onChannel_cases hc with ⟨-, d, hd, heq⟩ | ⟨hne, -⟩
    · obtain rfl := congrArg Prod.fst heq
      rw [disabled_turn] at henabled
      have hturn := (on_course_run hd henabled).rests_turn (hopeful_run hd)
        ((start url options).run events).feed first
      rwa [← heq] at hturn
    · exact absurd rfl hne
  refine hrests.phase_turn (fun k e hp => ?_) second
  exact (hcourse.lawful.bounds_of_state (hcourse.retrying k e hp)).2

/-- What a channel at rest waits for has not happened. -/
theorem AtRest.rests (hrest : ((start url options).run events).AtRest i)
    (hc : ((start url options).run events).channels[i]? = some c)
    (henabled : c.options.disabled = false) :
    c.Rests ((start url options).run events).feed :=
  (on_course_run hc henabled).rests_of_phase_turn (hopeful_run hc) (sound_run url options events)
    (sees_run hc) (hrest c hc .stateFirst)

/-- **What a channel at rest has published is true**, whatever has happened in the session.
A channel that is to work, was not torn down and has a valid request, on a connection whose
transport takes texts,

* awaits its connection only while that is on its way,
* calls itself subscribed only while it follows an open connection, the newest of all, on
  which its request went out; its listener is on that connection's list, unless somebody
  outside has taken it off there,
* is about to make an attempt only while the connection it waits for is not open and the
  attempt is not due.

So one that has not given up follows a connection that is on its way or open, or waits for
an attempt. -/
theorem truthful_at_rest (url : String) (options : ChannelOptions) (events : List SessionEvent)
    (i : Nat) (c : Channel) (text : String)
    (hc : ((start url options).run events).channels[i]? = some c)
    (henabled : c.options.disabled = false) (hlive : c.isLive = true)
    (ht : c.request.text? = .ok text) (hrest : ((start url options).run events).AtRest i)
    (hdriven : ∀ g, c.phase = .following g .open →
      ((start url options).run events).feed.hub.stateOf g = .open →
      ((start url options).run events).feed.hub.takesTexts g = true) :
    let f := ((start url options).run events).feed
    (c.state = .awaitingOpen →
      ∃ g, c.phase = .following g .connecting ∧ f.hub.stateOf g = .connecting) ∧
    (c.state = .subscribed →
      ∃ g, c.phase = .following g .open ∧ f.hub.stateOf g = .open ∧ f.hub.generation = g ∧
        c.sentOn = some g ∧
        ((start url options).UndisturbedOn i g events →
          ∃ n, c.attached = some ⟨g, n⟩ ∧ f.hub.lists ⟨g, n⟩ = true)) ∧
    (∀ k, c.state = .reconnecting k →
      ∃ e, c.phase = .retrying k e ∧ f.hub.stateOf e.tracked ≠ .open ∧
        f.now < e.closedAt + c.options.reconnectDelay.milliseconds.toNat * (k + 1)) ∧
    (c.state = .stalled ∨
      (∃ g, c.phase = .following g (f.hub.stateOf g) ∧
        (f.hub.stateOf g = .connecting ∨ f.hub.stateOf g = .open)) ∨
      ∃ k e, c.phase = .retrying k e ∧
        f.now < e.closedAt + c.options.reconnectDelay.milliseconds.toNat * (k + 1)) := by
  intro f
  have hs := sound_run url options events
  have hstance : c.Stance f := (on_course_run hc henabled).stance (hopeful_run hc)
    (outspoken_run hc) (hrest.rests hc henabled) (earnest_run hc henabled) hlive ht hdriven
  refine ⟨hstance.of_awaitingOpen, fun hstate => ?_, fun k => hstance.of_reconnecting,
    hstance.stalled_or⟩
  obtain ⟨g, hp, hopen, hsent⟩ := hstance.of_subscribed hstate
  refine ⟨g, hp, hopen, ?_, hsent, fun hu => ?_⟩
  · -- all others are on their way out
    by_contra hne
    have hterminal := hs.isTerminal_of_ne (Ne.symm hne)
    rw [hopen] at hterminal
    cases hterminal
  · have htied := tied_run hu hc
    obtain ⟨n, hn⟩ := htied.asked (by rw [hp]; nofun) hsent
    exact ⟨n, hn, (htied.holds n hn).lists⟩

/-- A channel asks on its connection. Somebody forces the next one, and the channel waits for
its first attempt until that one opens. -/
def replaced : List SessionEvent :=
  let topic := Topic.orderBook "mkt_1" "/proto"
  [.openChannel topic (.subscribe topic.channel) {} .book, .turn 0 .stateFirst, .act 1 .markOpen,
    .turn 0 .stateFirst, .getConnection true, .turn 0 .stateFirst, .act 2 .markOpen,
    .turn 0 .stateFirst]

theorem truthful_at_rest_replaced :
    let s := (start "ws://localhost:4010/ws" {}).run replaced
    ∃ c text, s.channels[0]? = some c ∧ c.options.disabled = false ∧ c.isLive = true ∧
      c.request.text? = .ok text ∧ s.AtRest 0 ∧ s.feed.hub.takesTexts 2 = true ∧
      c.history = [.idle, .awaitingOpen, .subscribed, .reconnecting 1, .subscribed] ∧
      s.feed.hub.stateOf 2 = .open ∧
      ∃ n, c.attached = some ⟨2, n⟩ ∧ s.feed.hub.lists ⟨2, n⟩ = true := by
  intro s
  have hrun : s.channels[0]?.map (fun c =>
      (c.options.disabled, c.isLive, c.request.text?.toOption.isSome, c.phase, c.state)) =
        some (false, true, true, .following 2 .open, .subscribed) := by
    decide +kernel
  have hhistory : ∀ c ∈ s.channels[0]?,
      c.history = [.idle, .awaitingOpen, .subscribed, .reconnecting 1, .subscribed] := by
    decide +kernel
  have hrest : s.AtRest 0 := by decide +kernel
  have htakes : s.feed.hub.takesTexts 2 = true := by decide +kernel
  have hu : (start "ws://localhost:4010/ws" {}).Undisturbed replaced := by
    refine undisturbed_of_forall fun e he a => ?_
    simp only [replaced, List.mem_cons, List.not_mem_nil, or_false] at he
    rcases he with rfl | rfl | rfl | rfl | rfl | rfl | rfl | rfl <;>
      simp [SessionEvent.Disturbs, ConnectionAction.Touches]
  obtain ⟨c, hc, heq⟩ := Option.map_eq_some_iff.1 hrun
  simp only [Prod.mk.injEq] at heq
  obtain ⟨henabled, hlive, hrequest, hphase, hstate⟩ := heq
  obtain ⟨text, ht⟩ : ∃ text, c.request.text? = .ok text := by
    cases ht : c.request.text? with
    | ok text => exact ⟨text, rfl⟩
    | error e =>
      rw [ht] at hrequest
      cases hrequest
  obtain ⟨-, hsubscribed, -, -⟩ := truthful_at_rest "ws://localhost:4010/ws" {} replaced 0 c text hc
    henabled hlive ht hrest fun g hp _ => by
      cases hphase.symm.trans hp
      exact htakes
  obtain ⟨g, hp, hopen, -, -, hlistens⟩ := hsubscribed hstate
  cases hphase.symm.trans hp
  exact ⟨c, text, hc, henabled, hlive, ht, hrest, htakes, hhistory c hc, hopen, hlistens (hu.on 0 2)⟩

/-- Somebody listens on one connection, a channel of prices on the next, and there the number
of the former is taken off the list. -/
def estranged : List SessionEvent :=
  let topic := Topic.marketPrice "mkt_1" "/proto"
  [.getConnection false, .act 1 .addListener, .getConnection true,
    .openChannel topic (.subscribe topic.channel) {} .price, .turn 0 .stateFirst,
    .act 2 .markOpen, .turn 0 .stateFirst, .act 2 (.removeListener 1), .turn 0 .stateFirst]

/-- A channel at rest that calls itself subscribed, on a connection that is open and takes
texts, and is attached to none. -/
theorem unattached_at_rest :
    let s := (start "ws://localhost:4010/ws" {}).run estranged
    s.channels.map (fun c => (c.options.disabled, c.isLive, c.request.text?.toOption.isSome)) =
        [(false, true, true)] ∧
      s.AtRest 0 ∧ s.feed.hub.stateOf 2 = .open ∧ s.feed.hub.takesTexts 2 = true ∧
      s.feed.hub.generation = 2 ∧
      s.channels.map (fun c => (c.state, c.phase, c.attached)) =
        [(.subscribed, .following 2 .open, none)] := by
  intro s
  refine ⟨?_, ?_, ?_, ?_, ?_, ?_⟩ <;> decide +kernel

end Session

end PushFeed
