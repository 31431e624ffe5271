import Mathlib.Data.List.Chain
import PushFeed.Proofs.Channel.Attempts
import PushFeed.Proofs.Channel.Abreast
/-!
# The course of a channel

What a channel publishes follows a few rules, written down as a relation between one state
and the next (`ChannelState.Leads`). A turn publishes several states at once, as many as it
makes attempts, so the rules are shown for each way the attempts can end
(`attempts_end`) and then for whole turns (`OnCourse.turn`). What carries it is that the
last state agrees with what the channel is doing: one that waits for its attempt `k` has
published just that, and one that follows a connection calls itself subscribed if and only
if it has asked there.
-/

namespace PushFeed

namespace ChannelState

/-- Whether a channel with this state has not lost a connection yet. -/
def IsFirst : ChannelState → Prop
  | .idle | .awaitingOpen | .subscribed => True
  | .disabled | .reconnecting _ | .stalled => False

/-- Whether a channel with this state is at work. -/
def AtWork : ChannelState → Prop
  | .idle | .awaitingOpen | .subscribed | .reconnecting _ => True
  | .disabled | .stalled => False

/-- **Which state may follow which**, for a channel that makes so many attempts. -/
inductive Leads (limit : Nat) : ChannelState → ChannelState → Prop
  /-- The first connection is on its way. -/
  | await : Leads limit .idle .awaitingOpen
  /-- The request has gone out on the first connection. -/
  | subscribe {s : ChannelState} (hs : s = .idle ∨ s = .awaitingOpen) : Leads limit s .subscribed
  /-- The request has gone out on another one. -/
  | resubscribe (k : Nat) : Leads limit (.reconnecting k) .subscribed
  /-- The connection has closed. -/
  | lose {s : ChannelState} (hs : s.AtWork) (hl : 0 < limit) : Leads limit s (.reconnecting 1)
  /-- An attempt has found no open connection, and there are more to make. -/
  | retry (k : Nat) (hk : k < limit) : Leads limit (.reconnecting k) (.reconnecting (k + 1))
  /-- The last attempt has found none. -/
  | giveUp : Leads limit (.reconnecting limit) .stalled
  /-- The connection has closed, and there is no attempt to make. -/
  | giveUpAtOnce {s : ChannelState} (hs : s.IsFirst) (hl : limit = 0) : Leads limit s .stalled

variable {limit k : Nat} {s t : ChannelState}

/-- Attempts are numbered from one to the limit. -/
theorem Leads.bounds (h : Leads limit s (.reconnecting k)) (hs : ∀ j, s = .reconnecting j → 1 ≤ j) :
    1 ≤ k ∧ k ≤ limit := by
  cases h with
  | lose _ hl => exact ⟨Nat.le_refl _, hl⟩
  | retry j hj =>
    have hpos := hs j rfl
    omega

theorem Leads.ne_stalled (h : Leads limit s t) : s ≠ .stalled := by
  rintro rfl
  cases h with
  | subscribe hs => rcases hs with hs | hs <;> cases hs
  | lose hs => exact hs
  | giveUpAtOnce hs => exact hs

theorem Leads.ne_idle (h : Leads limit s t) : t ≠ .idle := by
  rintro rfl
  cases h

theorem Leads.awaitingOpen (h : Leads limit s .awaitingOpen) : s = .idle := by
  cases h
  rfl

end ChannelState

open ChannelState (Leads)

namespace Channel

variable {c d : Channel} {f : Feed} {h : Hub} {g k n : Nat} {e : Episode} {p : Channel × Feed}

/-- The states of a channel in their order; at first it is idle. -/
def history (c : Channel) : List ChannelState := .idle :: c.states.reverse

/-- The same, the latest first. -/
def past (c : Channel) : List ChannelState := c.states ++ [ChannelState.idle]

/-! ## Lawful histories -/

/-- The channel has published one state after another as it may, and has told its opener
when it gave up. -/
structure Lawful (c : Channel) : Prop where
  chain : c.past.IsChain fun later earlier => Leads c.limit earlier later
  calls : c.exhaustedCalls = if c.state = .stalled then c.callsWhenStalled else 0

theorem Lawful.history (hc : c.Lawful) : c.history.IsChain (Leads c.limit) := by
  have hreverse : c.history = c.past.reverse := by
    rw [past, List.reverse_append]
    rfl
  rw [hreverse, List.isChain_reverse]
  exact hc.chain

theorem lawful_of_new (hstates : c.states = []) (hcalls : c.exhaustedCalls = 0) : c.Lawful := by
  constructor
  · rw [past, hstates]
    exact List.isChain_singleton _
  · rw [hcalls, state, hstates]
    rfl

/-- All but what a channel has published may change. -/
structure Unmoved (c d : Channel) : Prop where
  phase_eq : d.phase = c.phase
  states_eq : d.states = c.states
  options_eq : d.options = c.options
  calls_eq : d.exhaustedCalls = c.exhaustedCalls

theorem Unmoved.refl (c : Channel) : Unmoved c c := ⟨rfl, rfl, rfl, rfl⟩

theorem Unmoved.trans {c' : Channel} (h : Unmoved c d) (h' : Unmoved d c') : Unmoved c c' :=
  ⟨h'.phase_eq.trans h.phase_eq, h'.states_eq.trans h.states_eq, h'.options_eq.trans h.options_eq,
    h'.calls_eq.trans h.calls_eq⟩

theorem Unmoved.state_eq (h : Unmoved c d) : d.state = c.state := by
  rw [state, state, h.states_eq]

theorem Lawful.congr (hc : c.Lawful) (hstates : d.states = c.states)
    (hoptions : d.options = c.options) (hcalls : d.exhaustedCalls = c.exhaustedCalls) :
    d.Lawful := by
  have hstate : d.state = c.state := by rw [state, state, hstates]
  constructor
  · rw [past, hstates, limit_congr hoptions]
    exact hc.chain
  · rw [hcalls, hstate, callsWhenStalled, hoptions]
    exact hc.calls

theorem Lawful.unmoved (hc : c.Lawful) (h : Unmoved c d) : d.Lawful :=
  hc.congr h.states_eq h.options_eq h.calls_eq

theorem head?_past (c : Channel) : c.past.head? = some c.state := by
  rw [past, state]
  cases c.states <;> rfl

/-- Attempts are numbered from one to the limit. -/
theorem Lawful.bounds (hc : c.Lawful) : ∀ k, .reconnecting k ∈ c.states → 1 ≤ k ∧ k ≤ c.limit := by
  have hchain := hc.chain
  rw [past] at hchain
  generalize c.states = states at hchain
  induction states with
  | nil => exact fun k hk => nomatch hk
  | cons s states ih =>
    rw [List.cons_append] at hchain
    have hbefore := ih hchain.tail
    intro k hk
    rcases List.mem_cons.1 hk with rfl | hk
    · have hleads : Leads c.limit (states.headD .idle) (.reconnecting k) := by
        refine hchain.rel_head? ?_
        cases states <;> rfl
      refine hleads.bounds fun j hj => (hbefore j ?_).1
      cases states with
      | nil => cases hj
      | cons t states =>
        rw [List.headD_cons] at hj
        rw [hj]
        exact List.mem_cons_self
    · exact hbefore k hk

theorem mem_states_of_state {s : ChannelState} (hs : c.state = s) (hidle : s ≠ .idle) :
    s ∈ c.states := by
  cases hstates : c.states with
  | nil =>
    rw [state, hstates] at hs
    exact absurd hs.symm hidle
  | cons t rest =>
    rw [state, hstates, List.headD_cons] at hs
    rw [hs]
    exact List.mem_cons_self

theorem Lawful.bounds_of_state (hc : c.Lawful) (hs : c.state = .reconnecting k) :
    1 ≤ k ∧ k ≤ c.limit :=
  hc.bounds k (mem_states_of_state hs nofun)

theorem state_publish_cases (c : Channel) (s : ChannelState) :
    c.state = s ∧ c.publish s = c ∨ c.state ≠ s ∧ c.publish s = { c with states := s :: c.states } := by
  unfold publish
  by_cases hs : c.state = s
  · exact .inl ⟨hs, if_pos hs⟩
  · exact .inr ⟨hs, if_neg hs⟩

/-- A channel awaits its first connection before anything else. -/
theorem Lawful.awaits_first (hc : c.Lawful) {earlier later : List ChannelState}
    (heq : c.history = earlier ++ .awaitingOpen :: later) : earlier = [.idle] := by
  have hrel := List.isChain_iff_forall_rel_of_append_cons_cons.1 hc.history
  rcases List.eq_nil_or_concat earlier with rfl | ⟨before, s, rfl⟩
  · cases heq
  · have hlast : c.history = before ++ s :: .awaitingOpen :: later := by
      rw [heq]
      simp
    have hidle : s = .idle := (hrel hlast).awaitingOpen
    rcases List.eq_nil_or_concat before with rfl | ⟨before, t, rfl⟩
    · rw [hidle]
      rfl
    · -- nothing leads back to being idle
      have hmiddle : c.history = before ++ t :: s :: (.awaitingOpen :: later) := by
        rw [heq]
        simp
      exact absurd hidle (hrel hmiddle).ne_idle

/-- Giving up is the last thing a channel publishes. -/
theorem Lawful.stalled_mem_iff (hc : c.Lawful) : .stalled ∈ c.states ↔ c.state = .stalled := by
  refine ⟨fun hmem => ?_, fun hs => mem_states_of_state hs nofun⟩
  have hrel := List.isChain_iff_forall_rel_of_append_cons_cons.1 hc.chain
  obtain ⟨newer, older, heq⟩ := List.append_of_mem hmem
  rcases List.eq_nil_or_concat newer with rfl | ⟨newer, s, rfl⟩
  · rw [state, heq]
    rfl
  · have hsplit : c.past = newer ++ s :: .stalled :: (older ++ [.idle]) := by
      rw [past, heq]
      simp
    exact absurd rfl (hrel hsplit).ne_stalled

/-- One more state that may follow the last. -/
theorem Lawful.cons (hc : c.Lawful) {s : ChannelState} (hs : Leads c.limit c.state s) :
    (s :: c.past).IsChain fun later earlier => Leads c.limit earlier later := by
  refine List.IsChain.cons hc.chain fun t ht => ?_
  rw [head?_past] at ht
  cases ht
  exact hs

/-- The channel publishes a state that may follow. -/
theorem Lawful.publish (hc : c.Lawful) {s : ChannelState} (hne : s ≠ .stalled)
    (hs : c.state = s ∨ Leads c.limit c.state s) : (c.publish s).Lawful := by
  rcases c.state_publish_cases s with ⟨-, heq⟩ | ⟨hstate, heq⟩
  · rw [heq]
    exact hc
  · have hleads := hs.resolve_left hstate
    rw [heq]
    refine ⟨hc.cons hleads, ?_⟩
    have hzero := hc.calls
    rw [if_neg hleads.ne_stalled] at hzero
    exact hzero.trans (if_neg hne).symm

/-- The channel gives up when it may. -/
theorem Lawful.stall (hc : c.Lawful) (hs : Leads c.limit c.state .stalled) (f : Feed) :
    (c.stall f).1.Lawful := by
  have hzero := hc.calls
  rw [if_neg hs.ne_stalled] at hzero
  have hstates : (c.stall f).1.states = .stalled :: c.states := by
    rw [Channel.stall, publish_eq]
    exact if_neg hs.ne_stalled
  have hcalls : (c.stall f).1.exhaustedCalls = c.callsWhenStalled := by
    show c.exhaustedCalls + c.callsWhenStalled = c.callsWhenStalled
    rw [hzero, Nat.zero_add]
  have hoptions : (c.stall f).1.options = c.options := by rw [Channel.stall, publish_eq]
  constructor
  · rw [past, hstates, limit_congr hoptions]
    exact hc.cons hs
  · rw [hcalls, state, hstates, callsWhenStalled, callsWhenStalled, hoptions]
    rfl

/-! ## Channels on their course -/

/-- The state published last agrees with what the channel is doing. -/
structure OnCourse (c : Channel) : Prop where
  lawful : c.Lawful
  starting : c.phase = .starting → c.states = []
  /-- It has found its first connection on the way, -/
  awaiting : ∀ g, c.phase = .following g .connecting → c.state = .awaitingOpen
  /-- or it has asked on an open one, or tried in vain. -/
  following : ∀ g, c.phase = .following g .open →
    if c.sentOn = some g then c.state = .subscribed else c.state.AtWork ∧ c.state ≠ .subscribed
  /-- It has published which attempt it waits for. -/
  retrying : ∀ k e, c.phase = .retrying k e → c.state = .reconnecting k

/-- Nothing more is to be said of a channel that does not look at a connection. -/
theorem Lawful.onCourse (hc : c.Lawful)
    (hp : c.phase = .stalled ∨ c.phase = .ended ∨ c.phase = .broken) : c.OnCourse := by
  refine ⟨hc, ?_, ?_, ?_, ?_⟩ <;> rcases hp with hp | hp | hp <;> rw [hp] <;> nofun

/-- A new channel is on its course. -/
theorem onCourse_of_new (hp : c.phase = .starting) (hstates : c.states = [])
    (hcalls : c.exhaustedCalls = 0) : c.OnCourse where
  lawful := lawful_of_new hstates hcalls
  starting _ := hstates
  awaiting _ h := nomatch hp.symm.trans h
  following _ h := nomatch hp.symm.trans h
  retrying _ _ h := nomatch hp.symm.trans h

/-- The channel has found its first connection on the way. -/
theorem Lawful.await (hc : c.Lawful) (hp : c.phase = .following g .connecting)
    (hs : c.state = .awaitingOpen) : c.OnCourse where
  lawful := hc
  starting h := nomatch hp.symm.trans h
  awaiting _ _ := hs
  following _ h := nomatch hp.symm.trans h
  retrying _ _ h := nomatch hp.symm.trans h

/-- The channel has found a connection open. -/
theorem Lawful.follow (hc : c.Lawful) (hp : c.phase = .following g .open)
    (hs : if c.sentOn = some g then c.state = .subscribed
      else c.state.AtWork ∧ c.state ≠ .subscribed) : c.OnCourse where
  lawful := hc
  starting h := nomatch hp.symm.trans h
  awaiting _ h := nomatch hp.symm.trans h
  following _ h := by
    cases hp.symm.trans h
    exact hs
  retrying _ _ h := nomatch hp.symm.trans h

/-- The channel waits for an attempt. -/
theorem Lawful.retry (hc : c.Lawful) (hp : c.phase = .retrying k e)
    (hs : c.state = .reconnecting k) : c.OnCourse where
  lawful := hc
  starting h := nomatch hp.symm.trans h
  awaiting _ h := nomatch hp.symm.trans h
  following _ h := nomatch hp.symm.trans h
  retrying _ _ h := by
    cases hp.symm.trans h
    exact hs

theorem OnCourse.unmoved (hc : c.OnCourse) (h : Unmoved c d) (hsent : d.sentOn = c.sentOn) :
    d.OnCourse where
  lawful := hc.lawful.unmoved h
  starting hp := h.states_eq.trans (hc.starting (h.phase_eq ▸ hp))
  awaiting g hp := h.state_eq.trans (hc.awaiting g (h.phase_eq ▸ hp))
  following g hp := by
    rw [hsent, h.state_eq]
    exact hc.following g (h.phase_eq ▸ hp)
  retrying k e hp := h.state_eq.trans (hc.retrying k e (h.phase_eq ▸ hp))

/-! ## What a turn publishes -/

/-- What a channel comes to by part of a turn: it is on its course, and of the states it has
published on the way two say more. -/
structure Advance (c : Channel) (p : Channel × Feed) : Prop where
  onCourse : p.1.OnCourse
  exists_new : ∃ new, p.1.states = new ++ c.states ∧
    (.awaitingOpen ∈ new → c.phase = .starting) ∧
    (.subscribed ∈ new →
      ∃ g, p.1.phase = .following g .open ∧ p.2.hub.stateOf g = .open ∧ p.1.sentOn = some g)

/-- A channel that publishes nothing stays on its course. -/
theorem OnCourse.advance (hc : p.1.OnCourse) (hstates : p.1.states = c.states) : Advance c p :=
  ⟨hc, [], hstates, nofun, nofun⟩

/-- A channel comes to the same from any that has published the same. -/
theorem Advance.congr (ha : Advance d p) (hstates : d.states = c.states)
    (hphase : d.phase = .starting → c.phase = .starting) : Advance c p := by
  obtain ⟨hc, new, hnew, hawait, hsub⟩ := ha
  exact ⟨hc, new, hstates ▸ hnew, fun hmem => hphase (hawait hmem), hsub⟩

/-- What only shows in the mailboxes may follow. -/
theorem Advance.unmoved (ha : Advance c p) {q : Channel × Feed} (h : Unmoved p.1 q.1)
    (hsent : q.1.sentOn = p.1.sentOn) (hstate : ∀ g, q.2.hub.stateOf g = p.2.hub.stateOf g) :
    Advance c q := by
  obtain ⟨hc, new, hnew, hawait, hsub⟩ := ha
  refine ⟨hc.unmoved h hsent, new, h.states_eq.trans hnew, hawait, fun hmem => ?_⟩
  obtain ⟨g, hphase, hopen, hasked⟩ := hsub hmem
  exact ⟨g, h.phase_eq.trans hphase, (hstate g).trans hopen, hsent.trans hasked⟩

theorem unmoved_handleNext (c : Channel) (f : Feed) : Unmoved c (c.handleNext f).1 := by
  simp only [handleNext]
  split
  · exact .refl c
  · split
    · exact .refl c
    · split
      · exact .refl c
      · exact ⟨rfl, rfl, rfl, rfl⟩
      · obtain ⟨_, _, _, _, heq⟩ := handleFrame_eq _ _ _
        rw [heq]
        exact ⟨rfl, rfl, rfl, rfl⟩

theorem unmoved_handleMany (n : Nat) (c : Channel) (f : Feed) :
    Unmoved c (handleMany n c f).1 := by
  induction n generalizing c f with
  | zero => exact .refl c
  | succ n ih => exact (unmoved_handleNext c f).trans (ih _ _)

theorem Advance.handleAll (ha : Advance c p) : Advance c (p.1.handleAll p.2) :=
  ha.unmoved (unmoved_handleMany _ p.1 p.2) (sentOn_handleMany _ p.1 p.2)
    (quiet_handleMany _ p.1 p.2).stateOf_eq

/-- Asking on a connection publishes that the request has gone out, or nothing. It shows in
queues and mailboxes only. -/
theorem subscribe_cases (c : Channel) (f : Feed) (g : Nat) :
    (f.hub.Quiet (c.subscribe f g).2.hub ∨
      ∃ text, (f.hub.queue g text).Quiet (c.subscribe f g).2.hub) ∧
    ((c.subscribe f g).1.sentOn = some g ∧ Unmoved (c.publish .subscribed) (c.subscribe f g).1 ∨
      (c.subscribe f g).1.sentOn ≠ some g ∧ Unmoved c (c.subscribe f g).1) := by
  unfold subscribe
  split
  · rename_i hsent
    refine ⟨.inl (.refl _), .inl ⟨?_, .refl _⟩⟩
    rw [publish_eq]
    exact hsent
  · rename_i hsent
    split
    · exact ⟨.inl (.refl _), .inr ⟨hsent, .refl c⟩⟩
    · split
      · exact ⟨.inl (.refl _), .inr ⟨hsent, rfl, rfl, rfl, rfl⟩⟩
      · split
        · exact ⟨.inl (.refl _), .inr ⟨hsent, .refl c⟩⟩
        · rename_i f' hf
          obtain ⟨a, ha⟩ := ((c.requested g).attach_eq f' g).1
          refine ⟨.inr ⟨_, (send_eq (c := c) hf).1⟩, .inl ?_⟩
          show ((((c.requested g).attach f' g).1.publish .subscribed).sentOn = some g) ∧
            Unmoved _ (((c.requested g).attach f' g).1.publish .subscribed)
          rw [ha, publish_eq, publish_eq]
          exact ⟨rfl, rfl, rfl, rfl, rfl⟩

theorem stateOf_subscribe (c : Channel) (f : Feed) (g g' : Nat) :
    (c.subscribe f g).2.hub.stateOf g' = f.hub.stateOf g' := by
  rcases (c.subscribe_cases f g).1 with hq | ⟨text, hq⟩
  · exact hq.stateOf_eq g'
  · exact (hq.stateOf_eq g').trans Hub.stateOf_queue

/-- A channel that is at work asks on the open connection it follows. -/
theorem Lawful.subscribe (hc : c.Lawful) (hp : c.phase = .following g .open)
    (hopen : f.hub.stateOf g = .open) (hwork : c.state.AtWork) (hne : c.state ≠ .subscribed) :
    Advance c (c.subscribe f g) := by
  have hstate := c.stateOf_subscribe f g g
  obtain ⟨hsent, hun⟩ | ⟨hsent, hun⟩ := (c.subscribe_cases f g).2
  · have hleads : Leads c.limit c.state .subscribed := by
      cases hs : c.state with
      | idle => exact .subscribe (.inl rfl)
      | awaitingOpen => exact .subscribe (.inr rfl)
      | reconnecting k => exact .resubscribe k
      | subscribed => exact absurd hs hne
      | disabled | stalled =>
        rw [hs] at hwork
        exact hwork.elim
    have hphase : (c.subscribe f g).1.phase = .following g .open := (phase_subscribe ..).trans hp
    have hnew : (c.subscribe f g).1.states = .subscribed :: c.states := by
      rw [hun.states_eq, publish_eq]
      exact if_neg hne
    have hlawful := (hc.publish (by simp) (.inr hleads)).unmoved hun
    have hstate' : (c.subscribe f g).1.state = .subscribed := by
      rw [state, hnew]
      rfl
    refine ⟨hlawful.follow hphase ?_, [.subscribed], hnew, by simp,
      fun _ => ⟨g, hphase, hstate.trans hopen, hsent⟩⟩
    rw [if_pos hsent]
    exact hstate'
  · refine OnCourse.advance ((hc.unmoved hun).follow (hun.phase_eq.trans hp) ?_) hun.states_eq
    rw [if_neg hsent, hun.state_eq]
    exact ⟨hwork, hne⟩

/-! ## What attempts publish -/

/-- The channel has announced some attempts and changed nothing else. -/
def Announces (c d : Channel) : Prop :=
  d.Lawful ∧ ∃ new, d = { c with states := new ++ c.states } ∧
    ∀ s ∈ new, ∃ k, s = .reconnecting k

theorem Announces.trans {c' : Channel} (h : Announces c d) (h' : Announces d c') :
    Announces c c' := by
  obtain ⟨-, new, rfl, hnew⟩ := h
  obtain ⟨hc, more, rfl, hmore⟩ := h'
  refine ⟨hc, more ++ new, by rw [List.append_assoc], fun s hs => ?_⟩
  rcases List.mem_append.1 hs with hs | hs
  · exact hmore s hs
  · exact hnew s hs

/-- **How attempts end.** -/
inductive AttemptsEnd (c : Channel) : Channel × Feed → Prop
  /-- The next attempt is not due. -/
  | wait (d : Channel) (f : Feed) (k : Nat) (e : Episode) (deadline : Nat) (hd : Announces c d)
      (hs : d.state = .reconnecting k)
      (hdeadline : d.options.reconnectDelay.deadline? e.closedAt (k + 1) = some deadline)
      (hdue : isDue f deadline e = false) :
      AttemptsEnd c ({ d with phase := .retrying k e }, f)
  /-- The next attempt has no deadline. -/
  | breakDown (d : Channel) (f : Feed) (hd : Announces c d) :
      AttemptsEnd c ({ d with phase := .broken }, f)
  /-- An attempt finds an open connection. -/
  | resume (d : Channel) (f : Feed) (k : Nat) (hd : Announces c d) (hs : d.state = .reconnecting k)
      (hopen : f.hub.stateOf f.hub.generation = .open) :
      AttemptsEnd c (d.resume f f.hub.generation)
  /-- There is no attempt left. -/
  | giveUp (d : Channel) (f : Feed) (hd : Announces c d) (hs : Leads d.limit d.state .stalled) :
      AttemptsEnd c (d.stall f)

theorem AttemptsEnd.head (h : Announces c d) (hp : AttemptsEnd d p) : AttemptsEnd c p := by
  cases hp with
  | wait d f k e deadline hd hs hdeadline hdue =>
    exact .wait d f k e deadline (h.trans hd) hs hdeadline hdue
  | breakDown d f hd => exact .breakDown d f (h.trans hd)
  | resume d f k hd hs hopen => exact .resume d f k (h.trans hd) hs hopen
  | giveUp d f hd hs => exact .giveUp d f (h.trans hd) hs

/-- The channel may announce its attempt `k`. -/
def ReadyFor (c : Channel) (k : Nat) : Prop :=
  c.state = .reconnecting k ∨ (∃ j, k = j + 1 ∧ c.state = .reconnecting j) ∨
    k = 1 ∧ c.state.AtWork

/-- The channel announces an attempt. -/
theorem Lawful.announce (hc : c.Lawful) (hk : k ≤ c.limit) (hr : c.ReadyFor k) :
    Announces c (c.publish (.reconnecting k)) := by
  have hleads : c.state = .reconnecting k ∨ Leads c.limit c.state (.reconnecting k) := by
    rcases hr with hs | ⟨j, rfl, hs⟩ | ⟨rfl, hs⟩
    · exact .inl hs
    · rw [hs]
      exact .inr (.retry j hk)
    · exact .inr (.lose hs hk)
  refine ⟨hc.publish (by simp) hleads, ?_⟩
  rcases c.state_publish_cases (.reconnecting k) with ⟨-, heq⟩ | ⟨-, heq⟩
  · exact ⟨[], by rw [heq]; rfl, nofun⟩
  · exact ⟨[.reconnecting k], by rw [heq]; rfl, by simp⟩

/-- Without an attempt left the channel may give up. -/
theorem Lawful.leads_stalled (hc : c.Lawful) (hk : k = c.limit + 1) (hr : c.ReadyFor k) :
    Leads c.limit c.state .stalled := by
  rcases hr with hs | ⟨j, rfl, hs⟩ | ⟨rfl, hs⟩
  · have hbounds := hc.bounds_of_state hs
    omega
  · obtain rfl : j = c.limit := by omega
    rw [hs]
    exact .giveUp
  · refine .giveUpAtOnce ?_ (by omega)
    -- no attempt has been announced, as there is none
    cases hstate : c.state with
    | idle | awaitingOpen | subscribed => trivial
    | reconnecting j =>
      have hbounds := hc.bounds_of_state hstate
      omega
    | disabled | stalled =>
      rw [hstate] at hs
      exact hs

/-- **The attempts end in one of four ways**, and until then only announce themselves. -/
theorem attempts_end (n : Nat) (hn : n + k = c.limit + 1) (hc : c.Lawful) (hr : c.ReadyFor k) :
    AttemptsEnd c (attempts n k c f e) := by
  induction n generalizing k c f e with
  | zero => exact .giveUp c f ⟨hc, [], rfl, nofun⟩ (hc.leads_stalled (by omega) hr)
  | succ n ih =>
    have hannounce := hc.announce (by omega) hr
    have hstate := c.state_publish (.reconnecting k)
    have hlimit : (c.publish (.reconnecting k)).limit = c.limit :=
      limit_congr (alike_publish c _).options_eq
    refine .head hannounce ?_
    rw [attempts]
    generalize c.publish (.reconnecting k) = d at hannounce hstate hlimit
    have hself : Announces d d := ⟨hannounce.1, [], rfl, nofun⟩
    dsimp only
    split
    · exact .breakDown d f hself
    · rename_i deadline hdeadline
      split
      · split
        · rename_i hopen
          exact .resume d _ k hself hstate ((ReadyState.isOpen_iff _).1 hopen)
        · exact ih (by omega) hannounce.1 (.inr (.inl ⟨k, rfl, hstate⟩))
      · rename_i hdue
        exact .wait d f k e deadline hself hstate hdeadline (Bool.eq_false_iff.2 hdue)

/-- Announcing attempts, a channel publishes neither of the states that say more. -/
theorem Announces.advance (h : Announces c d) (ha : Advance d p) : Advance c p := by
  obtain ⟨-, new, rfl, hnew⟩ := h
  obtain ⟨hc, more, hmore, hawait, hsub⟩ := ha
  refine ⟨hc, more ++ new, by rw [hmore, List.append_assoc], fun hmem => ?_, fun hmem => ?_⟩
  · refine hawait ((List.mem_append.1 hmem).resolve_right fun hmem => ?_)
    obtain ⟨j, hj⟩ := hnew _ hmem
    cases hj
  · refine hsub ((List.mem_append.1 hmem).resolve_right fun hmem => ?_)
    obtain ⟨j, hj⟩ := hnew _ hmem
    cases hj

theorem Lawful.advance_stall (hc : c.Lawful) (hs : Leads c.limit c.state .stalled) (f : Feed) :
    Advance c (c.stall f) := by
  refine ⟨(hc.stall hs f).onCourse (.inl rfl), [.stalled], ?_, by simp, by simp⟩
  rw [Channel.stall, publish_eq]
  exact if_neg hs.ne_stalled

/-- Whatever way the attempts end, the channel is on its course. -/
theorem AttemptsEnd.advance (hp : AttemptsEnd c p) : Advance c p := by
  cases hp with
  | wait d f k e deadline hd hs =>
    have hc : Lawful { d with phase := .retrying k e } := hd.1.congr rfl rfl rfl
    exact hd.advance ((hc.retry rfl hs).advance rfl)
  | breakDown d f hd =>
    have hc : Lawful { d with phase := .broken } := hd.1.congr rfl rfl rfl
    exact hd.advance ((hc.onCourse (.inr (.inr rfl))).advance rfl)
  | resume d f k hd hs hopen =>
    have hc : Lawful { d with phase := .following f.hub.generation .open } :=
      hd.1.congr rfl rfl rfl
    have hstate : state { d with phase := .following f.hub.generation .open } = .reconnecting k := hs
    refine hd.advance (.congr (hc.subscribe rfl hopen ?_ ?_) rfl nofun)
    · rw [hstate]
      trivial
    · rw [hstate]
      nofun
  | giveUp d f hd hs => exact hd.advance (hd.1.advance_stall hs f)

/-! ## What looking publishes -/

/-- What the channel has seen of the connection it follows is not ahead of it. -/
def Sees (c : Channel) (h : Hub) : Prop :=
  ∀ g seen, c.phase = .following g seen →
    ∃ b, h.find? g = some b ∧ seen.rank ≤ b.state.rank

theorem Sees.evolves {h' : Hub} (hc : c.Sees h) (hs : h.Sound) (he : h.Evolves h') :
    c.Sees h' := by
  intro g seen hp
  obtain ⟨b, hb, hrank⟩ := hc g seen hp
  obtain ⟨b', hb', hforward⟩ := he.forward hs hb
  exact ⟨b', hb', Nat.le_trans hrank hforward.rank_le⟩

theorem Sees.rank_le (hc : c.Sees h) {seen : ReadyState} (hp : c.phase = .following g seen) :
    seen.rank ≤ (h.stateOf g).rank := by
  obtain ⟨b, hb, hrank⟩ := hc g seen hp
  rwa [Hub.stateOf_of_find? hb]

/-- A channel that does not follow a connection has seen none. -/
theorem sees_of_ne (hp : ∀ g seen, c.phase ≠ .following g seen) : c.Sees h :=
  fun g seen h => absurd h (hp g seen)

theorem sees_follow {seen : ReadyState} (hp : c.phase = .following g seen)
    (hs : h.stateOf g = seen) (hne : seen ≠ .closed) : c.Sees h := by
  intro g' seen' h'
  cases hp.symm.trans h'
  obtain ⟨b, hb⟩ := Hub.exists_of_stateOf_ne (hs ▸ hne)
  refine ⟨b, hb, ?_⟩
  rw [← hs, Hub.stateOf_of_find? hb]

theorem Move.sees {p q : Channel × Feed} (m : Move p q) (hs : p.2.hub.Sound)
    (hc : p.1.Sees p.2.hub) : q.1.Sees q.2.hub := by
  have he := hc.evolves hs m.evolves
  cases m with
  | report | ask | reject | wait | letGo => exact he
  | again | announce =>
    rw [publish_eq]
    exact he
  | await _ hstate =>
    rw [publish_eq]
    exact sees_follow rfl hstate (by simp)
  | notice _ hstate | resume _ _ _ hstate => exact sees_follow rfl hstate (by simp)
  | send hp =>
    obtain ⟨a, ha⟩ := (attach_eq _ _ _).1
    rw [publish_eq, ha]
    exact he
  | lose | breakDown | giveTime | force | stall => exact sees_of_ne (by simp [Channel.stall])
  | take =>
    exact fun g seen hp => he g seen (by rwa [phase_handleFrame] at hp)

theorem Moves.sees {p q : Channel × Feed} (ms : Moves p q) (hs : p.2.hub.Sound)
    (hc : p.1.Sees p.2.hub) : q.1.Sees q.2.hub := by
  induction ms with
  | refl => exact hc
  | tail hto m ih => exact m.sees ((Moves.evolves hto).sound hs) ih

/-- A channel that loses its connection begins with its attempts. -/
theorem Lawful.reconnect (hc : c.Lawful) (hwork : c.state.AtWork) (f : Feed) (g : Nat) :
    AttemptsEnd { c with attached := none, sentOn := none, rejectedOn := none }
      (c.reconnect f g) := by
  simp only [Channel.reconnect, (c.detach_eq f).1]
  exact attempts_end _ rfl (hc.congr rfl rfl rfl) (.inr (.inr ⟨rfl, hwork⟩))

/-- A channel that has had no turn is idle. -/
theorem OnCourse.state_of_starting (hc : c.OnCourse) (hp : c.phase = .starting) :
    c.state = .idle := by
  rw [state, hc.starting hp]
  rfl

/-- Looking at a connection, a channel that is at work stays on its course. It finds only
its first connection on the way. -/
theorem OnCourse.look (hc : c.OnCourse) (hwork : c.state.AtWork)
    (hawait : f.hub.stateOf g = .connecting → c.phase = .starting)
    (hopen : f.hub.stateOf g = .open → c.state ≠ .subscribed) : Advance c (c.look f g) := by
  have hlose : Advance c (c.reconnect f g) :=
    (hc.lawful.reconnect hwork f g).advance.congr rfl id
  simp only [Channel.look]
  split <;> rename_i hstate
  · have hstart := hawait hstate
    have hidle := hc.state_of_starting hstart
    have hleads : Leads c.limit c.state .awaitingOpen := by
      rw [hidle]
      exact .await
    have hlawful := hc.lawful.publish (by simp) (.inr hleads)
    rw [hstate, publish_phase]
    refine ⟨Lawful.await (hlawful.congr rfl rfl rfl) rfl (c.state_publish .awaitingOpen),
      [.awaitingOpen], ?_, fun _ => hstart, by simp⟩
    rw [publish_eq]
    exact if_neg (by simp [hidle])
  · have hlawful : Lawful { c with phase := .following g .open } := hc.lawful.congr rfl rfl rfl
    rw [hstate]
    refine (hlawful.subscribe rfl hstate hwork (hopen hstate)).congr rfl fun hp => ?_
    cases hp
  · exact hlose
  · exact hlose

/-- A channel that has seen its connection open is at work. -/
theorem OnCourse.atWork (hc : c.OnCourse) (hhopeful : c.Hopeful) {seen : ReadyState}
    (hp : c.phase = .following g seen) : c.state.AtWork := by
  cases seen with
  | connecting =>
    rw [hc.awaiting g hp]
    trivial
  | «open» =>
    have hfollow := hc.following g hp
    split at hfollow
    · rw [hfollow]
      trivial
    · exact hfollow.1
  | closing | closed => exact nomatch hhopeful g _ hp

/-- The turn of a channel that waits for an attempt begins with that one. -/
theorem turn_of_retrying (hp : c.phase = .retrying k e) (hk : k ≤ c.limit) (f : Feed)
    (first : Precedence) : c.turn f first = attempts (c.limit - k + 1) k c f e := by
  have hleft : c.options.maxAttempts.toNat + 1 - k = c.limit - k + 1 := by
    unfold limit at hk ⊢
    omega
  simp only [Channel.turn, hp, hleft]

/-- **A turn keeps a channel on its course.** -/
theorem OnCourse.turn (hc : c.OnCourse) (hhopeful : c.Hopeful) (hsees : c.Sees f.hub)
    (first : Precedence) : Advance c (c.turn f first) := by
  cases hp : c.phase with
  | starting =>
    have hidle := hc.state_of_starting hp
    simp only [Channel.turn, hp]
    refine hc.look ?_ (fun _ => hp) fun _ => ?_
    · rw [hidle]
      trivial
    · simp [hidle]
  | following g seen =>
    by_cases hseen : f.hub.stateOf g = seen
    · simp only [Channel.turn, hp, if_pos hseen]
      exact (hc.advance rfl : Advance c (c, f)).handleAll
    · have hun := unmoved_handleMany (ahead first) c f
      have hsent := sentOn_handleMany (ahead first) c f
      have hquiet := quiet_handleMany (ahead first) c f
      have hwork := hc.atWork hhopeful hp
      have hrank := hsees.rank_le hp
      generalize hq : handleMany (ahead first) c f = q at hun hsent hquiet
      rw [turn_of_ne hp hseen hq]
      rw [← hun.state_eq] at hwork
      refine (Advance.handleAll ?_).congr hun.states_eq (hun.phase_eq ▸ id)
      refine (hc.unmoved hun hsent).look hwork (fun hstate => ?_) fun hstate => ?_
      · -- it has not seen the connection further on than it is
        rw [hquiet.stateOf_eq] at hstate
        rw [hstate] at hrank hseen
        cases seen <;> simp [ReadyState.rank] at hrank hseen
      · rw [hquiet.stateOf_eq] at hstate
        rw [hstate] at hrank hseen
        obtain rfl : seen = .connecting := by
          cases seen <;> simp [ReadyState.rank] at hrank hseen ⊢
        simp [hun.state_eq, hc.awaiting g hp]
  | retrying k e =>
    have hstate := hc.retrying k e hp
    have hbounds := hc.lawful.bounds_of_state hstate
    rw [turn_of_retrying hp hbounds.2]
    exact (attempts_end _ (by omega) hc.lawful (.inl hstate)).advance
  | stalled | ended | broken =>
    simp only [Channel.turn, hp]
    exact hc.advance rfl

end Channel

end PushFeed
