import PushFeed.Proofs.Channel.Course
/-!
# Channels that wait

After its turn a channel waits for something that has not happened yet: it has seen the
connection it follows as it is, and the attempt it waits for is not due
(`OnCourse.rests_turn`). Nor does it leave a request unsent: one that follows an open
connection has asked there, if the transport takes texts and the request is valid
(`Earnest`). The former is so after each turn of its own and may cease any time later; the
latter holds at all times, as a connection that takes texts has always done so.
-/

namespace PushFeed

theorem ReadyState.eq_of_rank_eq {s t : ReadyState} (h : s.rank = t.rank) : s = t := by
  cases s <;> cases t <;> simp [rank] at h ⊢

namespace Hub

variable {h h' : Hub} {g : Nat}

/-- An open connection that takes texts has done so since it opened. -/
theorem Evolves.takesTexts (hs : h.Sound) (he : h.Evolves h') {c : Connection}
    (hc : h.find? g = some c) (hopen : ReadyState.open.rank ≤ c.state.rank)
    (ht : h'.takesTexts g = true) : h.takesTexts g = true := by
  obtain ⟨d, hd, hforward⟩ := he.forward hs hc
  rw [takesTexts_of_find? hd, Bool.and_eq_true] at ht
  have hstate : d.state = .open := (ReadyState.isOpen_iff _).1 ht.1
  have hrank : c.state.rank ≤ ReadyState.open.rank := hstate ▸ hforward.rank_le
  have hc' : c.state = .open := ReadyState.eq_of_rank_eq (Nat.le_antisymm hrank hopen)
  rw [takesTexts_of_find? hc, Bool.and_eq_true]
  exact ⟨(ReadyState.isOpen_iff _).2 hc', hforward.held ht.2⟩

end Hub

namespace Channel

variable {c d : Channel} {f : Feed} {h h' : Hub} {g k : Nat} {p : Channel × Feed}

/-! ## What a channel waits for -/

/-- What the channel waits for has not happened. -/
structure Rests (c : Channel) (f : Feed) : Prop where
  /-- It has had a turn. -/
  started : c.phase ≠ .starting
  /-- It has seen the connection it follows as that is. -/
  following : ∀ g seen, c.phase = .following g seen → f.hub.stateOf g = seen
  /-- Its next attempt is not due. -/
  retrying : ∀ k e, c.phase = .retrying k e → ∃ deadline,
    c.options.reconnectDelay.deadline? e.closedAt (k + 1) = some deadline ∧
      isDue f deadline e = false

/-- A channel that follows a connection waits for it to change. -/
theorem rests_of_following {seen : ReadyState} (hp : c.phase = .following g seen)
    (hs : f.hub.stateOf g = seen) : c.Rests f where
  started h := nomatch hp.symm.trans h
  following _ _ h := by
    cases hp.symm.trans h
    exact hs
  retrying _ _ h := nomatch hp.symm.trans h

/-- A channel that has given up, or is done, waits for nothing. -/
theorem rests_of_idle (hp : c.phase = .stalled ∨ c.phase = .ended ∨ c.phase = .broken) :
    c.Rests f := by
  refine ⟨?_, ?_, ?_⟩ <;> rcases hp with hp | hp | hp <;> rw [hp] <;> nofun

/-- Handling frames, a channel waits for the same. -/
theorem Rests.handleAll (hr : c.Rests f) : (c.handleAll f).1.Rests (c.handleAll f).2 := by
  have hun := unmoved_handleMany (c.waiting f + 1) c f
  have hstate := (quiet_handleMany (c.waiting f + 1) c f).stateOf_eq
  have hnow := (handleMany_moves (c.waiting f + 1) c f).now
  refine ⟨fun hp => ?_, fun g seen hp => ?_, fun k e hp => ?_⟩
  · exact hr.started (hun.phase_eq.symm.trans hp)
  · exact (hstate g).trans (hr.following g seen (hun.phase_eq.symm.trans hp))
  · obtain ⟨deadline, hdeadline, hdue⟩ := hr.retrying k e (hun.phase_eq.symm.trans hp)
    refine ⟨deadline, hun.options_eq ▸ hdeadline, ?_⟩
    rw [← hdue, isDue, isDue]
    exact congrArg₂ (fun now state => decide (deadline ≤ now) || ReadyState.isOpen state) hnow
      (hstate e.tracked)

/-- Asking on an open connection, a channel goes on following it. -/
theorem rests_subscribe (hp : c.phase = .following g .open) (hs : f.hub.stateOf g = .open) :
    (c.subscribe f g).1.Rests (c.subscribe f g).2 :=
  rests_of_following ((phase_subscribe c f g).trans hp) ((c.stateOf_subscribe f g g).trans hs)

theorem AttemptsEnd.rests (hp : AttemptsEnd c p) : p.1.Rests p.2 := by
  cases hp with
  | wait d f k e deadline hd hs hdeadline hdue =>
    refine ⟨nofun, nofun, fun k' e' hp => ?_⟩
    cases hp
    exact ⟨deadline, hdeadline, hdue⟩
  | breakDown => exact rests_of_idle (.inr (.inr rfl))
  | resume d f k hd hs hopen => exact rests_subscribe rfl hopen
  | giveUp => exact rests_of_idle (.inl rfl)

theorem OnCourse.rests_look (hc : c.OnCourse) (hwork : c.state.AtWork) (f : Feed) (g : Nat) :
    (c.look f g).1.Rests (c.look f g).2 := by
  have hlose := (hc.lawful.reconnect hwork f g).rests
  simp only [Channel.look]
  split <;> rename_i hstate
  · refine rests_of_following ?_ hstate
    rw [hstate, publish_eq]
  · exact rests_subscribe (by rw [hstate]) hstate
  · exact hlose
  · exact hlose

/-! ## Requests that go out -/

/-- Where the channel has found the connection open it has asked, if it could. -/
def Earnest (c : Channel) (h : Hub) : Prop :=
  ∀ g, c.phase = .following g .open → h.takesTexts g = true →
    ∀ text, c.request.text? = .ok text → c.sentOn = some g

theorem earnest_of_ne (hp : ∀ g, c.phase ≠ .following g .open) : c.Earnest h :=
  fun g h => absurd h (hp g)

/-- Whatever happens, the channel need not ask again. -/
theorem Earnest.evolves (he : c.Earnest h) (hsees : c.Sees h) (hs : h.Sound)
    (hevolves : h.Evolves h') : c.Earnest h' := by
  intro g hp htakes text ht
  obtain ⟨b, hb, hrank⟩ := hsees g .open hp
  exact he g hp (hevolves.takesTexts hs hb hrank htakes) text ht

theorem Earnest.handleAll (he : c.Earnest f.hub) :
    (c.handleAll f).1.Earnest (c.handleAll f).2.hub := by
  have hun := unmoved_handleMany (c.waiting f + 1) c f
  have hsent := sentOn_handleMany (c.waiting f + 1) c f
  have hquiet := quiet_handleMany (c.waiting f + 1) c f
  have halike := (handleMany_moves (c.waiting f + 1) c f).alike
  intro g hp htakes text ht
  refine hsent.trans (he g (hun.phase_eq.symm.trans hp) ?_ text (halike.request_eq ▸ ht))
  exact (hquiet.takesTexts_eq g).symm.trans htakes

/-- A channel that is not known to ask in vain asks on the connection it follows. -/
theorem earnest_subscribe (hp : c.phase = .following g .open) (hc : c.Accepted) (f : Feed) :
    (c.subscribe f g).1.Earnest (c.subscribe f g).2.hub := by
  intro g' hp' htakes text ht
  cases (phase_subscribe c f g).symm.trans hp' |>.symm.trans hp
  have halike := (subscribe_moves (f := f) hp).alike
  have ht' : c.request.text? = .ok text := halike.request_eq ▸ ht
  refine sentOn_subscribe ht' (hc text ht') ?_
  rw [← htakes]
  rcases (c.subscribe_cases f g).1 with hq | ⟨u, hq⟩
  · exact (hq.takesTexts_eq g).symm
  · exact ((hq.takesTexts_eq g).trans (Hub.takesTexts_queue ..)).symm

theorem AttemptsEnd.earnest (hp : AttemptsEnd c p) (hc : c.Accepted) : p.1.Earnest p.2.hub := by
  cases hp with
  | wait | breakDown | giveUp => exact earnest_of_ne nofun
  | resume d f k hd hs hopen =>
    obtain ⟨-, new, rfl, -⟩ := hd
    have hc' : Accepted { c with
        states := new ++ c.states
        phase := .following f.hub.generation .open } := hc
    exact earnest_subscribe rfl hc' _

theorem OnCourse.earnest_look (hc : c.OnCourse) (hwork : c.state.AtWork) (hacc : c.Accepted)
    (f : Feed) (g : Nat) : (c.look f g).1.Earnest (c.look f g).2.hub := by
  have hlose : (c.reconnect f g).1.Earnest (c.reconnect f g).2.hub :=
    (hc.lawful.reconnect hwork f g).earnest fun _ _ => rfl
  simp only [Channel.look]
  split <;> rename_i hstate
  · rw [hstate, publish_eq]
    exact earnest_of_ne (by simp)
  · have hacc' : Accepted { c with phase := .following g .open } := hacc
    rw [hstate]
    exact earnest_subscribe rfl hacc' f
  · exact hlose
  · exact hlose

/-! ## Channels that have given up -/

/-- A channel that has given up has published that. -/
def Outspoken (c : Channel) : Prop := c.phase = .stalled → c.state = .stalled

theorem outspoken_of_ne (hp : c.phase ≠ .stalled) : c.Outspoken := fun h => absurd h hp

theorem Move.outspoken {q : Channel × Feed} (m : Move p q) (hc : p.1.Outspoken) :
    q.1.Outspoken := by
  cases m with
  | report | ask | reject | wait | letGo => exact hc
  | await =>
    rw [publish_eq]
    exact outspoken_of_ne nofun
  | notice | lose | breakDown | resume | giveTime | force => exact outspoken_of_ne nofun
  | again hp | announce hp =>
    rw [publish_eq]
    refine outspoken_of_ne ?_
    rw [hp]
    nofun
  | send hp =>
    obtain ⟨a, ha⟩ := (attach_eq _ _ _).1
    rw [publish_eq, ha]
    refine outspoken_of_ne ?_
    rw [requested, hp]
    nofun
  | stall => exact fun _ => state_publish _ .stalled
  | take =>
    obtain ⟨_, _, _, _, heq⟩ := handleFrame_eq _ _ _
    rw [heq]
    exact hc

/-! ## Turns -/

/-- What holds of a turn if it holds however the turn ends: with the frames that wait, with
attempts or with nothing, where the connection has not changed, and else with a look at it,
which frames may precede and follow. -/
theorem OnCourse.turn_induction {P : Channel → Feed → Prop} (hc : c.OnCourse)
    (hhopeful : c.Hopeful) (first : Precedence)
    (hidle : c.phase = .stalled ∨ c.phase = .ended ∨ c.phase = .broken → P c f)
    (hseen : ∀ g seen, c.phase = .following g seen → f.hub.stateOf g = seen → P c f)
    (hattempts : ∀ p, AttemptsEnd c p → P p.1 p.2)
    (hlook : ∀ (d : Channel) (f : Feed) (g : Nat), d.OnCourse → d.state.AtWork →
      (c.Accepted → d.Accepted) → P (d.look f g).1 (d.look f g).2)
    (hframes : ∀ d f, P d f → P (d.handleAll f).1 (d.handleAll f).2) :
    P (c.turn f first).1 (c.turn f first).2 := by
  cases hp : c.phase with
  | starting =>
    simp only [Channel.turn, hp]
    refine hlook c _ _ hc ?_ id
    rw [hc.state_of_starting hp]
    trivial
  | following g seen =>
    by_cases hstate : f.hub.stateOf g = seen
    · simp only [Channel.turn, hp, if_pos hstate]
      exact hframes c f (hseen g seen hp hstate)
    · have hun := unmoved_handleMany (ahead first) c f
      have hsent := sentOn_handleMany (ahead first) c f
      have hms := handleMany_moves (ahead first) c f
      generalize hq : handleMany (ahead first) c f = q at hun hsent hms
      rw [turn_of_ne hp hstate hq]
      refine hframes _ _ (hlook q.1 q.2 g (hc.unmoved hun hsent) ?_ (hms.keep Move.accepted))
      rw [hun.state_eq]
      exact hc.atWork hhopeful hp
  | retrying k e =>
    have hstate := hc.retrying k e hp
    have hbounds := hc.lawful.bounds_of_state hstate
    rw [turn_of_retrying hp hbounds.2]
    exact hattempts _ (attempts_end _ (by omega) hc.lawful (.inl hstate))
  | stalled | ended | broken =>
    simp only [Channel.turn, hp]
    exact hidle (by simp [hp])

/-- **After its turn a channel waits.** -/
theorem OnCourse.rests_turn (hc : c.OnCourse) (hhopeful : c.Hopeful) (f : Feed)
    (first : Precedence) : (c.turn f first).1.Rests (c.turn f first).2 := by
  refine hc.turn_induction hhopeful first rests_of_idle ?_ ?_ ?_ ?_
  · exact fun g seen => rests_of_following
  · exact fun p hp => hp.rests
  · exact fun d f g hd hwork _ => hd.rests_look hwork f g
  · exact fun d f hd => hd.handleAll

/-- **After its turn a channel has asked**, if it could. -/
theorem OnCourse.earnest_turn (hc : c.OnCourse) (hhopeful : c.Hopeful) (hacc : c.Accepted)
    (he : c.Earnest f.hub) (first : Precedence) :
    (c.turn f first).1.Earnest (c.turn f first).2.hub := by
  refine hc.turn_induction (P := fun c f => c.Earnest f.hub) hhopeful first ?_ ?_ ?_ ?_ ?_
  · exact fun _ => he
  · exact fun _ _ _ _ => he
  · exact fun p hp => hp.earnest hacc
  · exact fun d f g hd hwork hkept => hd.earnest_look hwork (hkept hacc) f g
  · exact fun d f hd => hd.handleAll

/-- A channel that waits is still waiting after a turn. -/
theorem Rests.phase_turn (hr : c.Rests f) (hbounds : ∀ k e, c.phase = .retrying k e → k ≤ c.limit)
    (first : Precedence) : (c.turn f first).1.phase = c.phase := by
  cases hp : c.phase with
  | starting => exact absurd hp hr.started
  | following g seen =>
    simp only [Channel.turn, hp, if_pos (hr.following g seen hp)]
    exact (phase_handleMany ..).trans hp
  | retrying k e =>
    obtain ⟨deadline, hdeadline, hdue⟩ := hr.retrying k e hp
    rw [turn_of_retrying hp (hbounds k e hp)]
    simp only [attempts, publish_eq, hdeadline, hdue, Bool.false_eq_true, if_false]
  | stalled | ended | broken => simp only [Channel.turn, hp]

/-- An attempt that is due is behind the channel after its turn. -/
theorem le_of_attempts {k' : Nat} {e e' : Episode} {n : Nat}
    (hp : (attempts n k c f e).1.phase = .retrying k' e') : k ≤ k' := by
  induction n generalizing k c f e with
  | zero => cases hp
  | succ n ih =>
    rw [attempts] at hp
    dsimp only at hp
    split at hp
    · cases hp
    · split at hp
      · split at hp
        · rw [resume, phase_subscribe] at hp
          cases hp
        · exact Nat.le_of_succ_le (ih hp)
      · cases hp
        exact Nat.le_refl _

/-- **A channel that a turn leaves where it is** waits. -/
theorem OnCourse.rests_of_phase_turn (hc : c.OnCourse) (hhopeful : c.Hopeful)
    (hs : f.hub.Sound) (hsees : c.Sees f.hub) {first : Precedence}
    (hphase : (c.turn f first).1.phase = c.phase) : c.Rests f := by
  have hr := hc.rests_turn hhopeful f first
  refine ⟨fun hp => hr.started (hphase.trans hp), fun g seen hp => ?_, fun k e hp => ?_⟩
  · -- the connection has not gone further than where the turn has left it
    have hlater := hr.following g seen (hphase.trans hp)
    obtain ⟨b, hb, hrank⟩ := hsees g seen hp
    obtain ⟨b', hb', hforward⟩ := (c.turn_moves f first).evolves.forward hs hb
    rw [Hub.stateOf_of_find? hb'] at hlater
    rw [Hub.stateOf_of_find? hb]
    refine ReadyState.eq_of_rank_eq (Nat.le_antisymm ?_ hrank)
    rw [← hlater]
    exact hforward.rank_le
  · have hbounds := hc.lawful.bounds_of_state (hc.retrying k e hp)
    rw [turn_of_retrying hp hbounds.2, hp] at hphase
    simp only [attempts, publish_eq] at hphase
    split at hphase
    · cases hphase
    · rename_i deadline hdeadline
      refine ⟨deadline, hdeadline, Bool.eq_false_iff.2 fun hdue => ?_⟩
      rw [if_pos hdue] at hphase
      split at hphase
      · rw [resume, phase_subscribe] at hphase
        cases hphase
      · have hle := le_of_attempts hphase
        omega

/-! ## What the published state says -/

/-- **What a channel waits for**, by the state it has published. -/
inductive Stance (c : Channel) (f : Feed) : Prop
  /-- It awaits its first connection, which is on its way. -/
  | awaiting (g : Nat) (hstate : c.state = .awaitingOpen) (hp : c.phase = .following g .connecting)
      (hs : f.hub.stateOf g = .connecting)
  /-- It has asked on a connection, which is open. -/
  | subscribed (g : Nat) (hstate : c.state = .subscribed) (hp : c.phase = .following g .open)
      (hs : f.hub.stateOf g = .open) (hsent : c.sentOn = some g)
  /-- It waits for an attempt that is not due. -/
  | retrying (k : Nat) (e : Episode) (hstate : c.state = .reconnecting k)
      (hp : c.phase = .retrying k e) (hs : f.hub.stateOf e.tracked ≠ .open)
      (hnow : f.now < e.closedAt + c.options.reconnectDelay.milliseconds.toNat * (k + 1))
  /-- It has given up. -/
  | stalled (hstate : c.state = .stalled)

theorem Stance.of_awaitingOpen (h : c.Stance f) (hstate : c.state = .awaitingOpen) :
    ∃ g, c.phase = .following g .connecting ∧ f.hub.stateOf g = .connecting := by
  cases h with
  | awaiting g _ hp hs => exact ⟨g, hp, hs⟩
  | subscribed _ h | retrying _ _ h | stalled h => cases hstate.symm.trans h

theorem Stance.of_subscribed (h : c.Stance f) (hstate : c.state = .subscribed) :
    ∃ g, c.phase = .following g .open ∧ f.hub.stateOf g = .open ∧ c.sentOn = some g := by
  cases h with
  | subscribed g _ hp hs hsent => exact ⟨g, hp, hs, hsent⟩
  | awaiting _ h | retrying _ _ h | stalled h => cases hstate.symm.trans h

theorem Stance.of_reconnecting (h : c.Stance f) (hstate : c.state = .reconnecting k) :
    ∃ e, c.phase = .retrying k e ∧ f.hub.stateOf e.tracked ≠ .open ∧
      f.now < e.closedAt + c.options.reconnectDelay.milliseconds.toNat * (k + 1) := by
  cases h with
  | retrying j e h hp hs hnow =>
    cases hstate.symm.trans h
    exact ⟨e, hp, hs, hnow⟩
  | awaiting _ h | subscribed _ h | stalled h => cases hstate.symm.trans h

/-- A channel that has not given up follows a connection that may carry its frames, or waits
for an attempt. -/
theorem Stance.stalled_or (h : c.Stance f) :
    c.state = .stalled ∨
      (∃ g, c.phase = .following g (f.hub.stateOf g) ∧
        (f.hub.stateOf g = .connecting ∨ f.hub.stateOf g = .open)) ∨
      ∃ k e, c.phase = .retrying k e ∧
        f.now < e.closedAt + c.options.reconnectDelay.milliseconds.toNat * (k + 1) := by
  cases h with
  | awaiting g _ hp hs => exact .inr (.inl ⟨g, by rw [hs, hp], .inl hs⟩)
  | subscribed g _ hp hs => exact .inr (.inl ⟨g, by rw [hs, hp], .inr hs⟩)
  | retrying k e _ hp _ hnow => exact .inr (.inr ⟨k, e, hp, hnow⟩)
  | stalled hstate => exact .inl hstate

/-- **A channel that waits calls its state by its name**, if its request can go out. -/
theorem OnCourse.stance {text : String} (hc : c.OnCourse) (hhopeful : c.Hopeful)
    (houtspoken : c.Outspoken) (hr : c.Rests f) (he : c.Earnest f.hub) (hlive : c.isLive = true)
    (ht : c.request.text? = .ok text)
    (hdriven : ∀ g, c.phase = .following g .open → f.hub.stateOf g = .open →
      f.hub.takesTexts g = true) : c.Stance f := by
  cases hp : c.phase with
  | starting => exact absurd hp hr.started
  | following g seen =>
    have hstate := hr.following g seen hp
    cases seen with
    | connecting => exact .awaiting g (hc.awaiting g hp) hp hstate
    | «open» =>
      have hsent := he g hp (hdriven g hp hstate) text ht
      have hfollow := hc.following g hp
      rw [if_pos hsent] at hfollow
      exact .subscribed g hfollow hp hstate hsent
    | closing | closed => exact nomatch hhopeful g _ hp
  | retrying k e =>
    obtain ⟨deadline, hdeadline, hdue⟩ := hr.retrying k e hp
    simp only [isDue, Bool.or_eq_false_iff, decide_eq_false_iff_not, Nat.not_le] at hdue
    obtain ⟨hnow, hopen⟩ := hdue
    refine .retrying k e (hc.retrying k e hp) hp (fun hstate => ?_) ?_
    · rw [hstate] at hopen
      cases hopen
    · rw [← Delay.eq_add_of_deadline? hdeadline]
      exact hnow
  | stalled => exact .stalled (houtspoken hp)
  | ended | broken =>
    rw [isLive, hp] at hlive
    cases hlive

end Channel

end PushFeed
