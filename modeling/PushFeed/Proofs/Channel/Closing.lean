import PushFeed.Proofs.Connection.Listeners
import PushFeed.Proofs.Channel.Effect
/-!
# Frames at a close

A turn takes in all frames that wait (`handled_turn`), unless it finds the connection on
its way out. Then it lets the listener go at once, or after one frame where that comes
first, and what else waits is lost (`handled_turn_of_isTerminal`). Nothing in the rest of
such a turn makes up for it: a channel for which no frame waits takes none in, whatever
else it does (`Move.inbox_eq_nil`).
-/

namespace PushFeed

namespace Connection

variable {c : Connection} {n : Nat}

/-- The frames that wait for a listener. -/
def inbox (c : Connection) (listener : Nat) : List Wire.Bytes :=
  ((c.mailbox? listener).map (·.queue)).getD []

/-- A listener gets the oldest frame that waits for it, and no frame if none does. -/
theorem receive_cases (c : Connection) (n : Nat) :
    (∃ frame rest, c.inbox n = frame :: rest ∧ (c.receive n).1 = .ready (some frame) ∧
        (c.receive n).2.inbox n = rest) ∨
      c.inbox n = [] ∧ (∀ frame, (c.receive n).1 ≠ .ready (some frame)) ∧
        (c.receive n).2.inbox n = [] := by
  cases hm : c.mailbox? n with
  | none => exact .inr (by simp [inbox, receive, hm])
  | some m =>
    have hafter : (c.receive n).2.inbox n = m.take.2.queue := by
      cases n with
      | zero => cases hm
      | succ n =>
        have hm : c.mailboxes[n]? = some m := hm
        simp [inbox, receive, mailbox?, modifyMailbox, hm]
    have hframe : (c.receive n).1 = m.take.1 := by simp [receive, hm]
    rw [hafter, hframe]
    cases hq : m.queue with
    | nil =>
      right
      simp only [inbox, hm, Mailbox.take, hq, Option.map_some, Option.getD_some, true_and]
      refine ⟨fun frame h => ?_, trivial⟩
      split at h <;> cases h
    | cons frame rest =>
      left
      exact ⟨frame, rest, by simp [inbox, hm, hq], by simp [Mailbox.take, hq],
        by simp [Mailbox.take, hq]⟩

end Connection

namespace Channel

variable {c d : Channel} {f f' : Feed} {h h' : Hub} {g : Nat} {p q : Channel × Feed}

/-- The frames that wait for a channel. -/
def inbox (c : Channel) (h : Hub) : List Wire.Bytes :=
  match c.attached with
  | none => []
  | some a => ((h.find? a.generation).map (·.inbox a.listener)).getD []

/-- How many frames a channel has taken in, decoded or dropped. -/
def handled (c : Channel) : Nat := c.decoded + c.dropped

theorem waiting_eq (c : Channel) (f : Feed) : c.waiting f = (c.inbox f.hub).length := by
  unfold waiting inbox
  cases c.attached with
  | none => rfl
  | some a =>
    dsimp only
    cases f.hub.find? a.generation with
    | none => rfl
    | some d =>
      simp only [Option.bind_some, Option.map_some, Option.getD_some, Connection.inbox]
      cases d.mailbox? a.listener <;> rfl

theorem inbox_of_none (ha : c.attached = none) : c.inbox h = [] := by
  simp only [inbox, ha]

theorem inbox_of_find? {a : Attachment} {d : Connection} (ha : c.attached = some a)
    (hd : h.find? a.generation = some d) : c.inbox h = d.inbox a.listener := by
  simp [inbox, ha, hd]

/-- What waits for a channel depends on its listener and on the mailboxes there are. -/
theorem inbox_congr (ha : d.attached = c.attached)
    (hm : ∀ g, h'.mailboxesOf g = h.mailboxesOf g) : d.inbox h' = c.inbox h := by
  have hinbox (h : Hub) (a : Attachment) : ((h.find? a.generation).map (·.inbox a.listener)).getD [] =
      if a.listener = 0 then []
      else (((h.mailboxesOf a.generation)[a.listener - 1]?).map (·.queue)).getD [] := by
    cases hd : h.find? a.generation with
    | none => cases a.listener <;> simp [Hub.mailboxesOf, hd]
    | some d => cases a.listener <;> simp [Hub.mailboxesOf, hd, Connection.inbox, Connection.mailbox?]
  unfold inbox
  rw [ha]
  cases c.attached with
  | none => rfl
  | some a =>
    dsimp only
    rw [hinbox, hinbox, hm]

/-! ## Taking frames in -/

theorem attached_handleFrame (c : Channel) (f : Feed) (frame : Wire.Bytes) :
    (c.handleFrame f frame).1.attached = c.attached := by
  obtain ⟨_, _, _, _, heq⟩ := handleFrame_eq c f frame
  rw [heq]

/-- A frame counts once, whatever becomes of it. -/
theorem handled_handleFrame (c : Channel) (f : Feed) (frame : Wire.Bytes) :
    (c.handleFrame f frame).1.handled = c.handled + 1 := by
  unfold handleFrame
  split
  · rfl
  · split
    · show c.decoded + 1 + c.dropped = c.decoded + c.dropped + 1
      omega
    · rfl

/-- Once a listener has been asked, what waits there is what the connection keeps. -/
theorem inbox_received {a : Attachment} {e : Connection} (hd : d.attached = some a)
    (he : f.hub.find? a.generation = some e) :
    d.inbox (received f a e).hub = (e.receive a.listener).2.inbox a.listener := by
  refine inbox_of_find? hd ?_
  simp only [received, Hub.find?_modify, if_true, he, Option.map_some]

/-- Taking the next frame takes in the oldest one that waits, if one does. -/
theorem handleNext_spec (c : Channel) (f : Feed) :
    (c.handleNext f).1.inbox (c.handleNext f).2.hub = (c.inbox f.hub).drop 1 ∧
      (c.handleNext f).1.handled = c.handled + min 1 (c.inbox f.hub).length := by
  simp only [handleNext]
  split
  · rename_i ha
    simp [inbox_of_none ha]
  · rename_i a ha
    split
    · rename_i hnone
      have hnil : c.inbox f.hub = [] := by simp [inbox, ha, hnone]
      simp [hnil]
    · rename_i e he
      have hbefore := inbox_of_find? ha he
      have hafter := inbox_received ha he
      rw [hbefore]
      rcases e.receive_cases a.listener with ⟨frame, rest, hinbox, hr, hrest⟩ | ⟨hinbox, hr, hrest⟩
      · rw [hinbox]
        split <;> rename_i heq <;> rw [hr] at heq <;> cases heq
        refine ⟨?_, ?_⟩
        · rw [hub_handleFrame]
          exact (inbox_received ((attached_handleFrame ..).trans ha) he).trans hrest
        · rw [handled_handleFrame]
          simp
      · rw [hinbox]
        split
        · exact ⟨hafter.trans hrest, rfl⟩
        · exact ⟨rfl, rfl⟩
        · rename_i heq
          exact absurd heq (hr _)

theorem handleMany_spec (n : Nat) (c : Channel) (f : Feed) :
    (handleMany n c f).1.inbox (handleMany n c f).2.hub = (c.inbox f.hub).drop n ∧
      (handleMany n c f).1.handled = c.handled + min n (c.inbox f.hub).length := by
  induction n generalizing c f with
  | zero => simp [handleMany]
  | succ n ih =>
    obtain ⟨hinbox, hcount⟩ := handleNext_spec c f
    obtain ⟨hinbox', hcount'⟩ := ih (c.handleNext f).1 (c.handleNext f).2
    refine ⟨?_, ?_⟩
    · rw [handleMany, hinbox', hinbox, List.drop_drop, Nat.add_comm]
    · rw [handleMany, hcount', hcount, hinbox, List.length_drop]
      omega

/-- Taking all frames that wait leaves none behind. -/
theorem handleAll_spec (c : Channel) (f : Feed) :
    (c.handleAll f).1.inbox (c.handleAll f).2.hub = [] ∧
      (c.handleAll f).1.handled = c.handled + (c.inbox f.hub).length := by
  obtain ⟨hinbox, hcount⟩ := handleMany_spec (c.waiting f + 1) c f
  rw [waiting_eq] at hinbox hcount
  refine ⟨?_, ?_⟩
  · rw [handleAll, waiting_eq, hinbox]
    exact List.drop_eq_nil_of_le (Nat.le_succ _)
  · rw [handleAll, waiting_eq, hcount]
    omega

/-! ## Where a channel listens -/

/-- The channel listens on the connection it follows only. -/
def Moored (c : Channel) : Prop :=
  ∀ a, c.attached = some a → ∃ seen, c.phase = .following a.generation seen

theorem Moored.attached_of_phase (hc : c.Moored) (hp : ∀ g seen, c.phase ≠ .following g seen) :
    c.attached = none := by
  cases ha : c.attached with
  | none => rfl
  | some a =>
    obtain ⟨seen, hphase⟩ := hc a ha
    exact absurd hphase (hp _ _)

/-- A channel that is retrying holds no listener. -/
theorem Moored.of_retrying {c' : Channel} {k : Nat} {e : Episode} (hc : c.Moored)
    (hp : c.phase = .retrying k e) (ha : c'.attached = c.attached) : c'.Moored := by
  have hnone : c.attached = none := by
    refine hc.attached_of_phase fun g seen hf => ?_
    cases hp.symm.trans hf
  intro a hheld
  rw [ha, hnone] at hheld
  cases hheld

theorem Moored.publish (hc : c.Moored) (s : ChannelState) : (c.publish s).Moored := by
  rw [publish_eq]
  exact hc

/-- A channel that looks at a connection listens there or nowhere. -/
theorem Moored.generation_of_looksAt (hc : c.Moored) (hl : c.LooksAt f g) {a : Attachment}
    (ha : c.attached = some a) : a.generation = g := by
  obtain ⟨seen, hp⟩ := hc a ha
  rcases hl with ⟨hp', -⟩ | ⟨seen', hp'⟩ <;> rw [hp] at hp' <;> cases hp'
  rfl

theorem Moored.follow (hc : c.Moored) (hl : c.LooksAt f g) (seen : ReadyState) :
    Moored { c with phase := .following g seen } := by
  intro a ha
  rw [hc.generation_of_looksAt hl ha]
  exact ⟨seen, rfl⟩

/-- A channel that begins to listen does so on the connection in question. -/
theorem generation_attach {a : Attachment} (ha : (c.attach f g).1.attached = some a) :
    a.generation = g := by
  simp only [attach] at ha
  split at ha
  · rename_i hany
    rw [ha] at hany
    simpa using hany
  · split at ha
    · rw [(detach_eq c f).1] at ha
      cases ha
    · cases ha
      rfl

theorem Move.moored (m : Move p q) (hc : p.1.Moored) : q.1.Moored := by
  cases m with
  | report | ask | reject | wait => exact hc
  | again | announce => exact hc.publish _
  | await hp => exact (hc.follow hp _).publish _
  | notice hp => exact hc.follow hp _
  | send hp =>
    refine Moored.publish ?_ _
    intro a ha
    obtain ⟨b, hb⟩ := (attach_eq _ _ _).1
    rw [generation_attach ha, hb]
    exact ⟨.open, hp⟩
  | lose =>
    intro a ha
    rw [(detach_eq _ _).1] at ha
    cases ha
  | breakDown hp | resume hp | giveTime hp | force hp =>
    exact hc.of_retrying hp rfl
  | stall hp =>
    refine hc.of_retrying hp ?_
    rw [Channel.stall, publish_eq]
  | letGo =>
    intro a ha
    cases ha
  | take =>
    obtain ⟨_, _, _, _, heq⟩ := handleFrame_eq _ _ _
    rw [heq]
    exact hc

/-- The channel has not seen the connection it follows on its way out. -/
def Hopeful (c : Channel) : Prop := ∀ g seen, c.phase = .following g seen → seen.isTerminal = false

theorem Hopeful.publish (hc : c.Hopeful) (s : ChannelState) : (c.publish s).Hopeful := by
  rw [publish_eq]
  exact hc

theorem hopeful_of_following {seen : ReadyState} (hp : c.phase = .following g seen)
    (hseen : seen.isTerminal = false) : c.Hopeful := by
  intro g' seen' hp'
  cases hp.symm.trans hp'
  exact hseen

theorem Move.hopeful (m : Move p q) (hc : p.1.Hopeful) : q.1.Hopeful := by
  cases m with
  | report | ask | reject | wait | letGo => exact hc
  | again | announce => exact hc.publish _
  | await => exact .publish (hopeful_of_following rfl rfl) _
  | notice | resume => exact hopeful_of_following rfl rfl
  | send hp =>
    obtain ⟨a, ha⟩ := (attach_eq _ _ _).1
    refine .publish ?_ _
    rw [ha]
    exact hopeful_of_following hp rfl
  | lose | breakDown | giveTime | force | stall => exact nofun
  | take => exact fun g seen hp => hc g seen (by rwa [phase_handleFrame] at hp)

/-! ## A channel for which no frame waits -/

theorem mailboxesOf_sendText {text : String} (hf : f.sendText g text = .ok f') (g' : Nat) :
    f'.hub.mailboxesOf g' = f.hub.mailboxesOf g' := by
  obtain ⟨-, -, rfl⟩ := Feed.sendText_eq_ok hf
  simp only [Hub.mailboxesOf, Hub.queue, Hub.find?_modify]
  split
  · cases f.hub.find? g' <;> rfl
  · rfl

/-- A new listener finds nothing. -/
theorem inbox_attach (hc : c.inbox f.hub = []) : (c.attach f g).1.inbox (c.attach f g).2.hub = [] := by
  simp only [attach]
  split
  · exact hc
  · obtain ⟨hd, -⟩ := c.detach_eq f
    split
    · exact inbox_of_none (by rw [hd])
    · rename_i e he
      refine (inbox_of_find? rfl (d := e.addListener.2.1) ?_).trans ?_
      · simp only [Feed.hub_onConnection, Hub.find?_modify, if_true, he, Option.map_some]
      · simp [Connection.addListener, Connection.inbox, Connection.mailbox?]

/-- **A channel for which no frame waits takes none in**, whatever it does, and none
waits for it afterwards. -/
theorem Move.inbox_eq_nil (m : Move p q) (hs : p.2.hub.Sound) (hp : p.1.inbox p.2.hub = []) :
    q.1.inbox q.2.hub = [] ∧ q.1.handled = p.1.handled := by
  cases m with
  | report | notice | reject | breakDown | resume | giveTime => exact ⟨hp, rfl⟩
  | await | again | announce =>
    rw [publish_eq]
    exact ⟨hp, rfl⟩
  | stall =>
    rw [Channel.stall, publish_eq]
    exact ⟨hp, rfl⟩
  | ask => exact ⟨(inbox_congr rfl (hs.mailboxesOf_get false)).trans hp, rfl⟩
  | force => exact ⟨(inbox_congr rfl (hs.mailboxesOf_get true)).trans hp, rfl⟩
  | lose =>
    rw [(detach_eq _ _).1]
    exact ⟨rfl, rfl⟩
  | @send c f f' g text _ _ _ hf =>
    -- sending touches no mailbox, and the new listener finds its own empty
    have hsent : (c.requested g).inbox f'.hub = [] :=
      (inbox_congr (c := c) rfl (mailboxesOf_sendText hf)).trans hp
    have hafter := inbox_attach (g := g) hsent
    obtain ⟨⟨a, heq⟩, -⟩ := (c.requested g).attach_eq f' g
    rw [publish_eq]
    refine ⟨hafter, ?_⟩
    rw [heq]
    rfl
  | @wait c f a e ha he =>
    rcases e.receive_cases a.listener with ⟨frame, rest, hinbox, -⟩ | ⟨-, -, hafter⟩
    · rw [inbox_of_find? ha he, hinbox] at hp
      cases hp
    · exact ⟨(inbox_received ha he).trans hafter, rfl⟩
  | letGo => exact ⟨rfl, rfl⟩
  | @take c f a e frame ha he hr =>
    rcases e.receive_cases a.listener with ⟨frame, rest, hinbox, -⟩ | ⟨-, hnone, -⟩
    · rw [inbox_of_find? ha he, hinbox] at hp
      cases hp
    · exact absurd hr (hnone frame)

theorem Moves.inbox_eq_nil (ms : Moves p q) (hs : p.2.hub.Sound) (hp : p.1.inbox p.2.hub = []) :
    q.1.inbox q.2.hub = [] ∧ q.1.handled = p.1.handled := by
  induction ms with
  | refl => exact ⟨hp, rfl⟩
  | tail hto m ih =>
    obtain ⟨hinbox, hcount⟩ := ih
    obtain ⟨hinbox', hcount'⟩ := m.inbox_eq_nil ((Moves.evolves hto).sound hs) hinbox
    exact ⟨hinbox', hcount'.trans hcount⟩

/-! ## What a turn takes in -/

/-- A channel that listens on the connection goes on doing so. -/
theorem subscribe_of_attached {a : Attachment} (ha : c.attached = some a) (hg : a.generation = g) :
    (c.subscribe f g).1.attached = some a ∧ (c.subscribe f g).1.handled = c.handled ∧
      ∀ g', (c.subscribe f g).2.hub.mailboxesOf g' = f.hub.mailboxesOf g' := by
  simp only [subscribe]
  split
  · rw [publish_eq]
    exact ⟨ha, rfl, fun _ => rfl⟩
  · split
    · exact ⟨ha, rfl, fun _ => rfl⟩
    · split
      · exact ⟨ha, rfl, fun _ => rfl⟩
      · split
        · exact ⟨ha, rfl, fun _ => rfl⟩
        · rename_i f' hf
          have hstay (c : Channel) (hc : c.attached = some a) : c.attach f' g = (c, f') := by
            simp [attach, hc, hg]
          have hboxes := mailboxesOf_sendText hf
          rw [hstay { c with sentOn := some g, subscribes := c.subscribes + 1 } ha, publish_eq]
          exact ⟨ha, rfl, hboxes⟩

/-- Looking at a connection that is not on its way out costs no frame. -/
theorem look_of_not_isTerminal (hs : f.hub.Sound) (hc : c.Moored) (hl : c.LooksAt f g)
    (ht : (f.hub.stateOf g).isTerminal = false) :
    (c.look f g).1.inbox (c.look f g).2.hub = c.inbox f.hub ∧
      (c.look f g).1.handled = c.handled := by
  cases ha : c.attached with
  | none =>
    -- without a listener it may add one, for which nothing waits yet
    have hnil : c.inbox f.hub = [] := inbox_of_none ha
    rw [hnil]
    exact (look_moves hl).inbox_eq_nil hs hnil
  | some a =>
    simp only [look]
    split <;> rename_i hstate
    · rw [publish_eq]
      exact ⟨rfl, rfl⟩
    · obtain ⟨hstay, hcount, hboxes⟩ := subscribe_of_attached (f := f)
        (c := { c with phase := .following g (f.hub.stateOf g) }) ha
        (hc.generation_of_looksAt hl ha)
      exact ⟨inbox_congr (hstay.trans ha.symm) hboxes, hcount⟩
    · rw [hstate] at ht
      cases ht
    · rw [hstate] at ht
      cases ht

/-- A channel that lets a closed connection go takes no frame in, and none waits for it
afterwards. -/
theorem reconnect_spec (hs : f.hub.Sound) (hl : c.LooksAt f g)
    (ht : (f.hub.stateOf g).isTerminal = true) :
    (c.reconnect f g).1.inbox (c.reconnect f g).2.hub = [] ∧
      (c.reconnect f g).1.handled = c.handled := by
  obtain ⟨hd, hq, he⟩ := c.detach_eq f
  -- without its listener the channel does the same, so its moves can start from there
  have hsame : (c.detach f).1.reconnect (c.detach f).2 g = c.reconnect f g := by
    simp only [reconnect, detach_of_none (c := (c.detach f).1) (by rw [hd])]
  have hlooks : (c.detach f).1.LooksAt (c.detach f).2 g := by
    rw [hd]
    rcases hl with ⟨hp, hg, hpos⟩ | hp
    · exact .inl ⟨hp, hq.generation_eq.trans hg, hpos⟩
    · exact .inr hp
  rw [← hq.stateOf_eq] at ht
  rw [← hsame]
  obtain ⟨hinbox, hcount⟩ := (lose_moves hlooks ht).inbox_eq_nil (he.sound hs)
    (inbox_of_none (by rw [hd]))
  exact ⟨hinbox, hcount.trans (by rw [hd]; rfl)⟩

theorem look_of_isTerminal (ht : (f.hub.stateOf g).isTerminal = true) :
    c.look f g = c.reconnect f g := by
  simp only [look]
  split <;> rename_i hstate <;> first | rfl | (rw [hstate] at ht; cases ht)

/-- Looking for frames is quiet. -/
theorem quiet_handleNext (c : Channel) (f : Feed) : f.hub.Quiet (c.handleNext f).2.hub := by
  simp only [handleNext]
  split
  · exact .refl _
  · split
    · exact .refl _
    · rename_i e he
      split
      · exact (received_eq he).1
      · exact (received_eq he).1
      · rw [hub_handleFrame]
        exact (received_eq he).1

theorem quiet_handleMany (n : Nat) (c : Channel) (f : Feed) :
    f.hub.Quiet (handleMany n c f).2.hub := by
  induction n generalizing c f with
  | zero => exact .refl _
  | succ n ih => exact (quiet_handleNext c f).trans (ih _ _)

/-- How many frames a turn takes, if they wait, before it looks at a changed connection. -/
def ahead : Precedence → Nat
  | .stateFirst => 0
  | .frameFirst => 1

/-- The turn of a channel whose connection has changed. -/
theorem turn_of_ne {seen : ReadyState} {first : Precedence} (hp : c.phase = .following g seen)
    (hne : f.hub.stateOf g ≠ seen) (hq : handleMany (ahead first) c f = q) :
    c.turn f first = (q.1.look q.2 g).1.handleAll (q.1.look q.2 g).2 := by
  subst hq
  cases first <;> simp only [turn, hp, if_neg hne] <;> rfl

/-- **A turn takes in all frames that wait**, unless it finds that the connection has come
to be on its way out. -/
theorem handled_turn {seen : ReadyState} (hs : f.hub.Sound) (hc : c.Moored)
    (hp : c.phase = .following g seen) (first : Precedence)
    (h : f.hub.stateOf g = seen ∨ (f.hub.stateOf g).isTerminal = false) :
    (c.turn f first).1.inbox (c.turn f first).2.hub = [] ∧
      (c.turn f first).1.handled = c.handled + (c.inbox f.hub).length := by
  by_cases hseen : f.hub.stateOf g = seen
  · simp only [turn, hp, if_pos hseen]
    exact c.handleAll_spec f
  · have ht := h.resolve_left hseen
    obtain ⟨hinbox, hcount⟩ := handleMany_spec (ahead first) c f
    have hquiet := quiet_handleMany (ahead first) c f
    have hmoves := handleMany_moves (ahead first) c f
    have hphase := (phase_handleMany (ahead first) c f).trans hp
    generalize hq : handleMany (ahead first) c f = q at hinbox hcount hquiet hmoves hphase
    rw [turn_of_ne hp hseen hq]
    rw [← hquiet.stateOf_eq] at ht
    obtain ⟨hinbox', hcount'⟩ := look_of_not_isTerminal (hmoves.evolves.sound hs)
      (hmoves.keep Move.moored hc) (.inr ⟨seen, hphase⟩) ht
    obtain ⟨hnil, hcount''⟩ := (q.1.look q.2 g).1.handleAll_spec (q.1.look q.2 g).2
    refine ⟨hnil, ?_⟩
    rw [hcount'', hcount', hcount, hinbox', hinbox, List.length_drop]
    omega

/-- **A turn that finds the connection on its way out** takes in one frame where that
comes first, and loses all others that wait. -/
theorem handled_turn_of_isTerminal {seen : ReadyState} (hs : f.hub.Sound)
    (hp : c.phase = .following g seen) (first : Precedence) (hne : f.hub.stateOf g ≠ seen)
    (ht : (f.hub.stateOf g).isTerminal = true) :
    (c.turn f first).1.inbox (c.turn f first).2.hub = [] ∧
      (c.turn f first).1.handled = c.handled + min (ahead first) (c.inbox f.hub).length := by
  obtain ⟨-, hcount⟩ := handleMany_spec (ahead first) c f
  have hquiet := quiet_handleMany (ahead first) c f
  have hmoves := handleMany_moves (ahead first) c f
  have hphase := (phase_handleMany (ahead first) c f).trans hp
  generalize hq : handleMany (ahead first) c f = q at hcount hquiet hmoves hphase
  rw [turn_of_ne hp hne hq]
  rw [← hquiet.stateOf_eq] at ht
  obtain ⟨hinbox, hcount'⟩ := reconnect_spec (hmoves.evolves.sound hs) (.inr ⟨seen, hphase⟩) ht
  rw [look_of_isTerminal ht]
  obtain ⟨hnil, hcount''⟩ := (q.1.reconnect q.2 g).1.handleAll_spec (q.1.reconnect q.2 g).2
  refine ⟨hnil, ?_⟩
  rw [hcount'', hcount', hcount, hinbox]
  rfl

end Channel

end PushFeed
