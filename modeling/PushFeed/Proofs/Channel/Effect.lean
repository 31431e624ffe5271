import PushFeed.Proofs.Channel.Move
import PushFeed.Proofs.Connection.Queue
/-!
# What a move does

A move is an evolution of the hub like any other (`Move.evolves`), and a gentle one: it
neither opens a connection nor closes an open one (`Move.stateOf_eq_open_iff`). It
leaves alone what the channel was opened with (`Move.alike`). As for requests there are
three kinds of move: one sends the request, one lets a closed connection go and with it
the memory of what was sent there, and all others leave both the memory and the texts
in the queues alone (`Move.request_cases`).
-/

namespace PushFeed

namespace Feed

@[simp] theorem hub_report (f : Feed) (lines : List LogLine) : (f.report lines).hub = f.hub := rfl

@[simp] theorem hub_getConnection (f : Feed) (force : Bool) :
    (f.getConnection force).hub = (f.hub.get force).1 := rfl

theorem hub_decodeAs {α : Type} (f : Feed) (reader : Json → Except JsonFault α)
    (source typeName : String) (frame : Wire.Bytes) :
    (f.decodeAs reader source typeName frame).2.hub = f.hub := rfl

/-- What happens to a connection happens to it in the hub. -/
theorem hub_onConnection (f : Feed) (g : Nat) (change : Connection → Connection × List LogLine) :
    (f.onConnection g change).hub = f.hub.modify g fun c => (change c).1 := by
  unfold onConnection
  split
  · rename_i hc
    cases g with
    | zero => rfl
    | succ n =>
      have hn : f.hub.connections.length ≤ n := by simpa [Hub.find?_succ] using hc
      simp [Hub.modify, List.modify_eq_self hn]
  · rename_i c hc
    exact Hub.modify_congr hc rfl

/-- A text goes out on an open connection, whose queue it joins. -/
theorem sendText_eq_ok {f f' : Feed} {g : Nat} {text : String} (h : f.sendText g text = .ok f') :
    f.hub.stateOf g = .open ∧ f.hub.Step (f.hub.queue g text) ∧
      f' = { f with hub := f.hub.queue g text } := by
  unfold sendText at h
  split at h
  · cases h
  · rename_i c hc
    cases hd : c.sendText text with
    | error e => simp [hd, Except.map] at h
    | ok d =>
      obtain ⟨hopen, rfl⟩ := Connection.sendText_eq_ok hd
      simp only [hd, Except.map, Except.ok.injEq] at h
      -- queueing a text is what the action of sending comes to
      have hstep : f.hub.queue g text =
          f.hub.modify g fun c => (c.apply (.send text)).1 := by
        refine Hub.modify_congr hc ?_
        simp [Connection.apply, hd, Except.toOption]
      refine ⟨(Hub.stateOf_of_find? hc).trans hopen, hstep ▸ .act g (.send text), ?_⟩
      rw [← h]
      congr 1
      exact Hub.modify_congr hc rfl

/-- A text goes out exactly where a connection takes texts. -/
theorem exists_sendText_iff {f : Feed} {g : Nat} (text : String) :
    (∃ f', f.sendText g text = .ok f') ↔ f.hub.takesTexts g = true := by
  unfold sendText Hub.takesTexts
  cases f.hub.find? g with
  | none => simp
  | some c =>
    simp only [Option.any_some, Connection.sendText]
    cases c.state.isOpen <;> cases c.outboundHeld <;> simp [Except.map]

end Feed

namespace Channel

variable {c : Channel} {f f' : Feed} {g k : Nat} {e : Episode}

/-! ## Listeners come and go quietly -/

theorem detach_of_none (ha : c.attached = none) : c.detach f = (c, f) := by
  simp only [detach, ha]

theorem detach_eq (c : Channel) (f : Feed) :
    (c.detach f).1 = { c with attached := none } ∧ f.hub.Quiet (c.detach f).2.hub ∧
      f.hub.Evolves (c.detach f).2.hub := by
  unfold detach
  split
  · rename_i ha
    exact ⟨by rw [← ha], .refl _, .refl⟩
  · rename_i a ha
    rw [Feed.hub_onConnection]
    refine ⟨rfl, .modify _ _ fun d => ?_, .single (.act a.generation (.removeListener a.listener))⟩
    unfold Connection.removeListener
    split
    · obtain ⟨mailboxes, h, -⟩ := d.modifyMailbox_eq a.listener fun m => { m with registered := false }
      exact ⟨mailboxes, h⟩
    · exact ⟨d.mailboxes, rfl⟩

theorem attach_eq (c : Channel) (f : Feed) (g : Nat) :
    (∃ a, (c.attach f g).1 = { c with attached := a }) ∧ f.hub.Quiet (c.attach f g).2.hub ∧
      f.hub.Evolves (c.attach f g).2.hub := by
  obtain ⟨hc, hq, he⟩ := c.detach_eq f
  simp only [attach]
  split
  · exact ⟨⟨c.attached, rfl⟩, .refl _, .refl⟩
  · split
    · exact ⟨⟨none, hc⟩, hq, he⟩
    · rw [Feed.hub_onConnection]
      refine ⟨⟨some _, by rw [hc]⟩, hq.trans (.modify _ _ fun d => ⟨_, rfl⟩),
        he.tail (.act g .addListener)⟩

/-- Looking into the mailbox is what the action of receiving comes to. -/
theorem hub_received {a : Attachment} {d : Connection} (hd : f.hub.find? a.generation = some d) :
    (received f a d).hub =
      f.hub.modify a.generation fun c => (c.apply (.receive a.listener)).1 := by
  unfold received
  exact Hub.modify_congr hd rfl

/-- Looking into the mailbox is quiet. -/
theorem received_eq {a : Attachment} {d : Connection} (hd : f.hub.find? a.generation = some d) :
    f.hub.Quiet (received f a d).hub ∧ f.hub.Evolves (received f a d).hub := by
  rw [hub_received hd]
  refine ⟨.modify _ _ fun c => ?_, .single (.act a.generation (.receive a.listener))⟩
  simp only [Connection.apply, Connection.receive]
  split
  · exact ⟨c.mailboxes, rfl⟩
  · rename_i m _
    obtain ⟨mailboxes, h, -⟩ := c.modifyMailbox_eq a.listener fun _ => m.take.2
    exact ⟨mailboxes, h⟩

@[simp] theorem hub_handleFrame (c : Channel) (f : Feed) (frame : Wire.Bytes) :
    (c.handleFrame f frame).2.hub = f.hub := by
  have hd := f.hub_decodeAs (Message.ofJson c.kind) c.topic.source c.topic.typeName frame
  unfold handleFrame
  split
  · rfl
  · split <;> rename_i heq <;> rw [heq] at hd <;> exact hd

/-- Sending is a quiet change after the text has joined the queue. -/
theorem send_eq {c : Channel} {f f' : Feed} {g : Nat} {text : String}
    (hf : f.sendText g text = .ok f') :
    (f.hub.queue g text).Quiet ((c.requested g).attach f' g).2.hub ∧
      f.hub.Evolves ((c.requested g).attach f' g).2.hub := by
  obtain ⟨-, hstep, rfl⟩ := Feed.sendText_eq_ok hf
  obtain ⟨-, hq, he⟩ := (c.requested g).attach_eq { f with hub := f.hub.queue g text } g
  exact ⟨hq, .head hstep he⟩

/-! ## Moves and the hub -/

variable {p q : Channel × Feed}

/-- What every move keeps of a channel, a chain of them keeps. -/
theorem Moves.keep {P : Channel → Prop} (ms : Moves p q)
    (hmove : ∀ {p q : Channel × Feed}, Move p q → P p.1 → P q.1) (hp : P p.1) : P q.1 := by
  induction ms with
  | refl => exact hp
  | tail _ m ih => exact hmove m ih

/-- **A move is an evolution of the hub.** -/
theorem Move.evolves (m : Move p q) : p.2.hub.Evolves q.2.hub := by
  cases m with
  | report | await | notice | again | reject | announce | breakDown | resume | giveTime | stall =>
    exact .refl
  | ask => exact .single (.get false)
  | force => exact .single (.get true)
  | lose => exact (detach_eq _ _).2.2.tail (.get false)
  | wait _ hc => exact (received_eq hc).2
  | letGo _ hc => exact (received_eq hc).2
  | take _ hc =>
    rw [hub_handleFrame]
    exact (received_eq hc).2
  | send _ _ _ hf => exact (send_eq hf).2

theorem Moves.evolves (ms : Moves p q) : p.2.hub.Evolves q.2.hub := by
  induction ms with
  | refl => exact .refl
  | tail _ m ih => exact ih.trans m.evolves

/-- Within a turn no connection opens, and none that is open closes. -/
theorem Move.stateOf_eq_open_iff (m : Move p q) (hs : p.2.hub.Sound) (g : Nat) :
    q.2.hub.stateOf g = .open ↔ p.2.hub.stateOf g = .open := by
  cases m with
  | report | await | notice | again | reject | announce | breakDown | resume | giveTime | stall =>
    exact Iff.rfl
  | ask => exact hs.stateOf_get_eq_open_iff false (by simp) g
  | force _ _ _ hopen _ => exact hs.stateOf_get_eq_open_iff true (fun _ => hopen) g
  | lose =>
    obtain ⟨-, hq, he⟩ := detach_eq _ _
    rw [Feed.hub_getConnection, (he.sound hs).stateOf_get_eq_open_iff false (by simp), hq.stateOf_eq]
  | wait _ hc => rw [(received_eq hc).1.stateOf_eq]
  | letGo _ hc => rw [(received_eq hc).1.stateOf_eq]
  | take _ hc => rw [hub_handleFrame, (received_eq hc).1.stateOf_eq]
  | send _ _ _ hf => rw [(send_eq hf).1.stateOf_eq, Hub.stateOf_queue]

theorem Moves.stateOf_eq_open_iff (ms : Moves p q) (hs : p.2.hub.Sound) (g : Nat) :
    q.2.hub.stateOf g = .open ↔ p.2.hub.stateOf g = .open := by
  induction ms with
  | refl => exact Iff.rfl
  | tail hto m ih => exact (m.stateOf_eq_open_iff (Moves.evolves hto |>.sound hs) g).trans ih

/-! ## What a channel was opened with -/

/-- Two channels opened with the same arguments. -/
structure Alike (c d : Channel) : Prop where
  topic_eq : d.topic = c.topic
  request_eq : d.request = c.request
  options_eq : d.options = c.options
  kind_eq : d.kind = c.kind

theorem Alike.refl (c : Channel) : Alike c c := ⟨rfl, rfl, rfl, rfl⟩

theorem Alike.symm {c d : Channel} (h : Alike c d) : Alike d c :=
  ⟨h.topic_eq.symm, h.request_eq.symm, h.options_eq.symm, h.kind_eq.symm⟩

theorem Alike.trans {c d e : Channel} (h : Alike c d) (h' : Alike d e) : Alike c e :=
  ⟨h'.topic_eq.trans h.topic_eq, h'.request_eq.trans h.request_eq,
    h'.options_eq.trans h.options_eq, h'.kind_eq.trans h.kind_eq⟩

theorem alike_publish (c : Channel) (s : ChannelState) : Alike c (c.publish s) := by
  rw [publish_eq]
  exact ⟨rfl, rfl, rfl, rfl⟩

/-- A new channel is new, or it is disabled and done. -/
theorem opened_cases (topic : Topic) (request : ClientMessage) (options : ChannelOptions)
    (kind : MessageKind) :
    (opened topic request options kind).1 = { topic, request, options, kind } ∨
      (opened topic request options kind).1 =
        { topic, request, options, kind, phase := .ended, states := [.disabled] } := by
  unfold opened
  split
  · exact .inr rfl
  · exact .inl rfl

theorem phase_opened (topic : Topic) (request : ClientMessage) (options : ChannelOptions)
    (kind : MessageKind) :
    (opened topic request options kind).1.phase = .starting ∨
      (opened topic request options kind).1.phase = .ended := by
  rcases opened_cases topic request options kind with heq | heq <;> rw [heq]
  · exact .inl rfl
  · exact .inr rfl

/-- A frame changes the stream, the counts and whether the schema has failed. -/
theorem handleFrame_eq (c : Channel) (f : Feed) (frame : Wire.Bytes) :
    ∃ messages decoded dropped schemaFailed,
      (c.handleFrame f frame).1 = { c with messages, decoded, dropped, schemaFailed } := by
  unfold handleFrame
  split
  · exact ⟨_, _, _, _, rfl⟩
  · split
    · exact ⟨_, _, _, _, rfl⟩
    · exact ⟨_, _, _, _, rfl⟩

theorem Move.alike (m : Move p q) : Alike p.1 q.1 := by
  cases m with
  | report | ask | notice | reject | breakDown | resume | giveTime | force | wait | letGo =>
    exact ⟨rfl, rfl, rfl, rfl⟩
  | await | again | announce =>
    simp only [publish_eq]
    exact ⟨rfl, rfl, rfl, rfl⟩
  | stall => exact .trans (alike_publish _ _) ⟨rfl, rfl, rfl, rfl⟩
  | lose =>
    rw [(detach_eq _ _).1]
    exact ⟨rfl, rfl, rfl, rfl⟩
  | take =>
    obtain ⟨_, _, _, _, heq⟩ := handleFrame_eq _ _ _
    rw [heq]
    exact ⟨rfl, rfl, rfl, rfl⟩
  | send =>
    obtain ⟨_, heq⟩ := (attach_eq _ _ _).1
    refine .trans ?_ (alike_publish _ _)
    rw [heq]
    exact ⟨rfl, rfl, rfl, rfl⟩

theorem Moves.alike (ms : Moves p q) : Alike p.1 q.1 := by
  induction ms with
  | refl => exact .refl _
  | tail _ m ih => exact ih.trans m.alike

/-! ## The end of a channel -/

/-- Letting the topic go queues the text for it on the open connection the request went
out on, or does nothing but write to the log. -/
theorem unsubscribe_cases (c : Channel) (f : Feed) (g : Nat) :
    (c.unsubscribe f g).hub = f.hub ∨
      c.options.unsubscribeOnClose = true ∧ c.sentOn = some g ∧
        ∃ text, (ClientMessage.unsubscribe c.topic.channel).text? = .ok text ∧
          f.sendText g text = .ok (c.unsubscribe f g) := by
  unfold unsubscribe
  split
  · rename_i hif
    cases ht : (ClientMessage.unsubscribe c.topic.channel).text? with
    | error e => exact .inl rfl
    | ok text =>
      cases hf : f.sendText g text with
      | error e =>
        left
        simp only [Except.bind, hf]
        rfl
      | ok f' =>
        right
        simp only [Except.bind, hf]
        exact ⟨hif.1, hif.2.1, text, rfl, hf⟩
  · exact .inl rfl

/-- Whether one channel has queued exactly the text that lets its topic go, on an open
connection that its request went out on. -/
def LetsGo (c : Channel) (h h' : Hub) (g : Nat) : Prop :=
  c.options.unsubscribeOnClose = true ∧ c.sentOn = some g ∧ h.stateOf g = .open ∧
    h'.stateOf g = .open ∧
      ∃ text, (ClientMessage.unsubscribe c.topic.channel).text? = .ok text ∧
        h.Adds h' g [.text text]

/-- A channel that lets go of listener and topic queues the text for that, or nothing. -/
theorem release_eq (c : Channel) (f : Feed) :
    (c.release f).1 = { c with attached := none } ∧ f.hub.Evolves (c.release f).2.hub ∧
      ∀ g, f.hub.Adds (c.release f).2.hub g [] ∨
        c.attached.isSome ∧ c.LetsGo f.hub (c.release f).2.hub g := by
  unfold release
  split
  · rename_i ha
    exact ⟨by rw [← ha], .refl, fun g => .inl (.refl _ g)⟩
  · rename_i a ha
    obtain ⟨hc, hq, he⟩ := c.detach_eq f
    generalize c.detach f = q at hc hq he
    obtain ⟨d, f'⟩ := q
    dsimp only at hc hq he ⊢
    rcases d.unsubscribe_cases f' a.generation with hhub | ⟨hopt, hsent, text, ht, hf⟩
    · rw [hhub]
      exact ⟨hc, he, fun g => .inl (hq.adds g)⟩
    · obtain ⟨hopen, hstep, hf'⟩ := Feed.sendText_eq_ok hf
      rw [hf']
      obtain ⟨b, hb⟩ := Hub.exists_of_stateOf_ne (by rw [hopen]; decide)
      refine ⟨hc, he.tail hstep, fun g => ?_⟩
      -- taking the listener off queues nothing, so the text is all there is
      have hadds := (hq.adds g).trans (Hub.adds_queue hb text g)
      by_cases heq : a.generation = g
      · subst heq
        rw [hc] at hopt hsent ht
        refine .inr ⟨by rw [ha]; rfl, hopt, hsent, ?_, ?_, text, ht, by simpa using hadds⟩
        · rw [← hq.stateOf_eq]
          exact hopen
        · exact Hub.stateOf_queue.trans hopen
      · exact .inl (by simpa [heq] using hadds)

/-- **The end of a channel** is an evolution of the hub that queues the text which lets
the topic go, or nothing. The channel is left without a listener. -/
theorem tearDown_eq (hs : f.hub.Sound) (hl : c.isLive = true) :
    (c.tearDown f).1 = { c with attached := none, phase := .ended } ∧
      f.hub.Evolves (c.tearDown f).2.hub ∧
      ∀ g, f.hub.Adds (c.tearDown f).2.hub g [] ∨
        c.attached.isSome ∧ c.LetsGo f.hub (c.tearDown f).2.hub g := by
  simp only [tearDown, hl, if_true]
  split
  · obtain ⟨hc, he, hadds⟩ := c.release_eq (f.getConnection false)
    refine ⟨by rw [hc], .head (.get false) he, fun g => ?_⟩
    have hget := f.hub.adds_get_false g
    refine (hadds g).imp hget.trans fun ⟨ha, hopt, hsent, hopen, hopen', text, ht, hmore⟩ => ?_
    have hopen := (hs.stateOf_get_eq_open_iff false (by simp) g).1 hopen
    exact ⟨ha, hopt, hsent, hopen, hopen', text, ht, hget.trans hmore⟩
  · obtain ⟨hc, he, hadds⟩ := c.release_eq f
    exact ⟨by rw [hc], he, hadds⟩

/-- A channel that is done stays as it is. -/
theorem tearDown_of_not_isLive (hl : c.isLive = false) : c.tearDown f = (c, f) := by
  simp [tearDown, hl]

end Channel

end PushFeed
