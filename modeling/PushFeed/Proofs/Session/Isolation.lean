import Mathlib.Data.Set.Defs
import PushFeed.Proofs.Channel.Subjects
import PushFeed.Proofs.Session.Run
/-!
# Topics on a shared connection

Every frame is offered to every channel, and what keeps the streams of different topics
apart is only that a channel cannot read the frames of others. That is so for a frame of
the other kind which is not bare, and for no other frame: `isolated_iff` says that this
is exactly what it takes.

The invariant of a run (`Session.Pure`) is that schemas are the built-in ones, that what
waits in mailboxes are frames of posts, and that what a channel has in its stream it has
read from one.
-/

namespace PushFeed

open Wire

theorem Retention.mem_apply {α : Type} {r : Retention} {queue batch : List α} {a : α}
    (h : a ∈ r.apply queue batch) : a ∈ queue ∨ a ∈ batch := by
  cases r with
  | newestFirst => simpa [apply, or_comm] using h
  | arrivalOrder => simpa [apply] using h
  | keepLatest => exact .inr h

theorem Retention.mem_apply_of_mem {α : Type} {r : Retention} {queue batch : List α} {a : α}
    (h : a ∈ batch) : a ∈ r.apply queue batch := by
  cases r <;> simp [apply, h]

/-! ## What a run keeps pure -/

/-- Whether schemas are the built-in ones, and only frames of posts wait. -/
structure Feed.Pure (M : Set Post) (f : Feed) : Prop where
  faithful : f.Faithful
  posted : ∀ g, ∀ frame ∈ f.hub.waitingOn g, ∃ p ∈ M, p.frame = frame

/-- Whether a channel, if it was opened for a subject, has its schema and has read
everything in its stream from a post. -/
def Channel.Pure (M : Set Post) (c : Channel) : Prop :=
  ∀ t, c.Serves t → c.schemaFailed = false ∧ ∀ m ∈ c.messages, ∃ p ∈ M, p.readBy t = some m

variable {M : Set Post}

theorem Feed.Pure.still {f f' : Feed} (hf : f.Pure M) (h : f.Still f') : f'.Pure M :=
  ⟨h.faithful hf.faithful, fun g frame hframe => hf.posted g frame (h.waitingOn_subset g hframe)⟩

namespace Channel

variable {c d : Channel} {f : Feed} {p q : Channel × Feed}

theorem Pure.congr (hc : c.Pure M) (ha : Alike c d) (hm : d.messages = c.messages)
    (hf : d.schemaFailed = c.schemaFailed) : d.Pure M := by
  intro t ht
  rw [hm, hf]
  exact hc t (ha.serves_iff.1 ht)

/-- A new channel has nothing in its stream. -/
theorem pure_opened (topic : Topic) (request : ClientMessage) (options : ChannelOptions)
    (kind : MessageKind) : (opened topic request options kind).1.Pure M := by
  intro t _
  rcases opened_cases topic request options kind with heq | heq <;> rw [heq] <;>
    exact ⟨rfl, fun m hm => by cases hm⟩

/-- A frame of a post leaves a channel pure, whether it is read or not. -/
theorem Pure.handleFrame (hc : c.Pure M) (hf : f.Faithful) {post : Post} (hp : post ∈ M) :
    (c.handleFrame f post.frame).1.Pure M := by
  intro t ht
  have halike : Alike c (c.handleFrame f post.frame).1 := by
    obtain ⟨_, _, _, _, heq⟩ := handleFrame_eq c f post.frame
    rw [heq]
    exact ⟨rfl, rfl, rfl, rfl⟩
  have hserves := halike.serves_iff.1 ht
  obtain ⟨hschema, hmessages⟩ := hc t hserves
  cases hread : post.readBy t with
  | some m =>
    rw [handleFrame_of_ok hschema (hserves.outcome_of_readBy hf hread)]
    refine ⟨hschema, fun m' hm' => ?_⟩
    rcases Retention.mem_apply hm' with hold | hnew
    · exact hmessages m' hold
    · rw [List.mem_singleton.1 hnew]
      exact ⟨post, hp, hread⟩
  | none =>
    -- a post that is not read is refused as foreign, and by nothing worse
    obtain ⟨reason, hreason⟩ := hserves.outcome_of_isForeignTo hf (Post.readBy_eq_none_iff.1 hread)
    obtain ⟨-, -, hdrop⟩ := skips_of_foreignFrame hschema hreason
    rw [hdrop]
    exact ⟨hschema, hmessages⟩

/-- **A move keeps channel and feed pure.** -/
theorem Move.pure (m : Move p q) (hs : p.2.hub.Sound) (hc : p.1.Pure M) (hf : p.2.Pure M) :
    q.1.Pure M ∧ q.2.Pure M := by
  rcases m.stream_cases hs with ⟨hstill, hm, hfailed⟩ | ⟨f, g, frame, hstill, hframe, rfl⟩
  · exact ⟨hc.congr m.alike hm hfailed, hf.still hstill⟩
  · obtain ⟨post, hp, rfl⟩ := hf.posted g frame hframe
    have hf := hf.still hstill
    refine ⟨hc.handleFrame hf.faithful hp, faithful_handleFrame _ hf.faithful _, ?_⟩
    rw [hub_handleFrame]
    exact hf.posted

theorem Moves.pure (ms : Moves p q) (hs : p.2.hub.Sound) (hc : p.1.Pure M) (hf : p.2.Pure M) :
    q.1.Pure M ∧ q.2.Pure M := by
  induction ms with
  | refl => exact ⟨hc, hf⟩
  | tail hto m ih => exact m.pure (Moves.evolves hto |>.sound hs) ih.1 ih.2

end Channel

namespace Session

variable {s : Session} {e : SessionEvent} {events : List SessionEvent}

/-- Whether all that comes in over the connections are frames of the posts. -/
def Brings (M : Set Post) (events : List SessionEvent) : Prop :=
  ∀ g frame, .act g (.dispatch frame) ∈ events → ∃ p ∈ M, p.frame = frame

/-- Whether the feed and all channels are pure. -/
structure Pure (M : Set Post) (s : Session) : Prop where
  feed : s.feed.Pure M
  channels : ∀ c ∈ s.channels, c.Pure M

theorem pure_start (url : String) (options : ChannelOptions) : (start url options).Pure M := by
  refine ⟨⟨⟨rfl, SchemaCache.faithful_empty⟩, fun g frame hframe => ?_⟩, fun c hc => ?_⟩
  · have hnone : (start url options).feed.hub.waitingOn g = [] := by
      cases g <;> rfl
    rw [hnone] at hframe
    cases hframe
  · cases hc

/-- **An event keeps a session pure**, unless it brings something that is no post. -/
theorem Pure.step (hp : s.Pure M) (hs : s.feed.hub.Sound) (he : Brings M [e]) :
    (s.step e).Pure M := by
  cases e with
  | openChannel topic request options kind =>
    refine ⟨hp.feed.still ((Feed.Still.refl _).report _), fun c hc => ?_⟩
    rcases List.mem_append.1 hc with hc | hc
    · exact hp.channels c hc
    · obtain rfl : c = (Channel.opened topic request options kind).1 := List.mem_singleton.1 hc
      exact Channel.pure_opened topic request options kind
  | turn channel first =>
    simp only [Session.step]
    cases hc : s.channels[channel]? with
    | none =>
      rw [onChannel_of_none hc]
      exact hp
    | some c =>
      rw [onChannel_eq hc]
      obtain ⟨hturn, hfeed⟩ := (Channel.turn_moves c s.feed first).pure hs
        (hp.channels c (List.mem_of_getElem? hc)) hp.feed
      refine ⟨hfeed, fun d hd => ?_⟩
      rcases List.mem_or_eq_of_mem_set hd with hd | rfl
      · exact hp.channels d hd
      · exact hturn
  | tearDown channel =>
    simp only [Session.step]
    cases hc : s.channels[channel]? with
    | none =>
      rw [onChannel_of_none hc]
      exact hp
    | some c =>
      rw [onChannel_eq hc]
      refine ⟨hp.feed.still (c.still_tearDown hs), fun d hd => ?_⟩
      rcases List.mem_or_eq_of_mem_set hd with hd | rfl
      · exact hp.channels d hd
      · have hpure := hp.channels c (List.mem_of_getElem? hc)
        cases hl : c.isLive with
        | false =>
          rw [Channel.tearDown_of_not_isLive hl]
          exact hpure
        | true =>
          rw [(Channel.tearDown_eq hs hl).1]
          exact hpure.congr ⟨rfl, rfl, rfl, rfl⟩ rfl rfl
  | getConnection force => exact ⟨hp.feed.still (Feed.still_getConnection hs force), hp.channels⟩
  | act g a =>
    obtain ⟨hloader, hcache⟩ := s.feed.schemas_onConnection g fun c => c.apply a
    refine ⟨⟨⟨?_, ?_⟩, fun g' frame hframe => ?_⟩, hp.channels⟩
    · exact hloader.trans hp.feed.faithful.loader_eq
    · exact hcache ▸ hp.feed.faithful.cache
    · simp only [Session.step, Feed.hub_onConnection] at hframe
      -- a frame that waits has waited before, or the event has brought it
      rcases Hub.mem_waitingOn_act hframe with hold | rfl
      · exact hp.feed.posted g' frame hold
      · exact he g frame List.mem_cons_self
  | elapse => exact ⟨⟨⟨hp.feed.faithful.loader_eq, hp.feed.faithful.cache⟩, hp.feed.posted⟩, hp.channels⟩

/-- **A run that brings nothing but posts is pure.** -/
theorem pure_run (url : String) (options : ChannelOptions) (he : Brings M events) :
    ((start url options).run events).Pure M := by
  induction events using List.reverseRecOn with
  | nil => exact pure_start url options
  | append_singleton events e ih =>
    rw [run_concat]
    refine (ih fun g frame h => he g frame (List.mem_append_left _ h)).step
      (sound_run url options events) fun g frame h => he g frame (List.mem_append_right _ h)

/-! ## Isolation -/

/-- Whether a channel and the feed may be like this at some moment of a run that brings
nothing but the posts: between two events, or on the way through a turn of the channel. -/
def Occurs (M : Set Post) (c : Channel) (f : Feed) : Prop :=
  ∃ (url : String) (options : ChannelOptions) (events : List SessionEvent) (i : Nat) (c₀ : Channel),
    Brings M events ∧ ((start url options).run events).channels[i]? = some c₀ ∧
      Channel.Moves (c₀, ((start url options).run events).feed) (c, f)

/-- Whether the channels of a subject never have a message about another subject in their
streams. -/
def KeepsOwn (M : Set Post) (t : Subject) : Prop :=
  ∀ c f, Occurs M c f → c.Serves t → ∀ m ∈ c.messages, m.subject? = some t

/-- Whether the channels of a subject always skip the posts about other subjects. -/
def SkipsOthers (M : Set Post) (t : Subject) : Prop :=
  ∀ c f, Occurs M c f → c.Serves t → ∀ p ∈ M, p.subject ≠ t → c.Skips f p.frame

variable {t : Subject} {c : Channel} {f : Feed} {p : Post}

theorem Occurs.pure (h : Occurs M c f) : c.Pure M ∧ f.Pure M := by
  obtain ⟨url, options, events, i, c₀, hb, hc, hmoves⟩ := h
  have hpure := pure_run url options hb
  exact hmoves.pure (sound_run url options events)
    (hpure.channels c₀ (List.mem_of_getElem? hc)) hpure.feed

/-- What a channel has in its stream it has read from a post. -/
theorem Occurs.exists_readBy (h : Occurs M c f) (ht : c.Serves t) {m : Message}
    (hm : m ∈ c.messages) : ∃ p ∈ M, p.readBy t = some m :=
  (h.pure.1 t ht).2 m hm

theorem Occurs.skips (h : Occurs M c f) (ht : c.Serves t) (hp : p.IsForeignTo t) :
    c.Skips f p.frame := by
  obtain ⟨hchannel, hfeed⟩ := h.pure
  obtain ⟨reason, hreason⟩ := ht.outcome_of_isForeignTo hfeed.faithful hp
  exact Channel.skips_of_foreignFrame (hchannel t ht).1 hreason

/-- A channel that takes a post it can read has it in its stream. -/
theorem Occurs.take (h : Occurs M c f) (ht : c.Serves t) {a : Attachment} {d : Connection}
    (ha : c.attached = some a) (hd : f.hub.find? a.generation = some d)
    (hr : (d.receive a.listener).1 = .ready (some p.frame)) {m : Message}
    (hread : p.readBy t = some m) :
    ∃ c' f', Occurs M c' f' ∧ c'.Serves t ∧ m ∈ c'.messages := by
  obtain ⟨hchannel, hfeed⟩ := h.pure
  obtain ⟨url, options, events, i, c₀, hb, hc, hmoves⟩ := h
  have hmove := Channel.Move.take ha hd hr
  have hfaithful := (Channel.still_received hd).faithful hfeed.faithful
  refine ⟨(c.handleFrame (Channel.received f a d) p.frame).1, _,
    ⟨url, options, events, i, c₀, hb, hc, hmoves.tail hmove⟩, hmove.alike.serves_iff.2 ht, ?_⟩
  rw [Channel.handleFrame_of_ok (hchannel t ht).1 (ht.outcome_of_readBy hfaithful hread)]
  exact Retention.mem_apply_of_mem (List.mem_singleton.2 rfl)

/-! ## How a post gets into a stream -/

/-- A channel for the subject, just opened. -/
def newcomer (t : Subject) : Channel :=
  { topic := t.topic "" .keepLatest, request := .subscribe "x", options := {}, kind := t.kind }

/-- The text it asks with. -/
def newcomerText : String :=
  "\x7b\"payload\":\x7b\"type\":\"Subscribe\",\"data\":\x7b\"channel\":\"x\"\x7d\x7d\x7d"

theorem text?_newcomer : (ClientMessage.subscribe "x").text? = .ok newcomerText := by
  decide +kernel

theorem newcomer_serves (t : Subject) : (newcomer t).Serves t := ⟨rfl, "", .keepLatest, rfl⟩

/-- The channel once it listens. -/
def listener (t : Subject) : Channel :=
  { newcomer t with
    phase := .following 1 .open
    states := [.subscribed]
    attached := some ⟨1, 1⟩
    sentOn := some 1
    subscribes := 1 }

/-- The connection it listens on, with the frames that wait. -/
def lineOf (frames : List Bytes) : Connection :=
  { generation := 1, state := .open, outbound := [.text newcomerText], mailboxes := [{ queue := frames }] }

/-- A channel for the subject is opened and listens on an open connection, and a frame
comes in. -/
def delivery (t : Subject) (frame : Bytes) : List SessionEvent :=
  [.openChannel (newcomer t).topic (newcomer t).request (newcomer t).options (newcomer t).kind,
    .getConnection false, .act 1 .markOpen, .turn 0 .stateFirst, .act 1 (.dispatch frame)]

theorem turn_newcomer (t : Subject) (log : List LogLine) :
    ∃ log', (newcomer t).turn { hub := ⟨"", [{ generation := 1, state := .open }], [1]⟩, log := log }
      .stateFirst = (listener t, { hub := ⟨"", [lineOf []], [1]⟩, log := log' }) := by
  simp [newcomer, listener, lineOf, Channel.turn, Feed.getConnection, Hub.get, Feed.report,
    Channel.look, Hub.stateOf, Hub.find?, Hub.generation, Channel.subscribe, text?_newcomer,
    Feed.sendText, Connection.sendText, ReadyState.isOpen, Except.map, Hub.modify, Channel.attach,
    Channel.detach, Feed.onConnection, Connection.addListener, Channel.publish, Channel.state]

theorem run_delivery (t : Subject) (frame : Bytes) :
    ∃ log, (start "" {}).run (delivery t frame) =
      { feed := { hub := ⟨"", [{ lineOf [frame] with framesReceived := 1 }], [1]⟩, log := log }
        options := {}
        channels := [listener t] } := by
  obtain ⟨log, hopen⟩ : ∃ log, (start "" {}).run ((delivery t frame).take 3) =
      { feed := { hub := ⟨"", [{ generation := 1, state := .open }], [1]⟩, log := log }
        options := {}
        channels := [newcomer t] } := ⟨_, rfl⟩
  -- the turn in the middle depends on the subject, so it is taken by itself
  obtain ⟨log', hturn⟩ := turn_newcomer t log
  refine ⟨log' ++ [], ?_⟩
  have hsplit : delivery t frame = (delivery t frame).take 3 ++
      [.turn 0 .stateFirst, .act 1 (.dispatch frame)] := rfl
  rw [hsplit, run_append, hopen, run_cons]
  have hstep : step { feed := { hub := ⟨"", [{ generation := 1, state := .open }], [1]⟩, log := log }
                      options := {}
                      channels := [newcomer t] } (.turn 0 .stateFirst) =
      { feed := { hub := ⟨"", [lineOf []], [1]⟩, log := log' }
        options := {}
        channels := [listener t] } := by
    rw [step, onChannel_eq rfl, hturn]
    rfl
  rw [hstep]
  rfl

theorem brings_delivery (hp : p ∈ M) : Brings M (delivery t p.frame) := by
  intro g frame hmem
  simp only [delivery, List.mem_cons, SessionEvent.act.injEq, ConnectionAction.dispatch.injEq,
    reduceCtorEq, and_false, false_or, List.not_mem_nil, or_false] at hmem
  exact ⟨p, hp, hmem.2.symm⟩

/-- **What a channel can read comes into its stream**, whatever it is about. -/
theorem exists_occurs_of_readBy (hp : p ∈ M) {m : Message} (h : p.readBy t = some m) :
    ∃ c f, Occurs M c f ∧ c.Serves t ∧ m ∈ c.messages := by
  obtain ⟨log, hrun⟩ := run_delivery t p.frame
  have hnow : Occurs M (listener t) ((start "" {}).run (delivery t p.frame)).feed :=
    ⟨"", {}, delivery t p.frame, 0, listener t, brings_delivery hp, by rw [hrun]; rfl, .refl⟩
  rw [hrun] at hnow
  exact hnow.take (a := ⟨1, 1⟩) (newcomer_serves t) rfl rfl rfl h

/-! ## Exactly when topics stay apart -/

/-- **What isolation takes.** The channels of a subject keep to their own messages if and
only if every post about another market is of the other kind and not bare; and they skip
all posts about other subjects if and only if every such post is. Posts of their own kind
about other markets, and bare posts of the other kind, come into their streams. -/
theorem isolated_iff (M : Set Post) (t : Subject) :
    (KeepsOwn M t ↔ ∀ p ∈ M, p.subject.market ≠ t.market → p.IsForeignTo t) ∧
      (SkipsOthers M t ↔ ∀ p ∈ M, p.subject ≠ t → p.IsForeignTo t) := by
  refine ⟨⟨fun h p hp hmarket => ?_, fun h c f hnow ht m hm => ?_⟩,
    fun h p hp hsubject => ?_, fun h c f hnow ht p hp hsubject => ?_⟩
  · refine Post.readBy_eq_none_iff.1 (Option.eq_none_iff_forall_ne_some.2 fun m hread => ?_)
    -- a post that could be read would come into the stream, under its own market
    obtain ⟨c, f, hnow, ht, hm⟩ := exists_occurs_of_readBy hp hread
    have hown := h c f hnow ht m hm
    rw [Post.subject?_of_readBy hread, Option.some.injEq, Subject.inMarket_eq_iff] at hown
    exact hmarket hown
  · -- what is in the stream was read from a post, so that one is not foreign
    obtain ⟨p, hp, hread⟩ := hnow.exists_readBy ht hm
    have hmarket : p.subject.market = t.market := by
      refine Decidable.byContradiction fun hne => ?_
      rw [Post.readBy_eq_none_iff.2 (h p hp hne)] at hread
      cases hread
    rw [Post.subject?_of_readBy hread, Subject.inMarket_eq_iff.2 hmarket]
  · refine Post.readBy_eq_none_iff.1 (Option.eq_none_iff_forall_ne_some.2 fun m hread => ?_)
    -- at the moment a post is read it is not skipped
    obtain ⟨c, f, hnow, ht, -⟩ := exists_occurs_of_readBy hp hread
    obtain ⟨reason, hreason, -⟩ := h c f hnow ht p hp hsubject
    rw [ht.outcome_of_readBy hnow.pure.2.faithful hread] at hreason
    cases hreason
  · exact hnow.skips ht (h p hp hsubject)

/-! Two channels for books of different markets have the books of either in both streams. -/

/-- The books of the market `mkt_1`: somebody wants ten shares of yes at a half. -/
def firstBooks : Post :=
  .books ⟨"mkt_1", some ⟨[⟨⟨0x3fe0000000000000⟩, ⟨0x4024000000000000⟩, 1⟩], []⟩, none⟩
    ⟨by decide +kernel, by decide +kernel⟩

/-- Channels for the books of `mkt_1` and `mkt_2` listen, and the books of `mkt_1` come
in. -/
def twoMarkets : List SessionEvent :=
  [.openChannel (.orderBook "mkt_1" "/proto") (.subscribe "order_book_update:mkt_1") {} .book,
    .openChannel (.orderBook "mkt_2" "/proto") (.subscribe "order_book_update:mkt_2") {} .book,
    .turn 0 .stateFirst, .turn 1 .stateFirst, .act 1 .markOpen, .turn 0 .stateFirst,
    .turn 1 .stateFirst, .act 1 (.dispatch firstBooks.frame), .turn 0 .stateFirst,
    .turn 1 .stateFirst]

theorem books_of_another_market :
    Brings { firstBooks } twoMarkets ∧ firstBooks.subject = .books "mkt_1" ∧
      ∃ c, ((start "wss://feed" {}).run twoMarkets).channels[1]? = some c ∧
        c.Serves (.books "mkt_2") ∧ c.messages.map Message.subject? = [some (.books "mkt_1")] ∧
          c.decoded = 1 ∧ c.dropped = 0 := by
  refine ⟨fun g frame hmem => ?_, rfl, ?_⟩
  · simp only [twoMarkets, List.mem_cons, SessionEvent.act.injEq, ConnectionAction.dispatch.injEq,
      reduceCtorEq, and_false, false_or, List.not_mem_nil, or_false] at hmem
    exact ⟨firstBooks, rfl, hmem.2.symm⟩
  · have hrun : (((start "wss://feed" {}).run twoMarkets).channels[1]?.map fun c =>
        (c.kind, c.topic, c.messages.map Message.subject?, c.decoded, c.dropped)) =
          some (.book, .orderBook "mkt_2" "/proto", [some (.books "mkt_1")], 1, 0) := by
      decide +kernel
    obtain ⟨c, hc, heq⟩ := Option.map_eq_some_iff.1 hrun
    simp only [Prod.mk.injEq] at heq
    obtain ⟨hkind, htopic, hmessages, hdecoded, hdropped⟩ := heq
    exact ⟨c, hc, ⟨hkind, "/proto", .keepLatest, htopic⟩, hmessages, hdecoded, hdropped⟩

end Session

end PushFeed
