import PushFeed.Proofs.Channel.Asking
import PushFeed.Proofs.Session.Run
/-!
# One request for each connection

A session has any number of channels, and anything may happen between their turns. Still
no channel queues its request twice on one connection, and its counter is right
(`request_queued_once`). The books of a channel are kept by its own turns; everything
else that happens is an evolution of the hub, which the books do not mind.

What a channel has queued is read off the queues event by event (`queuedBy`), as the
transport takes from them at any time.
-/

namespace PushFeed

namespace Channel

theorem settled_opened (topic : Topic) (request : ClientMessage) (options : ChannelOptions)
    (kind : MessageKind) : (opened topic request options kind).1.Settled := by
  rcases opened_cases topic request options kind with heq | heq <;> rw [heq] <;>
    exact fun g hsent => nomatch hsent

theorem silent_opened (topic : Topic) (request : ClientMessage) (options : ChannelOptions)
    (kind : MessageKind) : (opened topic request options kind).1.Silent := by
  rcases opened_cases topic request options kind with heq | heq <;> rw [heq]
  · exact ⟨rfl, rfl, rfl, List.not_mem_nil⟩
  · exact ⟨rfl, rfl, rfl, by simp⟩

/-- The channel is to queue the text at its end, to let its topic go. -/
def EndsWith (c : Channel) (text : String) : Prop :=
  c.options.unsubscribeOnClose = true ∧
    (ClientMessage.unsubscribe c.topic.channel).text? = .ok text

end Channel

namespace Session

variable {s : Session} {e : SessionEvent} {i g : Nat} {c : Channel}

/-- What an event adds to the queue of a connection. -/
def queuedIn (s : Session) (e : SessionEvent) (g : Nat) : List Outbound :=
  s.feed.hub.queuedOn (s.step e).feed.hub g

/-- What certain events of a run add to the queue of a connection. -/
def queuedBy (s : Session) (mine : SessionEvent → Bool) (g : Nat) (events : List SessionEvent) :
    List Outbound :=
  s.collect (fun s e => if mine e then s.queuedIn e g else []) events

/-- How often certain events of a run have queued a text on a connection. -/
def timesQueued (s : Session) (mine : SessionEvent → Bool) (text : String) (g : Nat)
    (events : List SessionEvent) : Nat :=
  (s.queuedBy mine g events).count (.text text)

theorem queuedBy_concat (s : Session) (mine : SessionEvent → Bool) (g : Nat)
    (events : List SessionEvent) (e : SessionEvent) :
    s.queuedBy mine g (events ++ [e]) =
      s.queuedBy mine g events ++ if mine e then (s.run events).queuedIn e g else [] :=
  s.collect_concat _ events e

/-- Its turns and its end are all a channel does. -/
theorem count_queuedBy_isOf (s : Session) (events : List SessionEvent) (x : Outbound) :
    (s.queuedBy (SessionEvent.isOf i) g events).count x =
      (s.queuedBy (SessionEvent.isTurnOf i) g events).count x +
        (s.queuedBy (SessionEvent.isTearDownOf i) g events).count x := by
  simp only [queuedBy]
  induction events generalizing s with
  | nil => rfl
  | cons e events ih =>
    have hsplit (l : List Outbound) : (if e.isOf i then l else []).count x =
        (if e.isTurnOf i then l else []).count x +
          (if e.isTearDownOf i then l else []).count x := by
      cases e <;> simp [SessionEvent.isOf, SessionEvent.isTurnOf, SessionEvent.isTearDownOf]
    simp only [collect, List.count_append, ih, hsplit]
    omega

/-- A channel that is not there queues nothing. -/
theorem queuedIn_of_none (hc : s.channels[i]? = none) (he : e.isOf i = true) :
    s.queuedIn e g = [] := by
  rw [queuedIn, step_of_none hc he]
  exact (Hub.Adds.refl _ g).queuedOn_eq

/-! ## What one event of the channel queues -/

/-- What a turn queues. -/
theorem queuedIn_turn (hc : s.channels[i]? = some c) (first : Precedence) :
    s.queuedIn (.turn i first) g = s.feed.hub.queuedOn (c.turn s.feed first).2.hub g := by
  simp only [queuedIn, step, onChannel_eq hc]

/-- What the end of a channel queues. -/
theorem queuedIn_tearDown (hc : s.channels[i]? = some c) :
    s.queuedIn (.tearDown i) g = s.feed.hub.queuedOn (c.tearDown s.feed).2.hub g := by
  simp only [queuedIn, step, onChannel_eq hc]

/-- The end of a channel queues the text that lets its topic go, or nothing. -/
theorem queuedIn_tearDown_cases (hs : s.feed.hub.Sound) (hc : s.channels[i]? = some c) (g : Nat) :
    s.queuedIn (.tearDown i) g = [] ∨
      c.attached.isSome ∧ c.options.unsubscribeOnClose = true ∧ s.feed.hub.stateOf g = .open ∧
        (s.step (.tearDown i)).feed.hub.stateOf g = .open ∧
          ∃ text, (ClientMessage.unsubscribe c.topic.channel).text? = .ok text ∧
            s.queuedIn (.tearDown i) g = [.text text] := by
  rw [queuedIn_tearDown hc]
  simp only [step, onChannel_eq hc]
  cases hl : c.isLive with
  | false =>
    rw [Channel.tearDown_of_not_isLive hl]
    exact .inl (Hub.Adds.refl _ g).queuedOn_eq
  | true =>
    obtain ⟨-, -, hadds⟩ := Channel.tearDown_eq hs hl
    refine (hadds g).imp Hub.Adds.queuedOn_eq ?_
    rintro ⟨ha, hopt, -, hopen, hopen', text, ht, hadds⟩
    exact ⟨ha, hopt, hopen, hopen', text, ht, hadds.queuedOn_eq⟩

/-! ## The books along a run -/

variable {text : String} {url : String} {options : ChannelOptions} {events : List SessionEvent}

/-- Nobody has queued anything in the name of a channel that is not there yet. -/
theorem queuedBy_of_none {mine : SessionEvent → Bool} (hm : ∀ e, mine e = true → e.isOf i = true)
    (hc : ((start url options).run events).channels[i]? = none) :
    (start url options).queuedBy mine g events = [] := by
  refine collect_of_none (fun s e hs => ?_) hc
  split
  · rename_i he
    exact queuedIn_of_none hs (hm e he)
  · rfl

/-- **The books of a channel are right at all times.** -/
theorem books_run (hc : ((start url options).run events).channels[i]? = some c)
    (ht : c.request.text? = .ok text) :
    Channel.Books c ((start url options).run events).feed.hub (fun g =>
        ((start url options).queuedBy (SessionEvent.isTurnOf i) g events).count (.text text)) ∧
      ∀ g u, .text u ∈ (start url options).queuedBy (SessionEvent.isTurnOf i) g events →
        u = text := by
  induction events using List.reverseRecOn generalizing c with
  | nil => simp [run, start] at hc
  | append_singleton events e ih =>
    have hs := sound_run url options events
    have he := step_evolves hs e
    simp only [queuedBy_concat]
    rw [run_concat] at hc ⊢
    rcases step_cases_at hc with ⟨topic, request, opts, kind, rfl, hnone, rfl, hhub⟩ |
      ⟨d, first, rfl, hd, heq⟩ | ⟨d, rfl, hd, heq⟩ | ⟨hno, hd⟩
    · -- the channel is opened: nothing was queued in its name before
      have hnil (g : Nat) :
          (start url options).queuedBy (SessionEvent.isTurnOf i) g events = [] :=
        queuedBy_of_none (fun e he => by simp [SessionEvent.isOf, he]) hnone
      simp only [hnil, SessionEvent.isTurnOf, Bool.false_eq_true, if_false, List.append_nil,
        List.count_nil, List.not_mem_nil, false_implies, implies_true, and_true]
      exact .zero (Channel.settled_opened topic request opts kind)
        (Channel.silent_opened topic request opts kind).subscribes_eq _
    · -- it has a turn: what the turn queues enters the books
      have hms := Channel.turn_moves d ((start url options).run events).feed first
      rw [← heq] at hms
      have ht' : d.request.text? = .ok text := hms.alike.request_eq ▸ ht
      obtain ⟨hbooks, htexts⟩ := ih hd ht'
      obtain ⟨added, hadds, hnew, hbooks'⟩ := hms.books hs ht' hbooks
      have hq (g : Nat) :
          ((start url options).run events).queuedIn (.turn i first) g = added g :=
        (hadds g).queuedOn_eq
      simp only [SessionEvent.isTurnOf, beq_self_eq_true, if_true, hq, List.count_append]
      refine ⟨hbooks', fun g u hu => ?_⟩
      rcases List.mem_append.1 hu with hu | hu
      · exact htexts g u hu
      · exact (hnew g u hu).1
    · -- it ends, which is no turn
      have hfeed := congrArg Prod.snd heq
      obtain rfl := congrArg Prod.fst heq
      simp only [SessionEvent.isTurnOf, Bool.false_eq_true, if_false, List.append_nil]
      cases hl : d.isLive with
      | false =>
        simp only [Channel.tearDown_of_not_isLive hl] at ht ⊢
        obtain ⟨hbooks, htexts⟩ := ih hd ht
        exact ⟨hbooks.evolves hs he, htexts⟩
      | true =>
        have hc' := (Channel.tearDown_eq hs hl).1
        rw [hc'] at ht ⊢
        obtain ⟨hbooks, htexts⟩ := ih hd ht
        refine ⟨.evolves ?_ hs he, htexts⟩
        exact hbooks.of_sentOn (fun _ _ => .inr rfl) rfl (.inl rfl)
    · -- the event is not its own, so the hub evolves and the books stand
      have hturn := SessionEvent.isTurnOf_of_isOf hno
      obtain ⟨hbooks, htexts⟩ := ih hd ht
      simp only [hturn, Bool.false_eq_true, if_false, List.append_nil]
      exact ⟨hbooks.evolves hs he, htexts⟩

/-- **What a channel remembers is, at all times, what it has asked on and still
follows.** -/
theorem recalls_run (hc : ((start url options).run events).channels[i]? = some c)
    (ht : c.request.text? = .ok text) :
    Channel.Recalls c fun g =>
      (start url options).timesQueued (SessionEvent.isTurnOf i) text g events := by
  unfold timesQueued
  induction events using List.reverseRecOn generalizing c with
  | nil => simp [run, start] at hc
  | append_singleton events e ih =>
    have hs := sound_run url options events
    simp only [queuedBy_concat]
    rw [run_concat] at hc
    rcases step_cases_at hc with ⟨topic, request, opts, kind, rfl, hnone, rfl, hhub⟩ |
      ⟨d, first, rfl, hd, heq⟩ | ⟨d, rfl, hd, heq⟩ | ⟨hno, hd⟩
    · have hnil : ∀ g, (start url options).queuedBy (SessionEvent.isTurnOf i) g events = [] :=
        fun g => queuedBy_of_none (fun e he => by simp [SessionEvent.isOf, he]) hnone
      simp only [hnil, SessionEvent.isTurnOf, Bool.false_eq_true, if_false, List.append_nil,
        List.count_nil]
      exact .zero (Channel.silent_opened topic request opts kind).sentOn_eq
    · have hms := Channel.turn_moves d ((start url options).run events).feed first
      rw [← heq] at hms
      have ht' : d.request.text? = .ok text := hms.alike.request_eq ▸ ht
      obtain ⟨added, hadds, -, -⟩ := hms.books hs ht' (books_run hd ht').1
      have hq : ∀ g, ((start url options).run events).queuedIn (.turn i first) g = added g :=
        fun g => (hadds g).queuedOn_eq
      simp only [SessionEvent.isTurnOf, beq_self_eq_true, if_true, hq, List.count_append]
      exact hms.recalls hs (books_run hd ht').1 ht' hadds (ih hd ht')
    · -- a channel that has ended follows nothing
      obtain rfl := congrArg Prod.fst heq
      simp only [SessionEvent.isTurnOf, Bool.false_eq_true, if_false, List.append_nil]
      cases hl : d.isLive with
      | false =>
        simp only [Channel.tearDown_of_not_isLive hl] at ht ⊢
        exact ih hd ht
      | true =>
        rw [(Channel.tearDown_eq hs hl).1] at ht ⊢
        exact (ih hd ht).of_phase (fun _ => id) (by simp)
    · have hturn := SessionEvent.isTurnOf_of_isOf hno
      simp only [hturn, Bool.false_eq_true, if_false, List.append_nil]
      exact ih hd ht

/-- **A channel whose request is invalid is silent at all times.** -/
theorem silent_run {error : FeedError}
    (hc : ((start url options).run events).channels[i]? = some c)
    (ht : c.request.text? = .error error) :
    c.Silent ∧ ∀ g u, .text u ∉ (start url options).queuedBy (SessionEvent.isOf i) g events := by
  induction events using List.reverseRecOn generalizing c with
  | nil => simp [run, start] at hc
  | append_singleton events e ih =>
    have hs := sound_run url options events
    simp only [queuedBy_concat]
    rw [run_concat] at hc
    rcases step_cases_at hc with ⟨topic, request, opts, kind, rfl, hnone, rfl, hhub⟩ |
      ⟨d, first, rfl, hd, heq⟩ | ⟨d, rfl, hd, heq⟩ | ⟨hno, hd⟩
    · have hnil (g : Nat) :
          (start url options).queuedBy (SessionEvent.isOf i) g events = [] :=
        queuedBy_of_none (fun _ he => he) hnone
      refine ⟨Channel.silent_opened topic request opts kind, fun g u => ?_⟩
      simp [hnil, SessionEvent.isOf, SessionEvent.isTurnOf, SessionEvent.isTearDownOf]
    · have hms := Channel.turn_moves d ((start url options).run events).feed first
      rw [← heq] at hms
      have ht' : d.request.text? = .error error := hms.alike.request_eq ▸ ht
      obtain ⟨hsilent, htexts⟩ := ih hd ht'
      obtain ⟨hsilent', hmute, -⟩ := hms.silent hs ht' hsilent
      refine ⟨hsilent', fun g u => ?_⟩
      obtain ⟨added, hadds, hnone⟩ := hmute g
      have hq : ((start url options).run events).queuedIn (.turn i first) g = added :=
        hadds.queuedOn_eq
      simp [SessionEvent.isOf, SessionEvent.isTurnOf, hq, htexts g u, hnone u]
    · obtain rfl := congrArg Prod.fst heq
      have ht' : d.request.text? = .error error := by
        obtain ⟨c', hc', halike⟩ := exists_alike_step hs hd (.tearDown i)
        cases hc.symm.trans hc'
        exact halike.request_eq ▸ ht
      obtain ⟨hsilent, htexts⟩ := ih hd ht'
      have hq (g : Nat) : ((start url options).run events).queuedIn (.tearDown i) g = [] := by
        rcases queuedIn_tearDown_cases hs hd g with hq | ⟨ha, -⟩
        · exact hq
        · rw [hsilent.attached_eq] at ha
          cases ha
      refine ⟨hsilent.tearDown hs, fun g u => ?_⟩
      simp [SessionEvent.isOf, SessionEvent.isTearDownOf, hq, htexts g u]
    · obtain ⟨hsilent, htexts⟩ := ih hd ht
      simpa [hno] using ⟨hsilent, htexts⟩

/-- What a channel queues a text on is open, before and after. -/
theorem open_of_queuedIn {u : String} (he : e.isOf i = true)
    (hu : .text u ∈ ((start url options).run events).queuedIn e g) :
    ((start url options).run events).feed.hub.stateOf g = .open ∧
      (((start url options).run events).step e).feed.hub.stateOf g = .open := by
  have hs := sound_run url options events
  cases hc : ((start url options).run events).channels[i]? with
  | none =>
    rw [queuedIn_of_none hc he] at hu
    cases hu
  | some c =>
    cases e with
    | turn channel first =>
      obtain rfl : channel = i := by simpa using he
      have hms := Channel.turn_moves c ((start url options).run events).feed first
      rw [queuedIn_turn hc] at hu
      simp only [step, onChannel_eq hc]
      have hopen : ((start url options).run events).feed.hub.stateOf g = .open := by
        cases ht : c.request.text? with
        | ok text =>
          obtain ⟨added, hadds, hnew, -⟩ := hms.books hs ht (books_run hc ht).1
          rw [(hadds g).queuedOn_eq] at hu
          exact (hnew g u hu).2
        | error error =>
          obtain ⟨-, hmute, -⟩ := hms.silent hs ht (silent_run hc ht).1
          obtain ⟨added, hadds, hnone⟩ := hmute g
          rw [hadds.queuedOn_eq] at hu
          exact absurd hu (hnone u)
      exact ⟨hopen, (hms.stateOf_eq_open_iff hs g).2 hopen⟩
    | tearDown channel =>
      obtain rfl : channel = i := by simpa using he
      rcases queuedIn_tearDown_cases hs hc g with hq | ⟨-, -, hopen, hopen', -⟩
      · rw [hq] at hu
        cases hu
      · exact ⟨hopen, hopen'⟩
    | openChannel | getConnection | act | elapse => cases he

/-- A channel whose request is invalid attaches nobody. -/
theorem mailboxesOf_step_of_silent {error : FeedError} (he : e.isOf i = true)
    (hc : ((start url options).run events).channels[i]? = some c)
    (ht : c.request.text? = .error error) (g : Nat) :
    (((start url options).run events).step e).feed.hub.mailboxesOf g =
      ((start url options).run events).feed.hub.mailboxesOf g := by
  have hs := sound_run url options events
  have hsilent := (silent_run hc ht).1
  cases e with
  | turn channel first =>
    obtain rfl : channel = i := by simpa using he
    simp only [step, onChannel_eq hc]
    exact ((Channel.turn_moves c _ first).silent hs ht hsilent).2.2 g
  | tearDown channel =>
    obtain rfl : channel = i := by simpa using he
    simp only [step, onChannel_eq hc]
    exact hsilent.mailboxesOf_tearDown hs g
  | openChannel | getConnection | act | elapse => cases he

/-- The end of a channel queues what it is to end with, if anything. -/
theorem endsWith_of_queuedIn (hc : ((start url options).run events).channels[i]? = some c)
    {before after : List SessionEvent} (hsplit : events = before ++ .tearDown i :: after)
    (g : Nat) :
    ((start url options).run before).queuedIn (.tearDown i) g = [] ∨
      ∃ text, c.EndsWith text ∧
        ((start url options).run before).queuedIn (.tearDown i) g = [.text text] := by
  have hs := sound_run url options before
  cases hd : ((start url options).run before).channels[i]? with
  | none => exact .inl (queuedIn_of_none hd (by simp))
  | some d =>
    obtain ⟨c', hc', halike⟩ := exists_alike_run hs hd (.tearDown i :: after)
    rw [← run_append, ← hsplit] at hc'
    cases hc.symm.trans hc'
    refine (queuedIn_tearDown_cases hs hd g).imp_right ?_
    rintro ⟨-, hopt, -, -, text, ht, hq⟩
    refine ⟨text, ⟨?_, ?_⟩, hq⟩
    · rw [halike.options_eq, hopt]
    · rw [halike.topic_eq, ht]

/-- A text that the channel is not to end with, its end does not queue. -/
theorem timesQueued_isTearDownOf
    (hc : ((start url options).run events).channels[i]? = some c) (hend : ¬c.EndsWith text) :
    (start url options).timesQueued (SessionEvent.isTearDownOf i) text g events = 0 := by
  -- what the channel was opened with is read off the end of the run, so the induction is
  -- over the beginnings of that run
  suffices h : ∀ before after, events = before ++ after →
      (start url options).timesQueued (SessionEvent.isTearDownOf i) text g before = 0 from
    h events [] (List.append_nil _).symm
  intro before
  induction before using List.reverseRecOn with
  | nil => exact fun _ _ => rfl
  | append_singleton before e ih =>
    intro after hsplit
    rw [List.append_assoc] at hsplit
    have hbefore := ih _ hsplit
    simp only [timesQueued] at hbefore ⊢
    rw [queuedBy_concat, List.count_append, hbefore]
    split
    · rename_i he
      obtain rfl : e = .tearDown i := by
        cases e <;> simp_all [SessionEvent.isTearDownOf]
      rcases endsWith_of_queuedIn hc hsplit g with hq | ⟨u, hu, hq⟩
      · simp [hq]
      · have hne : u ≠ text := fun heq => hend (heq ▸ hu)
        simp [hq, hne]
    · rfl

/-- **One request for each connection**, whatever happens between a channel's turns. In
its turns a channel queues its request at most once on each connection and no other
text, and its counter is the total. At its end it queues at most the text that lets its
topic go; only where the request is that very text does it come up there once more. A
text goes on open connections only. A channel whose request is invalid queues no text,
attaches nobody and never calls itself subscribed. -/
theorem request_queued_once (url : String) (options : ChannelOptions)
    (events : List SessionEvent) (i : Nat) (c : Channel)
    (hc : ((start url options).run events).channels[i]? = some c) :
    (∀ text, c.request.text? = .ok text →
      (∀ g u, .text u ∈ (start url options).queuedBy (SessionEvent.isTurnOf i) g events →
        u = text) ∧
      (∀ g, (start url options).timesQueued (SessionEvent.isTurnOf i) text g events ≤ 1) ∧
      c.subscribes =
        ∑ g ∈ Finset.range (((start url options).run events).feed.hub.generation + 1),
          (start url options).timesQueued (SessionEvent.isTurnOf i) text g events ∧
      (¬c.EndsWith text → ∀ g,
        (start url options).timesQueued (SessionEvent.isOf i) text g events =
          (start url options).timesQueued (SessionEvent.isTurnOf i) text g events)) ∧
    (∀ before after g, events = before ++ .tearDown i :: after →
      ((start url options).run before).queuedIn (.tearDown i) g = [] ∨
        ∃ text, c.EndsWith text ∧
          ((start url options).run before).queuedIn (.tearDown i) g = [.text text]) ∧
    (∀ before e after g u, events = before ++ e :: after → e.isOf i = true →
      .text u ∈ ((start url options).run before).queuedIn e g →
        ((start url options).run before).feed.hub.stateOf g = .open ∧
          ((start url options).run (before ++ [e])).feed.hub.stateOf g = .open) ∧
    (∀ error, c.request.text? = .error error →
      (∀ g u, .text u ∉ (start url options).queuedBy (SessionEvent.isOf i) g events) ∧
      (∀ before e after g, events = before ++ e :: after → e.isOf i = true →
        ((start url options).run (before ++ [e])).feed.hub.mailboxesOf g =
          ((start url options).run before).feed.hub.mailboxesOf g) ∧
      c.attached = none ∧ c.subscribes = 0 ∧ .subscribed ∉ c.states) := by
  refine ⟨?_, ?_, ?_, ?_⟩
  · intro text ht
    obtain ⟨hbooks, htexts⟩ := books_run hc ht
    refine ⟨htexts, hbooks.once, hbooks.total, fun hend g => ?_⟩
    have hzero := timesQueued_isTearDownOf (g := g) hc hend
    simp only [timesQueued] at hzero ⊢
    rw [count_queuedBy_isOf, hzero, Nat.add_zero]
  · intro before after g hsplit
    exact endsWith_of_queuedIn hc hsplit g
  · intro before e after g u _ he hu
    rw [run_concat]
    exact open_of_queuedIn he hu
  · intro error ht
    obtain ⟨hsilent, htexts⟩ := silent_run hc ht
    refine ⟨htexts, ?_, hsilent.attached_eq, hsilent.subscribes_eq, hsilent.not_subscribed⟩
    intro before e after g hsplit he
    rw [run_concat]
    cases hd : ((start url options).run before).channels[i]? with
    | none => rw [step_of_none hd he]
    | some d =>
      obtain ⟨c', hc', halike⟩ :=
        exists_alike_run (sound_run url options before) hd (e :: after)
      rw [← run_append, ← hsplit] at hc'
      cases hc.symm.trans hc'
      exact mailboxesOf_step_of_silent he hd (halike.request_eq ▸ ht) g

/-- A channel that asks with the text it is to end with: it is opened, its connection
opens, it asks, and it ends. -/
def echo : List SessionEvent :=
  let topic := Topic.orderBook "mkt_1" "/proto"
  [.openChannel topic (.unsubscribe topic.channel) { unsubscribeOnClose := true } .book,
    .turn 0 .stateFirst, .act 1 .markOpen, .turn 0 .stateFirst, .tearDown 0]

/-- What `echo` queues twice. -/
def echoText : String :=
  "\x7b\"payload\":\x7b\"type\":\"Unsubscribe\",\"data\":\x7b\"channel\":\"order_book_update:mkt_1\"\x7d\x7d\x7d"

theorem request_queued_once_echo :
    ∃ c, ((start "ws://localhost:4010/ws" {}).run echo).channels[0]? = some c ∧
      c.request.text? = .ok echoText ∧ c.subscribes = 1 ∧
      ∀ g, (start "ws://localhost:4010/ws" {}).timesQueued (SessionEvent.isTurnOf 0)
        echoText g echo ≤ 1 := by
  have hrun : (((start "ws://localhost:4010/ws" {}).run echo).channels[0]?.map fun c =>
      (c.request.text?.toOption, c.subscribes)) = some (some echoText, 1) := by decide +kernel
  obtain ⟨c, hc, heq⟩ := Option.map_eq_some_iff.1 hrun
  have ht : c.request.text? = .ok echoText := by
    have htext := congrArg Prod.fst heq
    cases h : c.request.text? with
    | ok text => simpa [h, Except.toOption] using htext
    | error e => simp [h, Except.toOption] at htext
  have hlaw := request_queued_once "ws://localhost:4010/ws" {} echo 0 c hc
  exact ⟨c, hc, ht, congrArg Prod.snd heq, (hlaw.1 echoText ht).2.1⟩

/-- Counting its end, a channel may queue its request twice on one connection. -/
theorem request_queued_twice :
    (((start "ws://localhost:4010/ws" {}).run echo).channels[0]?.map fun c =>
        (c.request.text?.toOption, c.subscribes)) = some (some echoText, 1) ∧
      (start "ws://localhost:4010/ws" {}).timesQueued (SessionEvent.isOf 0) echoText 1 echo =
        2 := by
  constructor <;> decide +kernel

end Session

end PushFeed
