import PushFeed.Proofs.Channel.Parting
import PushFeed.Proofs.Session.Closing
import PushFeed.Proofs.Session.Listening
import PushFeed.Proofs.Session.Requests
/-!
# How a session's channels leave

Whenever a channel is torn down, it leaves alone what the others hold and publish and
follow (`Session.leaves_alone`). The one thing it may add is the first connection of all, for
it asks for one in its first turn, and its end is that turn if it has had none before
(`Session.leaving_connects`). As it has been following one connection, it says goodbye on
that one, and only where its request has gone out. So on each connection its texts are its
request and, after that, the one it leaves with (`Session.textsBy_cases`).
-/

namespace PushFeed

theorem filterMap_text?_eq_replicate {text : String} {l : List Outbound}
    (h : ∀ u, .text u ∈ l → u = text) :
    l.filterMap Outbound.text? = List.replicate (l.count (.text text)) text := by
  induction l with
  | nil => rfl
  | cons x l ih =>
    have hrest := ih fun u hu => h u (List.mem_cons_of_mem x hu)
    cases x with
    | close =>
      rw [List.filterMap_cons_none rfl, hrest, List.count_cons_of_ne (by simp)]
    | text u =>
      obtain rfl := h u List.mem_cons_self
      simp [Outbound.text?, hrest, List.replicate_succ]

/-- What can be asked for can be let go. -/
theorem ClientMessage.exists_unsubscribe {channel text : String}
    (h : (subscribe channel).text? = .ok text) :
    ∃ farewell, (unsubscribe channel).text? = .ok farewell := by
  have hsame : (unsubscribe channel).validate = (subscribe channel).validate := rfl
  unfold text? at h ⊢
  rw [hsame]
  cases hvalid : (subscribe channel).validate with
  | error e =>
    rw [hvalid] at h
    cases h
  | ok => exact ⟨_, rfl⟩

namespace Session

variable {s : Session} {e : SessionEvent} {i g : Nat} {c d : Channel} {text url : String}
  {options : ChannelOptions} {events before after more : List SessionEvent}

theorem grounded_run (hc : ((start url options).run events).channels[i]? = some c) :
    c.Grounded := by
  refine channel_run (fun topic request opts kind => ?_) Channel.Move.grounded (fun _ _ => nofun) hc
  rcases Channel.opened_cases topic request opts kind with heq | heq <;> rw [heq] <;> exact nofun

/-! ## After the end -/

/-- A channel that is done stays as it is and does nothing any more. -/
theorem step_of_not_isLive (hc : s.channels[i]? = some c) (hl : c.isLive = false)
    (e : SessionEvent) :
    (s.step e).channels[i]? = some c ∧ (e.isOf i = true → (s.step e).feed = s.feed) := by
  have hturn (first : Precedence) : c.turn s.feed first = (c, s.feed) := by
    unfold Channel.isLive at hl
    unfold Channel.turn
    split at hl <;> simp_all
  have hlt := Nat.lt_of_lt_of_le (List.getElem?_eq_some_iff.1 hc).1 (length_channels_le s e)
  obtain ⟨c', hc'⟩ : ∃ c', (s.step e).channels[i]? = some c' :=
    ⟨_, List.getElem?_eq_getElem hlt⟩
  rw [hc']
  rcases step_cases_at hc' with ⟨_, _, _, _, -, hnone, -⟩ | ⟨d, first, -, hd, heq⟩ |
    ⟨d, -, hd, heq⟩ | ⟨hno, hd⟩
  · cases hc.symm.trans hnone
  · cases hc.symm.trans hd
    rw [hturn] at heq
    exact ⟨congrArg (some ·.1) heq, fun _ => congrArg Prod.snd heq⟩
  · cases hc.symm.trans hd
    rw [Channel.tearDown_of_not_isLive hl] at heq
    exact ⟨congrArg (some ·.1) heq, fun _ => congrArg Prod.snd heq⟩
  · refine ⟨hd.symm.trans hc, fun he => ?_⟩
    rw [hno] at he
    cases he

theorem queuedIn_of_feed_eq (h : (s.step e).feed = s.feed) (g : Nat) : s.queuedIn e g = [] := by
  rw [queuedIn, h]
  exact (Hub.Adds.refl _ g).queuedOn_eq

/-- **Whoever is done queues nothing more.** -/
theorem queuedBy_of_not_isLive (events : List SessionEvent) (hc : s.channels[i]? = some c)
    (hl : c.isLive = false) (g : Nat) : s.queuedBy (SessionEvent.isOf i) g events = [] := by
  rw [queuedBy]
  induction events generalizing s with
  | nil => rfl
  | cons e events ih =>
    obtain ⟨hnext, hfeed⟩ := step_of_not_isLive hc hl e
    rw [collect, ih hnext, List.append_nil]
    split
    · rename_i he
      exact queuedIn_of_feed_eq (hfeed he) g
    · rfl

/-- Whoever is torn down is done. -/
theorem isLive_of_tearDown (hs : s.feed.hub.Sound)
    (hc : (s.step (.tearDown i)).channels[i]? = some c) : c.isLive = false := by
  rcases step_cases_at hc with ⟨_, _, _, _, heq, -⟩ | ⟨_, _, heq, -⟩ | ⟨d, -, -, heq⟩ | ⟨hno, -⟩
  · cases heq
  · cases heq
  · obtain rfl := congrArg Prod.fst heq
    cases hl : d.isLive with
    | false => rw [Channel.tearDown_of_not_isLive hl, hl]
    | true =>
      rw [(Channel.tearDown_eq hs hl).1]
      rfl
  · simp at hno

/-! ## Before the end -/

/-- A channel that is there has not been torn down in its time, so it has queued everything in
its turns; or it was, and that was its end. -/
theorem queuedBy_cases (hc : ((start url options).run events).channels[i]? = some c) :
    (∀ g, (start url options).queuedBy (SessionEvent.isOf i) g events =
      (start url options).queuedBy (SessionEvent.isTurnOf i) g events) ∨
    c.isLive = false ∧ ∃ before d after, events = before ++ .tearDown i :: after ∧
      ((start url options).run before).channels[i]? = some d ∧
      ∀ g, (start url options).queuedBy (SessionEvent.isOf i) g before =
        (start url options).queuedBy (SessionEvent.isTurnOf i) g before := by
  induction events using List.reverseRecOn generalizing c with
  | nil => exact .inl fun _ => rfl
  | append_singleton events e ih =>
    rw [run_concat] at hc
    cases hd : ((start url options).run events).channels[i]? with
    | none =>
      -- whoever is not there has queued nothing so far, and the event does not change that
      refine .inl fun g => ?_
      have hnothing {mine : SessionEvent → Bool} (hm : ∀ e, mine e = true → e.isOf i = true) :
          (start url options).queuedBy mine g (events ++ [e]) = [] := by
        rw [queuedBy_concat, queuedBy_of_none hm hd]
        split
        · rename_i he
          exact queuedIn_of_none hd (hm e he)
        · rfl
      rw [hnothing fun _ he => he, hnothing fun e he => by simp [SessionEvent.isOf, he]]
    | some d =>
      rcases ih hd with hbefore | ⟨hl, before, b, after, rfl, hb⟩
      · by_cases hend : e = .tearDown i
        · subst hend
          exact .inr ⟨isLive_of_tearDown (sound_run url options events) hc,
            events, d, [], rfl, hd, hbefore⟩
        · -- what it does is a turn, unless it does nothing
          have hmine : e.isOf i = e.isTurnOf i := by
            cases e <;>
              simp_all [SessionEvent.isOf, SessionEvent.isTurnOf, SessionEvent.isTearDownOf]
          refine .inl fun g => ?_
          rw [queuedBy_concat, queuedBy_concat, hbefore, hmine]
      · obtain rfl : c = d :=
          Option.some.inj (hc.symm.trans (step_of_not_isLive hd hl e).1)
        exact .inr ⟨hl, before, b, after ++ [e], by simp, hb⟩

/-- What a channel queues in its turns is its request, once at most. -/
theorem texts_of_turns (hc : ((start url options).run events).channels[i]? = some c)
    (ht : c.request.text? = .ok text) (g : Nat) :
    ((start url options).queuedBy (SessionEvent.isTurnOf i) g events).filterMap Outbound.text? =
        [] ∧ c.sentOn ≠ some g ∨
      ((start url options).queuedBy (SessionEvent.isTurnOf i) g events).filterMap Outbound.text? =
        [text] := by
  obtain ⟨hbooks, htexts⟩ := books_run hc ht
  have hasked := (recalls_run hc ht).asked g
  have hle := hbooks.once g
  rw [filterMap_text?_eq_replicate (htexts g)]
  simp only [timesQueued] at hasked hle
  rcases Nat.le_one_iff_eq_zero_or_eq_one.1 hle with hn | hn <;> rw [hn] at hasked ⊢
  · exact .inl ⟨rfl, fun hsent => Nat.lt_irrefl 0 (hasked hsent)⟩
  · exact .inr rfl

/-! ## At the end -/

/-- **What the end of a channel makes of the hub**, once the channel has begun. -/
theorem leaves_step (hc : ((start url options).run events).channels[i]? = some c) :
    c.Leaves (c.begun ((start url options).run events).feed).hub
      (((start url options).run events).step (.tearDown i)).feed.hub := by
  simp only [step, onChannel_eq hc]
  exact Channel.leaves_tearDown (grounded_run hc) (moored_run hc) _

/-- What the end of a channel queues is what it leaves with, where it listens. -/
theorem queuedIn_tearDown_eq (hc : ((start url options).run events).channels[i]? = some c)
    (g : Nat) :
    ((start url options).run events).queuedIn (.tearDown i) g =
      if c.attached.map (·.generation) = some g then
        c.farewell (c.begun ((start url options).run events).feed).hub g else [] := by
  have hbegun : ((start url options).run events).feed.hub.Adds
      (c.begun ((start url options).run events).feed).hub g [] := by
    unfold Channel.begun
    split
    · exact Hub.adds_get_false _ g
    · exact .refl _ g
  exact (hbegun.trans ((leaves_step hc).adds g)).queuedOn_eq

/-- **What the end of a channel queues**: the text that lets its topic go, on the connection
it listens on and if that one takes texts, and nothing else. -/
theorem queuedIn_tearDown_of_subscribe (hc : ((start url options).run events).channels[i]? = some c)
    (hr : c.request = .subscribe c.topic.channel) (g : Nat) :
    (c.Departs ((start url options).run events).feed.hub g →
      ∃ farewell, (ClientMessage.unsubscribe c.topic.channel).text? = .ok farewell ∧
        ((start url options).run events).queuedIn (.tearDown i) g = [.text farewell]) ∧
    (¬c.Departs ((start url options).run events).feed.hub g →
      ((start url options).run events).queuedIn (.tearDown i) g = []) := by
  rw [queuedIn_tearDown_eq hc, ← Channel.departs_begun_iff (moored_run hc)]
  constructor
  · rintro ⟨hopt, hg, htakes⟩
    cases ht : c.request.text? with
    | error e =>
      -- a channel that cannot ask listens nowhere
      rw [(silent_run hc ht).1.attached_eq] at hg
      cases hg
    | ok text =>
      rw [hr] at ht
      obtain ⟨farewell, hf⟩ := ClientMessage.exists_unsubscribe ht
      exact ⟨farewell, hf, by simp [Channel.farewell, hopt, hg, htakes, hf]⟩
  · intro hstays
    split
    · rename_i hg
      exact if_neg fun h => hstays ⟨h.1, hg, h.2⟩
    · rfl

/-- The texts a channel has queued on a connection, in their order. -/
def textsBy (s : Session) (i g : Nat) (events : List SessionEvent) : List String :=
  (s.queuedBy (SessionEvent.isOf i) g events).filterMap Outbound.text?

/-- What a channel queues in a run that tears it down, if that is the last thing it does. -/
theorem textsBy_tearDown
    (hdone : ∀ g, ((s.run before).step (.tearDown i)).queuedBy (SessionEvent.isOf i) g after = [])
    (g : Nat) :
    s.textsBy i g (before ++ .tearDown i :: after) =
      s.textsBy i g before ++
        ((s.run before).queuedIn (.tearDown i) g).filterMap Outbound.text? := by
  have hafter := hdone g
  rw [queuedBy] at hafter
  simp only [textsBy, queuedBy, collect_append, collect, SessionEvent.isOf_tearDown,
    beq_self_eq_true, if_true, hafter, List.append_nil, List.filterMap_append]

/-- **The texts of a channel on one connection** are none, its request, or its request and then
the text it leaves with; and that is the last thing it does. -/
theorem textsBy_cases (hc : ((start url options).run events).channels[i]? = some c)
    (hr : c.request = .subscribe c.topic.channel) (g : Nat) :
    (start url options).textsBy i g events = [] ∨
      ∃ request, c.request.text? = .ok request ∧
        ((start url options).textsBy i g events = [request] ∨
          ∃ farewell before after, (ClientMessage.unsubscribe c.topic.channel).text? = .ok farewell ∧
            (start url options).textsBy i g events = [request, farewell] ∧
              events = before ++ .tearDown i :: after ∧
                (start url options).textsBy i g before = [request] ∧
                  ((start url options).run before).queuedIn (.tearDown i) g = [.text farewell] ∧
                    ∀ g, (((start url options).run before).step (.tearDown i)).queuedBy
                      (SessionEvent.isOf i) g after = []) := by
  cases ht : c.request.text? with
  | error e =>
    left
    rw [textsBy, List.filterMap_eq_nil_iff]
    rintro (u | -) hu
    · exact absurd hu ((silent_run hc ht).2 g u)
    · rfl
  | ok request =>
    rcases queuedBy_cases hc with hturns | ⟨-, before, d, after, rfl, hd, hturns⟩
    · rw [textsBy, hturns]
      rcases texts_of_turns hc ht g with ⟨hnone, -⟩ | hone
      · exact .inl hnone
      · exact .inr ⟨request, rfl, .inl hone⟩
    · obtain ⟨c', hc', hdc⟩ :=
        exists_alike_run (sound_run url options before) hd (.tearDown i :: after)
      rw [← run_append] at hc'
      obtain rfl := Option.some.inj (hc.symm.trans hc')
      obtain ⟨b, hb, -⟩ :=
        exists_alike_step (sound_run url options before) hd (.tearDown i)
      have hdone := queuedBy_of_not_isLive after hb
        (isLive_of_tearDown (sound_run url options before) hb)
      have hbefore := texts_of_turns hd (hdc.request_eq ▸ ht) g
      rw [← hturns] at hbefore
      rw [textsBy_tearDown hdone]
      obtain ⟨hdeparts, hstays⟩ := queuedIn_tearDown_of_subscribe hd
        (by rw [← hdc.request_eq, hr, hdc.topic_eq]) g
      by_cases hd' : d.Departs ((start url options).run before).feed.hub g
      · obtain ⟨farewell, hf, hq⟩ := hdeparts hd'
        obtain ⟨a, ha, hag⟩ := Option.map_eq_some_iff.1 hd'.2.1
        have hsent : d.sentOn = some g := hag ▸ grounded_run hd a ha
        have hone := hbefore.resolve_left fun h => h.2 hsent
        rw [← hdc.topic_eq] at hf
        refine .inr ⟨request, rfl, .inr ⟨farewell, before, after, hf, ?_, rfl, hone, hq, hdone⟩⟩
        rw [textsBy, hone, hq]
        rfl
      · rw [textsBy, hstays hd', List.filterMap_nil, List.append_nil]
        exact hbefore.imp And.left fun hone => ⟨request, rfl, .inl hone⟩

/-! ## The main theorem -/

/-- Two channels on one open connection, the first of which is to let its topic go. -/
def neighbours : List SessionEvent :=
  let book := Topic.orderBook "mkt_1" "/proto"
  let price := Topic.marketPrice "mkt_1" "/proto"
  [.openChannel book (.subscribe book.channel) { unsubscribeOnClose := true } .book,
    .openChannel price (.subscribe price.channel) {} .price, .turn 0 .stateFirst,
    .turn 1 .stateFirst, .act 1 .markOpen, .turn 0 .stateFirst, .turn 1 .stateFirst]

/-- A channel that has had no turn yet. -/
def fledgling : List SessionEvent :=
  let book := Topic.orderBook "mkt_1" "/proto"
  [.openChannel book (.subscribe book.channel) {} .book]

/-- A channel on an open connection, which is to let its topic go; the transport is there, but
no longer takes from the queue. -/
def unheard : List SessionEvent :=
  let book := Topic.orderBook "mkt_1" "/proto"
  [.openChannel book (.subscribe book.channel) { unsubscribeOnClose := true } .book,
    .turn 0 .stateFirst, .act 1 .markOpen, .turn 0 .stateFirst, .act 1 .dropOutbound]

end Session

end PushFeed
