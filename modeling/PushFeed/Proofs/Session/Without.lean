import PushFeed.Proofs.Channel.Without
import PushFeed.Proofs.Session.Listening
import PushFeed.Proofs.Session.Parting
import PushFeed.Proofs.Session.Stream
/-!
# A session without one of its channels

Channels do not get in each other's way. As long as the connection they work on is neither
closed nor replaced, a run from which one channel is left out — its opening, its turns and its
end — leaves all others as they would be, and they have queued the same texts
(`Session.unaffected`). Only their listeners may have other numbers, as numbers count all
listeners of a connection; what is done to listeners from outside is done to the same ones
(`SessionEvent.without`).
-/

namespace PushFeed

theorem placeWithout_inj {j i k : Nat} (hi : i ≠ j) (hk : k ≠ j) :
    placeWithout j i = placeWithout j k ↔ i = k := by
  unfold placeWithout
  split <;> split <;> omega

namespace SessionEvent

variable {j g b i : Nat} {e e' : SessionEvent}

/-- The event in a run without a channel, the `j`-th, which would have had the listener `b` of
the connection `g`: the others keep their order, and what is done to listeners of the
connection is done to the same ones. What the channel does, and what is done to its listener,
does not happen. -/
def without (j g b : Nat) : SessionEvent → Option SessionEvent
  | .turn i first => if i = j then none else some (.turn (placeWithout j i) first)
  | .tearDown i => if i = j then none else some (.tearDown (placeWithout j i))
  | .act k action => if k = g then (action.without b).map (.act k) else some (.act k action)
  | e => some e

/-- What is left of what a channel does is done by the same channel. -/
theorem isOf_without (he : e.without j g b = some e') (hi : i ≠ j) :
    e'.isOf (placeWithout j i) = e.isOf i := by
  cases e with
  | turn n first =>
    obtain ⟨hn, rfl⟩ : n ≠ j ∧ turn (placeWithout j n) first = e' := by simpa [without] using he
    simp [placeWithout_inj hn hi]
  | tearDown n =>
    obtain ⟨hn, rfl⟩ : n ≠ j ∧ tearDown (placeWithout j n) = e' := by simpa [without] using he
    simp [placeWithout_inj hn hi]
  | act n action =>
    simp only [without] at he
    split at he
    · obtain ⟨action', -, rfl⟩ := Option.map_eq_some_iff.1 he
      rfl
    · cases he
      rfl
  | openChannel | getConnection | elapse =>
    cases he
    rfl

/-- Only what the missing channel does is left out of what channels do. -/
theorem isOf_of_without (he : e.without j g b = none) (hi : i ≠ j) : e.isOf i = false := by
  cases e with
  | turn n first | tearDown n =>
    obtain rfl : n = j := by simpa [without] using he
    simpa using Ne.symm hi
  | openChannel | getConnection | act | elapse => rfl

end SessionEvent

namespace Session

variable {s s' : Session} {e : SessionEvent} {i j g b k : Nat} {c : Channel}

/-- Two sessions with the same channels, but for one that the second has not, and for its
listener. -/
structure Beside (j g b : Nat) (s s' : Session) : Prop where
  lt : j < s.channels.length
  channels_eq : s'.channels = (s.channels.eraseIdx j).map (Channel.without b)
  hub : s.feed.hub.Without g b s'.feed.hub

theorem Beside.getElem?_channels (hb : Beside j g b s s') (hi : i ≠ j) :
    s'.channels[placeWithout j i]? = (s.channels[i]?).map (Channel.without b) := by
  rw [hb.channels_eq, List.getElem?_map]
  congr 1
  unfold placeWithout
  split
  · rw [List.getElem?_eraseIdx_of_ge (by omega), Nat.sub_add_cancel (by omega)]
  · rw [List.getElem?_eraseIdx_of_lt (by omega)]

/-- What another channel does in step is done in both. -/
theorem Beside.onChannel (hb : Beside j g b s s') (hi : i ≠ j)
    (work : Channel → Feed → Channel × Feed)
    (hwork : ∀ c, s.channels[i]? = some c → Channel.InStep g b s.feed.hub s'.feed.hub
      (work c s.feed) (work (c.without b) s'.feed)) :
    Beside j g b (s.onChannel i work) (s'.onChannel (placeWithout j i) work) ∧
      ∀ k, s'.feed.hub.queuedOn (s'.onChannel (placeWithout j i) work).feed.hub k =
        s.feed.hub.queuedOn (s.onChannel i work).feed.hub k := by
  have hplace := hb.getElem?_channels hi
  cases hc : s.channels[i]? with
  | none =>
    rw [hc] at hplace
    rw [onChannel_of_none hc, onChannel_of_none hplace]
    exact ⟨hb, fun k => (Hub.Adds.refl _ k).queuedOn_eq.trans (Hub.Adds.refl _ k).queuedOn_eq.symm⟩
  | some c =>
    rw [hc] at hplace
    have hstep := hwork c hc
    rw [onChannel_eq hc, onChannel_eq hplace]
    refine ⟨⟨?_, ?_, hstep.hub⟩, fun k => ?_⟩
    · rw [List.length_set]
      exact hb.lt
    · dsimp only
      rw [hb.channels_eq, hstep.channel_eq, ← List.map_set]
      congr 1
      unfold placeWithout
      split
      · rw [List.eraseIdx_set_lt ‹j < i›]
      · rw [List.eraseIdx_set_gt (by omega)]
    · obtain ⟨added, hadds, hadds'⟩ := hstep.adds k
      exact hadds'.queuedOn_eq.trans hadds.queuedOn_eq.symm

/-- What the missing channel does is done in one only. -/
theorem Beside.onChannel_left (hb : Beside j g b s s') (work : Channel → Feed → Channel × Feed)
    (hwork : ∀ c, s.channels[j]? = some c → (work c s.feed).2.hub.Without g b s'.feed.hub) :
    Beside j g b (s.onChannel j work) s' := by
  obtain ⟨c, hc⟩ : ∃ c, s.channels[j]? = some c := ⟨_, List.getElem?_eq_getElem hb.lt⟩
  rw [onChannel_eq hc]
  refine ⟨?_, ?_, hwork c hc⟩
  · rw [List.length_set]
    exact hb.lt
  · dsimp only
    rw [List.eraseIdx_set_eq]
    exact hb.channels_eq

/-- The connection is the current one, and it is not on its way out. -/
structure Steady (s : Session) (g : Nat) : Prop where
  newest : s.feed.hub.generation = g
  live : (s.feed.hub.stateOf g).isTerminal = false

/-- What is needed of a moment for the next event to keep two sessions beside each other: all
channels work on one connection, which stands, and the one that is missing, and no other,
listens as the one that is missing. -/
structure Apart (j g b : Nat) (s : Session) : Prop where
  sound : s.feed.hub.Sound
  faithful : s.feed.Faithful
  steady : s.Steady g
  grounded : ∀ (i : Nat) (c : Channel), s.channels[i]? = some c → c.Grounded
  isOn : ∀ (i : Nat) (c : Channel), s.channels[i]? = some c → c.IsOn g
  attached : ∀ (i : Nat) (c : Channel) a, s.channels[i]? = some c → c.attached = some a →
    a.generation = g ∧ (a.listener = b ↔ i = j)

/-- Two channels are in step at the start. -/
theorem Beside.inStep (hb : Beside j g b s s') (ha : Apart j g b s) (hf : s'.feed.Faithful)
    (hi : i ≠ j) (hc : s.channels[i]? = some c) :
    Channel.InStep g b s.feed.hub s'.feed.hub (c, s.feed) (c.without b, s'.feed) where
  channel_eq := rfl
  apart a hatt :=
    let ⟨hg, hn⟩ := ha.attached i c a hc hatt
    ⟨hg, fun h => hi (hn.1 h)⟩
  hub := hb.hub
  faithful := ha.faithful
  faithful' := hf
  adds k := ⟨[], .refl _ k, .refl _ k⟩

/-- **What the missing channel does, and what is done to its listener, does not show.** -/
theorem Beside.step_left (hb : Beside j g b s s') (ha : Apart j g b s)
    (he : e.without j g b = none)
    (hown : e.isTurnOf j = true → ∀ n ∈ s.feed.hub.addedOn (s.step e).feed.hub g, n = b) :
    Beside j g b (s.step e) s' := by
  have hmissing (c : Channel) (hc : s.channels[j]? = some c) : c.IsMissing g b := by
    rintro ⟨g', n⟩ hatt
    obtain ⟨hg, hn⟩ := ha.attached j c _ hc hatt
    obtain rfl : g' = g := hg
    obtain rfl : n = b := hn.2 rfl
    rfl
  cases e with
  | turn i first =>
    obtain rfl : i = j := by simpa [SessionEvent.without] using he
    refine hb.onChannel_left (fun c feed => c.turn feed first) fun c hc => ?_
    have hadded := hown (by simp [SessionEvent.isTurnOf])
    simp only [step, onChannel_eq hc] at hadded
    exact ((Channel.turn_moves c s.feed first).unseen ha.sound hb.hub (hmissing c hc)
      (ha.grounded i c hc) (ha.isOn i c hc) ha.steady.newest ha.steady.live hadded).1
  | tearDown i =>
    obtain rfl : i = j := by simpa [SessionEvent.without] using he
    exact hb.onChannel_left Channel.tearDown fun c hc =>
      Channel.unseen_tearDown hb.hub (hmissing c hc)
  | act k action =>
    simp only [SessionEvent.without] at he
    split at he
    · rename_i hk
      subst hk
      refine ⟨hb.lt, hb.channels_eq, ?_⟩
      simp only [step, Feed.hub_onConnection]
      exact hb.hub.act_left (Option.map_eq_none_iff.1 he)
    · cases he
  | openChannel | getConnection | elapse => cases he

/-- **All else happens in both**, and what another channel does queues the same. -/
theorem Beside.step_both {e' : SessionEvent} (hb : Beside j g b s s') (ha : Apart j g b s)
    (hf : s'.feed.Faithful) (he : e.without j g b = some e')
    (hnewest : (s.step e).feed.hub.generation = g)
    (hother : e.isTurnOf j = false → b ∉ s.feed.hub.addedOn (s.step e).feed.hub g) :
    Beside j g b (s.step e) (s'.step e') ∧
      ∀ i, i ≠ j → e.isOf i = true → ∀ k, s'.queuedIn e' k = s.queuedIn e k := by
  have hquiet (hmine : ∀ i, e.isOf i = false) : ∀ i, i ≠ j → e.isOf i = true →
      ∀ k, s'.queuedIn e' k = s.queuedIn e k := by
    intro i _ h
    rw [hmine i] at h
    cases h
  cases e with
  | turn i first =>
    obtain ⟨hi, rfl⟩ : i ≠ j ∧ .turn (placeWithout j i) first = e' := by
      simpa [SessionEvent.without] using he
    have hadded := hother (by simpa [SessionEvent.isTurnOf] using hi)
    obtain ⟨hbeside, hqueued⟩ := hb.onChannel hi (fun c feed => c.turn feed first) fun c hc => by
      simp only [step, onChannel_eq hc] at hadded
      exact (hb.inStep ha hf hi hc).turn (ha.grounded i c hc) (ha.isOn i c hc) ha.steady.newest
        ha.steady.live ha.sound first hadded
    exact ⟨hbeside, fun _ _ _ => hqueued⟩
  | tearDown i =>
    obtain ⟨hi, rfl⟩ : i ≠ j ∧ .tearDown (placeWithout j i) = e' := by
      simpa [SessionEvent.without] using he
    obtain ⟨hbeside, hqueued⟩ := hb.onChannel hi Channel.tearDown fun c hc =>
      (hb.inStep ha hf hi hc).tearDown
    exact ⟨hbeside, fun _ _ _ => hqueued⟩
  | openChannel topic request opts kind =>
    cases he
    refine ⟨⟨?_, ?_, hb.hub⟩, hquiet fun _ => rfl⟩
    · simp only [step, List.length_append]
      exact Nat.lt_add_right _ hb.lt
    · have hnew : (Channel.opened topic request opts kind).1.without b =
          (Channel.opened topic request opts kind).1 := by
        rcases Channel.opened_cases topic request opts kind with heq | heq <;> rw [heq] <;> rfl
      simp only [step]
      rw [List.eraseIdx_append_of_lt_length hb.lt, List.map_append, List.map_singleton, hnew,
        hb.channels_eq]
  | getConnection force =>
    cases he
    cases force with
    | false =>
      refine ⟨⟨hb.lt, hb.channels_eq, ?_⟩, hquiet fun _ => rfl⟩
      obtain ⟨hpos, hpos'⟩ := hb.hub.generation_pos
      simp only [step, Feed.getConnection_of_pos hpos, Feed.getConnection_of_pos hpos']
      exact hb.hub
    | true =>
      -- a new connection would be newer
      simp only [step, Feed.hub_getConnection, Hub.generation_get_true, ha.steady.newest] at hnewest
      omega
  | act k action =>
    have hmine : ∀ i, (SessionEvent.act k action).isOf i = false := fun _ => rfl
    simp only [SessionEvent.without] at he
    split at he
    · rename_i hk
      subst hk
      obtain ⟨action', haction, rfl⟩ := Option.map_eq_some_iff.1 he
      refine ⟨⟨hb.lt, hb.channels_eq, ?_⟩, hquiet hmine⟩
      simp only [step, Feed.hub_onConnection]
      refine hb.hub.act haction fun hadd hnew => ?_
      subst hadd
      obtain ⟨d, _, hd, -⟩ := hb.hub.find?
      have hadded := hother rfl
      simp only [step, Feed.hub_onConnection, Hub.addedOn_addListener hd, if_true] at hadded
      rw [Hub.mailboxesOf_of_find? hd] at hnew
      exact hadded (List.mem_singleton.2 hnew)
    · rename_i hk
      cases he
      refine ⟨⟨hb.lt, hb.channels_eq, ?_⟩, hquiet hmine⟩
      simp only [step, Feed.hub_onConnection]
      exact hb.hub.act_of_ne hk
  | elapse =>
    cases he
    exact ⟨⟨hb.lt, hb.channels_eq, hb.hub⟩, hquiet fun _ => rfl⟩

/-! ## Steady runs -/

variable {url : String} {options : ChannelOptions} {events more : List SessionEvent}

/-- What stands at the end of a time in which no connection has been made has stood all the
time. -/
theorem Steady.of_append (h : (s.run (events ++ more)).Steady g) (hs : s.feed.hub.Sound)
    (hg : s.feed.hub.generation = g) : (s.run events).Steady g := by
  have hs' := (run_evolves hs events).sound hs
  have hmore := run_evolves hs' more
  have hle := (run_evolves hs events).generation_le
  have hle' := hmore.generation_le
  rw [← run_append] at hmore hle'
  rw [hg] at hle
  rw [h.newest] at hle'
  refine ⟨Nat.le_antisymm hle' hle, ?_⟩
  cases hterminal : ((s.run events).feed.hub.stateOf g).isTerminal with
  | false => rfl
  | true =>
    have hend := hmore.isTerminal hs' hle hterminal
    rw [h.live] at hend
    cases hend

theorem Steady.of_start {setup : List SessionEvent} (hsetup : setup <+: events)
    (hg : ((start url options).run setup).feed.hub.generation = g)
    (h : ((start url options).run (events ++ more)).Steady g) :
    ((start url options).run events).Steady g := by
  obtain ⟨rest, rfl⟩ := hsetup
  rw [List.append_assoc, run_append] at h
  rw [run_append]
  exact h.of_append (sound_run url options setup) hg

/-- Channels that are opened while a connection stands work on it. -/
theorem isOn_run (hs : s.feed.hub.Sound) (hnone : s.channels = []) (hpos : 0 < g)
    (hg : s.feed.hub.generation = g) (h : (s.run events).Steady g)
    (hc : (s.run events).channels[i]? = some c) : c.IsOn g := by
  induction events using List.reverseRecOn generalizing c with
  | nil =>
    rw [run, List.foldl_nil, hnone] at hc
    cases hc
  | append_singleton events e ih =>
    have hbefore := h.of_append hs hg
    have hs' := (run_evolves hs events).sound hs
    rw [run_concat] at hc
    rcases step_cases_at hc with ⟨topic, request, opts, kind, -, -, rfl, -⟩ |
      ⟨d, first, -, hd, heq⟩ | ⟨d, -, hd, heq⟩ | ⟨-, hd⟩
    · rcases Channel.phase_opened topic request opts kind with hp | hp
      · exact .inl hp
      · exact .inr (.inr hp)
    · obtain rfl := congrArg Prod.fst heq
      exact ((Channel.turn_moves d (s.run events).feed first).isOn (ih hbefore hd) hpos
        hbefore.newest hbefore.live).1
    · obtain rfl := congrArg Prod.fst heq
      cases hl : d.isLive with
      | false =>
        rw [Channel.tearDown_of_not_isLive hl]
        exact ih hbefore hd
      | true =>
        rw [(Channel.tearDown_eq hs' hl).1]
        exact .inr (.inr rfl)
    · exact ih hbefore hd

/-! ## The run without the channel -/

variable {setup before done : List SessionEvent} {topic : Topic} {request : ClientMessage}
  {opts : ChannelOptions} {kind : MessageKind}

/-- At all times of a run, what a channel holds is what it adds in the whole run. -/
theorem listener_eq_iff {a : Attachment}
    (hc : ((start url options).run events).channels[i]? = some c) (ha : c.attached = some a) :
    a.listener = (start url options).listenerBy j a.generation (events ++ more) ↔ i = j := by
  have hmem := mem_listenersBy_append (owned_run hc ha) more
  obtain ⟨hpos, heq⟩ := mem_listenersBy_iff.1 hmem
  constructor
  · intro hb
    by_contra hne
    exact listenersBy_disjoint hne hmem (mem_listenersBy_iff.2 ⟨hpos, hb⟩)
  · rintro rfl
    exact heq

/-- Who is to add the listener adds it, -/
theorem eq_listenerBy_of_mem_addedOn {n : Nat} (he : e.isTurnOf j = true)
    (hn : n ∈ ((start url options).run events).feed.hub.addedOn
      (((start url options).run events).step e).feed.hub g) :
    n = (start url options).listenerBy j g (events ++ e :: more) := by
  have hmem : n ∈ (start url options).listenersBy j g (events ++ [e]) := by
    rw [listenersBy_concat, if_pos he]
    exact List.mem_append_right _ hn
  have hall := mem_listenersBy_append hmem more
  rw [List.append_assoc] at hall
  exact (mem_listenersBy_iff.1 hall).2

/-- and nobody else does. -/
theorem listenerBy_notMem_addedOn (he : e.isTurnOf j = false) :
    (start url options).listenerBy j g (events ++ e :: more) ∉
      ((start url options).run events).feed.hub.addedOn
        (((start url options).run events).step e).feed.hub g := by
  intro hn
  obtain ⟨hlt, hle⟩ := Hub.mem_addedOn.1 hn
  have hmem := mem_listenersBy_iff.2 ⟨Nat.lt_of_le_of_lt (Nat.zero_le _) hlt, rfl⟩
  have hsplit := (start url options).collect_append (fun s e =>
    if e.isTurnOf j then s.feed.hub.addedOn (s.step e).feed.hub g else []) events (e :: more)
  have hs := sound_run url options events
  rw [listenersBy, hsplit, collect, he] at hmem
  -- the listener was added before, or it is to be added after the event
  rcases List.mem_append.1 hmem with hold | hnew
  · exact absurd (le_of_mem_listenersBy hold) (Nat.not_le.2 hlt)
  · have hlater : ((((start url options).run events).step e).feed.hub.mailboxesOf g).length < _ :=
      lt_of_mem_listenersBy ((step_evolves hs e).sound hs) hnew
    exact absurd hle (Nat.not_le.2 hlater)

/-- While a connection stands on which the first channel has been opened, all moments are such
that events keep two sessions beside each other. -/
theorem apart_run (hsetup : setup <+: events)
    (hnone : ((start url options).run setup).channels = [])
    (hg : ((start url options).run setup).feed.hub.generation = g) (hpos : 0 < g)
    (h : ((start url options).run events).Steady g) (j : Nat) (more : List SessionEvent) :
    Apart j g ((start url options).listenerBy j g (events ++ more))
      ((start url options).run events) where
  sound := sound_run url options events
  faithful := faithful_run url options events
  steady := h
  grounded i c hc := grounded_run hc
  isOn i c hc := by
    obtain ⟨rest, rfl⟩ := hsetup
    rw [run_append] at h hc
    exact isOn_run (sound_run url options setup) hnone hpos hg h hc
  attached i c a hc ha := by
    have hon : c.IsOn g := by
      obtain ⟨rest, rfl⟩ := hsetup
      rw [run_append] at h hc
      exact isOn_run (sound_run url options setup) hnone hpos hg h hc
    obtain ⟨seen, hp⟩ := moored_run hc a ha
    obtain rfl := hon.eq_of_following hp
    exact ⟨rfl, listener_eq_iff hc ha⟩

/-- Nothing is missing before the channel is there. -/
theorem listenerBy_of_none (hc : ((start url options).run events).channels[j]? = none)
    (more : List SessionEvent) :
    (start url options).listenerBy j g (events ++ more) = 0 ∨
      (((start url options).run events).feed.hub.mailboxesOf g).length <
        (start url options).listenerBy j g (events ++ more) := by
  rcases Nat.eq_zero_or_pos ((start url options).listenerBy j g (events ++ more)) with hz | hpos
  · exact .inl hz
  · right
    have hmem := mem_listenersBy_iff.2 ⟨hpos, rfl⟩
    rw [listenersBy, collect_append] at hmem
    have hnone : (start url options).listenersBy j g events = [] := listenersBy_of_none hc g
    rw [listenersBy] at hnone
    rw [hnone, List.nil_append] at hmem
    exact lt_of_mem_listenersBy (sound_run url options events) hmem

/-- When the channel is opened, it is all that is missing. -/
theorem beside_open (ha : Apart j g b ((start url options).run before)) (hpos : 0 < g)
    (hj : j = ((start url options).run before).channels.length)
    (hb : b = 0 ∨ (((start url options).run before).feed.hub.mailboxesOf g).length < b) :
    Beside j g b (((start url options).run before).step (.openChannel topic request opts kind))
      ((start url options).run before) where
  lt := by
    simp only [step, List.length_append, List.length_singleton]
    omega
  channels_eq := by
    have hsame : ∀ c ∈ ((start url options).run before).channels, c.without b = c := by
      intro c hc
      obtain ⟨i, hc⟩ := List.mem_iff_getElem?.1 hc
      refine Channel.without_of_new fun a hatt => hb.imp_right fun hlt => ?_
      have hle := le_of_mem_listenersBy (owned_run hc hatt)
      rw [(ha.attached i c a hc hatt).1] at hle
      exact Nat.lt_of_le_of_lt hle hlt
    simp only [step]
    rw [hj, List.eraseIdx_append_of_length_le (Nat.le_refl _), Nat.sub_self, List.eraseIdx_zero,
      List.tail_cons, List.append_nil, List.map_congr_left hsame, List.map_id']
  hub := by
    obtain ⟨d, hd⟩ := Hub.exists_find? hpos (Nat.le_of_eq ha.steady.newest.symm)
    refine ⟨rfl, d, d.outbound, hd, ?_⟩
    rw [Hub.mailboxesOf_of_find? hd] at hb
    rw [Connection.without_of_new hb]
    exact hd

/-- Up to then the others are where they are, and those that come later have queued nothing. -/
theorem queuedBy_placeWithout (hc : ((start url options).run events).channels[j]? = none)
    (i k : Nat) :
    (start url options).queuedBy (SessionEvent.isOf (placeWithout j i)) k events =
      (start url options).queuedBy (SessionEvent.isOf i) k events := by
  unfold placeWithout
  split
  · have hle := List.getElem?_eq_none_iff.1 hc
    rw [queuedBy_of_none (fun _ he => he) (List.getElem?_eq_none_iff.2 (by omega)),
      queuedBy_of_none (fun _ he => he) (List.getElem?_eq_none_iff.2 (by omega))]
  · rfl

/-- One more event keeps two runs beside each other. -/
theorem beside_concat {events' : List SessionEvent} (hsetup : setup <+: events)
    (hnone : ((start url options).run setup).channels = [])
    (hg : ((start url options).run setup).feed.hub.generation = g) (hpos : 0 < g)
    (h : ((start url options).run (events ++ e :: more)).Steady g)
    (hb : b = (start url options).listenerBy j g (events ++ e :: more))
    (hbeside : Beside j g b ((start url options).run events) ((start url options).run events'))
    (hqueued : ∀ i, i ≠ j → ∀ k,
      (start url options).queuedBy (SessionEvent.isOf (placeWithout j i)) k events' =
        (start url options).queuedBy (SessionEvent.isOf i) k events) :
    Beside j g b ((start url options).run (events ++ [e]))
        ((start url options).run (events' ++ (e.without j g b).toList)) ∧
      ∀ i, i ≠ j → ∀ k,
        (start url options).queuedBy (SessionEvent.isOf (placeWithout j i)) k
            (events' ++ (e.without j g b).toList) =
          (start url options).queuedBy (SessionEvent.isOf i) k (events ++ [e]) := by
  have ha := apart_run hsetup hnone hg hpos (h.of_start hsetup hg) j (e :: more)
  have hnext : ((start url options).run (events ++ [e])).Steady g := by
    rw [← List.singleton_append, ← List.append_assoc] at h
    exact h.of_start (hsetup.trans (List.prefix_append _ _)) hg
  rw [run_concat] at hnext ⊢
  rw [← hb] at ha
  cases he : e.without j g b with
  | none =>
    rw [Option.toList_none, List.append_nil]
    refine ⟨hbeside.step_left ha he fun hturn n hn => ?_, fun i hi k => ?_⟩
    · rw [hb]
      exact eq_listenerBy_of_mem_addedOn hturn hn
    · rw [queuedBy_concat, SessionEvent.isOf_of_without he hi, hqueued i hi]
      exact (List.append_nil _).symm
  | some e' =>
    rw [Option.toList_some, run_concat]
    obtain ⟨hstep, hsame⟩ := hbeside.step_both ha (faithful_run url options events') he hnext.newest
      fun hturn => hb ▸ listenerBy_notMem_addedOn hturn
    refine ⟨hstep, fun i hi k => ?_⟩
    rw [queuedBy_concat, queuedBy_concat, hqueued i hi, SessionEvent.isOf_without he hi]
    split
    · rename_i hmine
      rw [hsame i hi hmine]
    · rfl

/-- **Without the channel, the others do the same at all times.** -/
theorem beside_run (hsetup : setup <+: before)
    (hnone : ((start url options).run setup).channels = [])
    (hg : ((start url options).run setup).feed.hub.generation = g) (hpos : 0 < g)
    (hj : j = ((start url options).run before).channels.length) (done more : List SessionEvent)
    (h : ((start url options).run
      (before ++ .openChannel topic request opts kind :: (done ++ more))).Steady g)
    (hb : b = (start url options).listenerBy j g
      (before ++ .openChannel topic request opts kind :: (done ++ more))) :
    Beside j g b
        ((start url options).run (before ++ .openChannel topic request opts kind :: done))
        ((start url options).run (before ++ done.filterMap (SessionEvent.without j g b))) ∧
      ∀ i, i ≠ j → ∀ k,
        (start url options).queuedBy (SessionEvent.isOf (placeWithout j i)) k
            (before ++ done.filterMap (SessionEvent.without j g b)) =
          (start url options).queuedBy (SessionEvent.isOf i) k
            (before ++ .openChannel topic request opts kind :: done) := by
  induction done using List.reverseRecOn generalizing more with
  | nil =>
    have hsteady := h.of_start hsetup hg
    have hnot : ((start url options).run before).channels[j]? = none :=
      List.getElem?_eq_none_iff.2 (Nat.le_of_eq hj.symm)
    have ha := apart_run hsetup hnone hg hpos hsteady j
      (.openChannel topic request opts kind :: ([] ++ more))
    have hnew := listenerBy_of_none (g := g) hnot
      (.openChannel topic request opts kind :: ([] ++ more))
    rw [← hb] at ha hnew
    rw [List.filterMap_nil, List.append_nil, run_concat]
    refine ⟨beside_open ha hpos hj hnew, fun i _ k => ?_⟩
    rw [queuedBy_placeWithout hnot, queuedBy_concat]
    exact (List.append_nil _).symm
  | append_singleton done e ih =>
    have hassoc (rest : List SessionEvent) :
        before ++ .openChannel topic request opts kind :: (done ++ e :: rest) =
          (before ++ .openChannel topic request opts kind :: done) ++ e :: rest := by simp
    rw [List.append_assoc, List.singleton_append] at h hb
    obtain ⟨hbeside, hqueued⟩ := ih (e :: more) h hb
    have hfrom : setup <+: before ++ .openChannel topic request opts kind :: done :=
      hsetup.trans (List.prefix_append _ _)
    rw [hassoc] at h hb
    rw [hassoc, List.filterMap_append, ← List.append_assoc]
    have hlast : [e].filterMap (SessionEvent.without j g b) = (e.without j g b).toList := by
      cases he : e.without j g b <;> simp [he]
    rw [hlast]
    exact beside_concat hfrom hnone hg hpos h hb hbeside hqueued

/-! ## The main theorem -/

/-- **Channels do not interfere.** Take a run in which a connection is made before any channel
is opened, and is neither closed nor replaced until the end. Without one of its channels, every
other channel is in the end as it is with it — its stream, the states it has published, its
counters — and has queued the same, on each connection and in the same order. -/
theorem unaffected (url : String) (options : ChannelOptions)
    (setup before after : List SessionEvent) (topic : Topic) (request : ClientMessage)
    (opts : ChannelOptions) (kind : MessageKind) (g : Nat) (hsetup : setup <+: before)
    (hnone : ((start url options).run setup).channels = [])
    (hg : ((start url options).run setup).feed.hub.generation = g) (hpos : 0 < g)
    (h : ((start url options).run
      (before ++ .openChannel topic request opts kind :: after)).Steady g) :
    let s := start url options
    let full := before ++ .openChannel topic request opts kind :: after
    let j := (s.run before).channels.length
    let b := s.listenerBy j g full
    let rest := before ++ after.filterMap (SessionEvent.without j g b)
    ∀ i, i ≠ j →
      (s.run rest).channels[placeWithout j i]? =
          ((s.run full).channels[i]?).map (Channel.without b) ∧
        ∀ k, s.queuedBy (SessionEvent.isOf (placeWithout j i)) k rest =
          s.queuedBy (SessionEvent.isOf i) k full := by
  intro s full j b rest i hi
  have hall : after ++ [] = after := List.append_nil after
  obtain ⟨hbeside, hqueued⟩ := beside_run (b := b) hsetup hnone hg hpos rfl after []
    (hall.symm ▸ h) (by rw [hall])
  exact ⟨hbeside.getElem?_channels hi, hqueued i hi⟩

/-- The opening of a channel of prices. -/
def openPrice : SessionEvent :=
  let price := Topic.marketPrice "mkt_1" "/proto/proto_defs"
  .openChannel price (.subscribe price.channel) {} .price

/-- The opening of a channel of order books. -/
def openBook : SessionEvent :=
  let book := Topic.orderBook "mkt_1" "/proto/proto_defs"
  .openChannel book (.subscribe book.channel) { unsubscribeOnClose := true } .book

/-- A frame with prices. -/
def priceFrame : Wire.Bytes :=
  [10, 5, 109, 107, 116, 95, 49, 17, 154, 153, 153, 153, 153, 153, 217, 63, 25, 51, 51, 51, 51, 51,
    51, 227, 63, 32, 128, 226, 207, 170, 6]

/-- What becomes of two channels: the second gets its listener first, somebody from outside the
next one, and the first channel the last. The second is torn down between two frames. -/
def company : List SessionEvent :=
  [.turn 0 .stateFirst, .turn 1 .stateFirst, .act 1 .markOpen, .turn 1 .stateFirst,
    .act 1 .addListener, .turn 0 .stateFirst, .act 1 (.dispatch priceFrame), .turn 1 .stateFirst,
    .turn 0 .stateFirst, .act 1 (.removeListener 2), .tearDown 1, .act 1 (.dispatch priceFrame),
    .turn 0 .stateFirst]

theorem unaffected_company :
    let s := start "ws://localhost:4010/ws" {}
    let full := [.getConnection false, openPrice] ++ openBook :: company
    let rest := [.getConnection false, openPrice] ++
      company.filterMap (SessionEvent.without 1 1 1)
    (s.run full).Steady 1 ∧ s.listenerBy 1 1 full = 1 ∧
      ((s.run full).channels[0]?.map fun c => (c.decoded, c.attached)) = some (2, some ⟨1, 3⟩) ∧
      ((s.run rest).channels[0]?.map fun c => (c.decoded, c.attached)) = some (2, some ⟨1, 2⟩) := by
  intro s full rest
  have hsteady : (s.run full).Steady 1 := ⟨by decide +kernel, by decide +kernel⟩
  have hb : s.listenerBy 1 1 full = 1 := by decide +kernel
  have hchannel : ((s.run full).channels[0]?.map fun c => (c.decoded, c.attached)) =
      some (2, some ⟨1, 3⟩) := by decide +kernel
  obtain ⟨hsame, -⟩ := unaffected "ws://localhost:4010/ws" {} [.getConnection false]
    [.getConnection false, openPrice] company (Topic.orderBook "mkt_1" "/proto/proto_defs")
    (.subscribe "order_book_update:mkt_1") { unsubscribeOnClose := true } .book 1
    ⟨[openPrice], rfl⟩ rfl rfl Nat.one_pos hsteady 0 Nat.zero_ne_one
  change (s.run ([.getConnection false, openPrice] ++
      company.filterMap (SessionEvent.without 1 1 (s.listenerBy 1 1 full)))).channels[0]? =
    ((s.run full).channels[0]?).map (Channel.without (s.listenerBy 1 1 full)) at hsame
  rw [hb] at hsame
  refine ⟨hsteady, hb, hchannel, ?_⟩
  obtain ⟨c, hc, heq⟩ := Option.map_eq_some_iff.1 hchannel
  obtain ⟨hdecoded, hattached⟩ := Prod.mk.inj heq
  rw [hsame, hc, Option.map_some, Option.map_some, Channel.attached_without hattached]
  exact congrArg (fun n => some (n, some (Attachment.mk 1 2))) hdecoded

/-! ## Numbers from elsewhere -/

/-- Two listeners are added to a first connection, which is then replaced. -/
def supplanted : List SessionEvent :=
  [.getConnection false, .act 1 .addListener, .act 1 .addListener, .getConnection true]

/-- What becomes of a channel of order books and one of prices on the second connection, where
the number of the second listener of the first connection is used. -/
def crossed : List SessionEvent :=
  [openPrice, .turn 0 .stateFirst, .turn 1 .stateFirst, .act 2 .markOpen, .turn 0 .stateFirst,
    .turn 1 .stateFirst, .act 2 (.removeListener 2), .turn 0 .stateFirst, .turn 1 .stateFirst,
    .act 2 (.dispatch priceFrame), .turn 0 .stateFirst, .turn 1 .stateFirst]

/-- **A number may stand for another listener** where a channel is missing: taken as it is, it
takes the listener of the other channel off in the one run and nobody's in the other. -/
theorem affected_crossed :
    ((start "ws://localhost:4010/ws" {}).run supplanted).channels = [] ∧
      ((start "ws://localhost:4010/ws" {}).run supplanted).feed.hub.generation = 2 ∧
      ((start "ws://localhost:4010/ws" {}).run (supplanted ++ openBook :: crossed)).Steady 2 ∧
      (((start "ws://localhost:4010/ws" {}).run (supplanted ++ openBook :: crossed)).channels[1]?.map
        fun c => (c.subscribes, c.decoded)) = some (1, 0) ∧
      (((start "ws://localhost:4010/ws" {}).run (supplanted ++
        crossed.filterMap (SessionEvent.without 0 2 0))).channels[0]?.map
          fun c => (c.subscribes, c.decoded)) = some (1, 1) := by
  refine ⟨rfl, rfl, ⟨?_, ?_⟩, ?_, ?_⟩ <;> decide +kernel

end Session

end PushFeed
