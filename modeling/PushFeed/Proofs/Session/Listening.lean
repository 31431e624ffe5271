import Mathlib.Algebra.GroupWithZero.Nat
import PushFeed.Proofs.Channel.Listening
import PushFeed.Proofs.Session.Closing
import PushFeed.Proofs.Session.Requests
/-!
# What a session's channels listen on

Any number of channels add listeners to the same connections and take them off again.
What each has added is its own (`listenersBy_disjoint`), so the roster of one channel is
not touched by what another does, and all rosters stand along a run (`roster_run`) as
long as nobody outside takes a channel's listener off. That can be done by mistake, as a
listener's number does not say on which connection it is. What a channel holds on one
connection stands as long as this one is not taken off, whatever becomes of the others
(`tied_run`).
-/

namespace PushFeed

/-- Whether the event takes the listener off, or its mailbox away, from outside. -/
def SessionEvent.Disturbs (a : Attachment) : SessionEvent → Prop
  | .act g action => g = a.generation ∧ action.Touches a.listener
  | _ => False

namespace Session

variable {s : Session} {e : SessionEvent} {i j g : Nat} {c d : Channel} {url : String}
  {options : ChannelOptions} {events : List SessionEvent}

/-! ## Who has added which listener -/

/-- The numbers of the listeners a channel has added to a connection in a run. -/
def listenersBy (s : Session) (i g : Nat) (events : List SessionEvent) : List Nat :=
  s.collect (fun s e =>
    if e.isTurnOf i then s.feed.hub.addedOn (s.step e).feed.hub g else []) events

theorem listenersBy_concat (s : Session) (i g : Nat) (events : List SessionEvent)
    (e : SessionEvent) :
    s.listenersBy i g (events ++ [e]) = s.listenersBy i g events ++
      if e.isTurnOf i then (s.run events).feed.hub.addedOn ((s.run events).step e).feed.hub g
      else [] :=
  s.collect_concat _ events e

theorem listenersBy_of_none (hc : ((start url options).run events).channels[i]? = none)
    (g : Nat) : (start url options).listenersBy i g events = [] := by
  refine collect_of_none (fun s e hs => ?_) hc
  split
  · rename_i he
    rw [step_of_none hs (by simp [SessionEvent.isOf, he])]
    exact Hub.addedOn_of_length_eq rfl
  · rfl

/-- What an event adds is newer than all there has been. -/
theorem lt_of_mem_added {n : Nat}
    (hn : n ∈ if e.isTurnOf i then s.feed.hub.addedOn (s.step e).feed.hub g else []) :
    e.isTurnOf i = true ∧ (s.feed.hub.mailboxesOf g).length < n ∧
      n ≤ ((s.step e).feed.hub.mailboxesOf g).length := by
  by_cases he : e.isTurnOf i = true
  · rw [if_pos he] at hn
    exact ⟨he, Hub.mem_addedOn.1 hn⟩
  · rw [if_neg he] at hn
    cases hn

theorem le_of_mem_listenersBy {n : Nat} (hn : n ∈ (start url options).listenersBy i g events) :
    n ≤ (((start url options).run events).feed.hub.mailboxesOf g).length := by
  induction events using List.reverseRecOn with
  | nil => cases hn
  | append_singleton events e ih =>
    have hs := sound_run url options events
    have hlen := (step_evolves hs e).length_mailboxesOf_le hs g
    rw [listenersBy_concat] at hn
    rw [run_concat]
    rcases List.mem_append.1 hn with hold | hnew
    · have hle := ih hold
      omega
    · exact (lt_of_mem_added hnew).2.2

/-- A channel adds a listener once. -/
theorem nodup_listenersBy : ((start url options).listenersBy i g events).Nodup := by
  induction events using List.reverseRecOn with
  | nil => exact List.nodup_nil
  | append_singleton events e ih =>
    rw [listenersBy_concat]
    refine ih.append ?_ fun n hold hnew => ?_
    · split
      · exact List.nodup_range'
      · exact List.nodup_nil
    · have hle := le_of_mem_listenersBy hold
      have hlt := (lt_of_mem_added hnew).2.1
      omega

/-- **No two channels have added the same listener.** -/
theorem listenersBy_disjoint (hne : i ≠ j) :
    List.Disjoint ((start url options).listenersBy i g events)
      ((start url options).listenersBy j g events) := by
  induction events using List.reverseRecOn with
  | nil => exact List.disjoint_nil_left _
  | append_singleton events e ih =>
    intro n hi hj
    rw [listenersBy_concat] at hi hj
    rcases List.mem_append.1 hi with hi | hi <;> rcases List.mem_append.1 hj with hj | hj
    · exact ih hi hj
    · have hle := le_of_mem_listenersBy hi
      have hlt := (lt_of_mem_added hj).2.1
      omega
    · have hle := le_of_mem_listenersBy hj
      have hlt := (lt_of_mem_added hi).2.1
      omega
    · -- an event is a turn of one channel only
      have hturn := (lt_of_mem_added hi).1
      have hturn' := (lt_of_mem_added hj).1
      cases e with
      | turn channel first =>
        have heq : channel = i := by simpa [SessionEvent.isTurnOf] using hturn
        have heq' : channel = j := by simpa [SessionEvent.isTurnOf] using hturn'
        omega
      | openChannel | tearDown | getConnection | act | elapse => cases hturn

/-- A channel has added no more listeners than it has queued requests. -/
theorem length_listenersBy_le_timesQueued {text : String}
    (hc : ((start url options).run events).channels[i]? = some c)
    (ht : c.request.text? = .ok text) :
    ((start url options).listenersBy i g events).length ≤
      (start url options).timesQueued (SessionEvent.isTurnOf i) text g events := by
  unfold timesQueued
  induction events using List.reverseRecOn generalizing c with
  | nil => exact Nat.zero_le _
  | append_singleton events e ih =>
    have hs := sound_run url options events
    rw [listenersBy_concat, queuedBy_concat, List.length_append, List.count_append]
    rw [run_concat] at hc
    rcases step_cases_at hc with ⟨topic, request, opts, kind, rfl, hnone, -, -⟩ |
      ⟨d, first, rfl, hd, heq⟩ | ⟨d, rfl, hd, heq⟩ | ⟨hno, hd⟩
    · rw [listenersBy_of_none hnone]
      exact Nat.zero_le _
    · have hms := Channel.turn_moves d ((start url options).run events).feed first
      rw [← heq] at hms
      have ht' : d.request.text? = .ok text := hms.alike.request_eq ▸ ht
      obtain ⟨added, hadds, hle⟩ := hms.length_addedOn_le hs ht' g
      have hq : ((start url options).run events).queuedIn (.turn i first) g = added :=
        hadds.queuedOn_eq
      simp only [SessionEvent.isTurnOf, beq_self_eq_true, if_true, hq]
      exact Nat.add_le_add (ih hd ht') hle
    · obtain ⟨c', hc', halike⟩ := exists_alike_step hs hd (.tearDown i)
      obtain rfl := Option.some.inj (hc.symm.trans hc')
      simpa [SessionEvent.isTurnOf] using ih hd (halike.request_eq ▸ ht)
    · simpa [SessionEvent.isTurnOf_of_isOf hno] using ih hd ht

/-- A channel that cannot ask has added no listener. -/
theorem listenersBy_of_silent {error : FeedError}
    (hc : ((start url options).run events).channels[i]? = some c)
    (ht : c.request.text? = .error error) : (start url options).listenersBy i g events = [] := by
  induction events using List.reverseRecOn generalizing c with
  | nil => rfl
  | append_singleton events e ih =>
    rw [listenersBy_concat]
    rw [run_concat] at hc
    cases hd : ((start url options).run events).channels[i]? with
    | none =>
      rw [listenersBy_of_none hd, List.nil_append]
      split
      · rename_i he
        rw [step_of_none hd (by simp [SessionEvent.isOf, he])]
        exact Hub.addedOn_of_length_eq rfl
      · rfl
    | some d =>
      obtain ⟨c', hc', halike⟩ := exists_alike_step (sound_run url options events) hd e
      obtain rfl := Option.some.inj (hc.symm.trans hc')
      have ht' : d.request.text? = .error error := halike.request_eq ▸ ht
      rw [ih hd ht', List.nil_append]
      split
      · rename_i he
        refine Hub.addedOn_of_length_eq (congrArg List.length ?_)
        exact mailboxesOf_step_of_silent (by simp [SessionEvent.isOf, he]) hd ht' g
      · rfl

/-- **A channel adds one listener at most to each connection**, as it asks there once at
most. -/
theorem length_listenersBy_le (url : String) (options : ChannelOptions)
    (events : List SessionEvent) (i g : Nat) :
    ((start url options).listenersBy i g events).length ≤ 1 := by
  cases hc : ((start url options).run events).channels[i]? with
  | none =>
    rw [listenersBy_of_none hc]
    exact Nat.zero_le _
  | some c =>
    cases ht : c.request.text? with
    | ok text => exact Nat.le_trans (length_listenersBy_le_timesQueued hc ht) ((books_run hc ht).1.once g)
    | error e =>
      rw [listenersBy_of_silent hc ht]
      exact Nat.zero_le _

/-- What is added is newer than all there has been before. -/
theorem lt_of_mem_listenersBy {n : Nat} (hs : s.feed.hub.Sound)
    (hn : n ∈ s.listenersBy i g events) : (s.feed.hub.mailboxesOf g).length < n := by
  induction events using List.reverseRecOn with
  | nil => cases hn
  | append_singleton events e ih =>
    rw [listenersBy_concat] at hn
    rcases List.mem_append.1 hn with hold | hnew
    · exact ih hold
    · have hle := (run_evolves hs events).length_mailboxesOf_le hs g
      have hlt := (lt_of_mem_added hnew).2.1
      omega

/-- The number of the listener a channel has added to a connection, zero if it has added
none. -/
def listenerBy (s : Session) (i g : Nat) (events : List SessionEvent) : Nat :=
  (s.listenersBy i g events).headD 0

theorem mem_listenersBy_iff {n : Nat} :
    n ∈ (start url options).listenersBy i g events ↔
      0 < n ∧ n = (start url options).listenerBy i g events := by
  have hle := length_listenersBy_le url options events i g
  have hlt (hn : n ∈ (start url options).listenersBy i g events) : 0 < n :=
    Nat.lt_of_le_of_lt (Nat.zero_le _) (lt_of_mem_listenersBy (sound_run url options []) hn)
  unfold listenerBy
  generalize (start url options).listenersBy i g events = l at *
  match l with
  | [] => simpa using fun h => Nat.ne_of_gt h
  | [m] => simpa using hlt
  | _ :: _ :: _ => simp at hle

/-- What a channel has added it has added later on too. -/
theorem mem_listenersBy_append {n : Nat} (hn : n ∈ s.listenersBy i g events)
    (more : List SessionEvent) : n ∈ s.listenersBy i g (events ++ more) := by
  rw [listenersBy, collect_append]
  exact List.mem_append_left _ hn

/-- **What a channel holds it has added itself.** -/
theorem owned_run {a : Attachment} (hc : ((start url options).run events).channels[i]? = some c)
    (ha : c.attached = some a) :
    a.listener ∈ (start url options).listenersBy i a.generation events := by
  induction events using List.reverseRecOn generalizing c with
  | nil => simp [run, start] at hc
  | append_singleton events e ih =>
    have hs := sound_run url options events
    rw [listenersBy_concat]
    rw [run_concat] at hc
    rcases step_cases_at hc with ⟨topic, request, opts, kind, -, -, rfl, -⟩ |
      ⟨d, first, rfl, hd, heq⟩ | ⟨d, rfl, hd, heq⟩ | ⟨-, hd⟩
    · rw [(Channel.silent_opened topic request opts kind).attached_eq] at ha
      cases ha
    · have hms := Channel.turn_moves d ((start url options).run events).feed first
      rw [← heq] at hms
      simp only [SessionEvent.isTurnOf, beq_self_eq_true, if_true]
      rcases hms.attached_cases hs with hsame | hnone | ⟨b, hb, hnew⟩
      · exact List.mem_append_left _ (ih hd (hsame.symm.trans ha))
      · cases hnone.symm.trans ha
      · cases hb.symm.trans ha
        exact List.mem_append_right _ hnew
    · obtain rfl := congrArg Prod.fst heq
      refine List.mem_append_left _ (ih hd ?_)
      cases hl : d.isLive with
      | false => rwa [Channel.tearDown_of_not_isLive hl] at ha
      | true =>
        rw [(Channel.tearDown_eq hs hl).1] at ha
        cases ha
    · exact List.mem_append_left _ (ih hd ha)

/-- No two channels hold the same listener. -/
theorem attached_ne_run {a : Attachment} (hne : i ≠ j)
    (hc : ((start url options).run events).channels[i]? = some c)
    (hd : ((start url options).run events).channels[j]? = some d) (ha : c.attached = some a) :
    d.attached ≠ some a :=
  fun hb => listenersBy_disjoint hne (owned_run hc ha) (owned_run hd hb)

/-! ## Rosters along a run -/

/-- Nobody outside takes a channel's listener off its connection's list. -/
def Undisturbed (s : Session) (events : List SessionEvent) : Prop :=
  ∀ before e after, events = before ++ e :: after →
    ∀ c ∈ (s.run before).channels, ∀ a, c.attached = some a → ¬e.Disturbs a

theorem Undisturbed.of_append {more : List SessionEvent} (hu : s.Undisturbed (events ++ more)) :
    s.Undisturbed events := by
  intro before e after hsplit
  exact hu before e (after ++ more) (by rw [hsplit, List.append_assoc, List.cons_append])

theorem Undisturbed.last (hu : s.Undisturbed (events ++ [e])) {a : Attachment}
    (hc : (s.run events).channels[i]? = some c) (ha : c.attached = some a) : ¬e.Disturbs a :=
  hu events e [] rfl c (List.mem_of_getElem? hc) a ha

/-- Where nobody takes any listener off, no channel's is. -/
theorem undisturbed_of_forall (hno : ∀ e ∈ events, ∀ a, ¬e.Disturbs a) :
    s.Undisturbed events := by
  intro before e after hsplit _ _ a _
  exact hno e (by simp [hsplit]) a

/-- What is not a channel's own doing leaves its listener on the list. -/
theorem serves_step {a : Attachment} (hs : s.feed.hub.Sound) (ha : s.feed.hub.Serves a)
    (hno : ¬e.Disturbs a) (hothers : ∀ j d, e.isOf j = true → s.channels[j]? = some d →
      d.attached ≠ some a) : (s.step e).feed.hub.Serves a := by
  cases e with
  | openChannel | elapse => exact ha
  | turn channel first =>
    cases hd : s.channels[channel]? with
    | none => rwa [step, onChannel_of_none hd]
    | some d =>
      rw [step, onChannel_eq hd]
      exact (Channel.turn_moves d s.feed first).serves hs (hothers channel d (by simp) hd) ha
  | tearDown channel =>
    cases hd : s.channels[channel]? with
    | none => rwa [step, onChannel_of_none hd]
    | some d =>
      rw [step, onChannel_eq hd]
      exact Channel.serves_tearDown hs (hothers channel d (by simp) hd) ha
  | getConnection force => exact ha.congr (hs.mailboxesOf_get force)
  | act g action =>
    simp only [step, Feed.hub_onConnection]
    exact ha.act fun hg ht => hno ⟨hg, ht⟩

/-- What is not the channel's own doing leaves its listener on the list, if it is not taken
off from outside. -/
theorem serves_step_of_other {a : Attachment}
    (hc : ((start url options).run events).channels[i]? = some c) (ha : c.attached = some a)
    (hserves : ((start url options).run events).feed.hub.Serves a) (hno : e.isOf i = false)
    (hleft : ¬e.Disturbs a) :
    (((start url options).run events).step e).feed.hub.Serves a := by
  refine serves_step (sound_run url options events) hserves hleft fun j d hj hd => ?_
  refine attached_ne_run (fun hij => ?_) hc hd ha
  rw [hij, hj] at hno
  cases hno

/-- **All rosters stand at all times.** -/
theorem roster_run (hu : (start url options).Undisturbed events)
    (hc : ((start url options).run events).channels[i]? = some c) :
    Channel.Roster (fun g => (start url options).listenersBy i g events) c
      ((start url options).run events).feed.hub := by
  induction events using List.reverseRecOn generalizing i c with
  | nil => simp [run, start] at hc
  | append_singleton events e ih =>
    have hs := sound_run url options events
    have he := step_evolves hs e
    have hrosters := fun {i c} => ih (i := i) (c := c) hu.of_append
    simp only [listenersBy_concat]
    rw [run_concat] at hc ⊢
    rcases step_cases_at hc with ⟨topic, request, opts, kind, rfl, hnone, rfl, hhub⟩ |
      ⟨d, first, rfl, hd, heq⟩ | ⟨d, rfl, hd, heq⟩ | ⟨hno, hd⟩
    · have hnil : ∀ g, (start url options).listenersBy i g events = [] := listenersBy_of_none hnone
      have hsilent := Channel.silent_opened topic request opts kind
      simp only [hnil, SessionEvent.isTurnOf, Bool.false_eq_true, if_false, List.append_nil]
      exact .nil hsilent.attached_eq hsilent.sentOn_eq _
    · have hms := Channel.turn_moves d ((start url options).run events).feed first
      rw [← heq] at hms
      simp only [SessionEvent.isTurnOf, beq_self_eq_true, if_true]
      exact hms.roster hs (moored_run hd) (hrosters hd)
    · have hfeed := congrArg Prod.snd heq
      obtain rfl := congrArg Prod.fst heq
      dsimp only at hfeed
      simp only [SessionEvent.isTurnOf, Bool.false_eq_true, if_false, List.append_nil]
      rw [hfeed] at he ⊢
      cases hl : d.isLive with
      | false =>
        rw [Channel.tearDown_of_not_isLive hl]
        exact hrosters hd
      | true =>
        rw [(Channel.tearDown_eq hs hl).1]
        refine ⟨fun a ha => ?_, fun g n hn _ => ?_, fun hp => absurd rfl hp⟩
        · cases ha
        · by_cases hheld : d.attached = some ⟨g, n⟩
          · exact Channel.isOff_tearDown hs hl hheld ((hrosters hd).holds _ hheld).2
          · exact he.isOff hs ((hrosters hd).off g n hn hheld)
    · have hturn := SessionEvent.isTurnOf_of_isOf hno
      simp only [hturn, Bool.false_eq_true, if_false, List.append_nil]
      refine (hrosters hd).evolves hs he fun a ha => ?_
      exact serves_step_of_other hd ha ((hrosters hd).holds a ha).2 hno (hu.last hd ha)

/-! ## One channel on one connection -/

/-- Nobody outside takes the channel's listener off the list of one connection. -/
def UndisturbedOn (s : Session) (i g : Nat) (events : List SessionEvent) : Prop :=
  ∀ before e after, events = before ++ e :: after → ∀ c ∈ (s.run before).channels[i]?,
    ∀ n, c.attached = some ⟨g, n⟩ → ¬e.Disturbs ⟨g, n⟩

theorem UndisturbedOn.of_append {more : List SessionEvent}
    (hu : s.UndisturbedOn i g (events ++ more)) : s.UndisturbedOn i g events := by
  intro before e after hsplit
  exact hu before e (after ++ more) (by rw [hsplit, List.append_assoc, List.cons_append])

theorem Undisturbed.on (hu : s.Undisturbed events) (i g : Nat) : s.UndisturbedOn i g events :=
  fun before e after hsplit c hc _ hn => hu before e after hsplit c (List.mem_of_getElem? hc) _ hn

/-- **A channel keeps the listener on the connection it has asked on**, as long as nobody
takes this one off. -/
theorem tied_run (hu : (start url options).UndisturbedOn i g events)
    (hc : ((start url options).run events).channels[i]? = some c) :
    Channel.Tied g c ((start url options).run events).feed.hub := by
  induction events using List.reverseRecOn generalizing c with
  | nil => simp [run, start] at hc
  | append_singleton events e ih =>
    have hs := sound_run url options events
    have htied := fun {c} => ih (c := c) hu.of_append
    rw [run_concat] at hc ⊢
    rcases step_cases_at hc with ⟨topic, request, opts, kind, -, -, rfl, -⟩ |
      ⟨d, first, -, hd, heq⟩ | ⟨d, -, hd, heq⟩ | ⟨hno, hd⟩
    · have hsilent := Channel.silent_opened topic request opts kind
      exact Channel.tied_of_none hsilent.attached_eq fun _ => hsilent.sentOn_eq
    · have hms := Channel.turn_moves d ((start url options).run events).feed first
      rw [← heq] at hms
      exact hms.tied hs (htied hd)
    · have hfeed := congrArg Prod.snd heq
      obtain rfl := congrArg Prod.fst heq
      dsimp only at hfeed
      rw [hfeed]
      cases hl : d.isLive with
      | false =>
        rw [Channel.tearDown_of_not_isLive hl]
        exact htied hd
      | true =>
        rw [(Channel.tearDown_eq hs hl).1]
        exact Channel.tied_of_none rfl fun hp => absurd rfl hp
    · refine ⟨(htied hd).asked, fun n hn => ?_⟩
      exact serves_step_of_other hd hn ((htied hd).holds n hn) hno (hu events e [] rfl c hd n hn)

theorem forthright_run (hc : ((start url options).run events).channels[i]? = some c) :
    c.Forthright := by
  suffices h : c.Moored ∧ c.Forthright from h.2
  refine channel_run (P := fun c => c.Moored ∧ c.Forthright) (fun topic request opts kind => ?_)
    (fun m h => ⟨m.moored h.1, m.forthright h.1 h.2⟩)
    (fun c _ => ⟨nofun, Channel.forthright_of_none rfl⟩) hc
  have hnone := (Channel.silent_opened topic request opts kind).attached_eq
  refine ⟨fun a ha => ?_, Channel.forthright_of_none hnone⟩
  rw [hnone] at ha
  cases ha

/-! ## Where channels listen -/

/-- Those of a channel's listeners that are on a connection's list after a run. -/
def listening (s : Session) (i g : Nat) (events : List SessionEvent) : List Nat :=
  (s.listenersBy i g events).filter fun n => (s.run events).feed.hub.lists ⟨g, n⟩

/-- Whether a channel's request has gone out on a connection that it still follows. -/
def asksOn (g : Nat) (c : Channel) : Bool := c.isLive && c.sentOn == some g

theorem length_listenersOn {h : Hub} {own : Nat → List Nat} (hr : Channel.Roster own c h)
    (hm : c.Moored) (g : Nat) : (c.listenersOn g).length = if asksOn g c then 1 else 0 := by
  have hsent := hr.sentOn_eq
  unfold Channel.listenersOn asksOn
  cases ha : c.attached with
  | none =>
    rw [ha] at hsent
    cases hp : c.phase <;> simp [Channel.isLive, hp] at hsent ⊢ <;> simp [hsent]
  | some a =>
    obtain ⟨seen, hp⟩ := hm a ha
    rw [ha, hp] at hsent
    have hsent : c.sentOn = some a.generation := hsent nofun
    by_cases heq : a.generation = g <;> simp [Channel.isLive, hp, hsent, heq]

/-- The listeners that channels have on a connection's list are as many as the channels
that have asked on it and still follow it. -/
theorem sum_length_listening (hu : (start url options).Undisturbed events) (g : Nat) :
    ((List.range ((start url options).run events).channels.length).map fun i =>
        ((start url options).listening i g events).length).sum =
      ((start url options).run events).channels.countP (asksOn g) := by
  have hlengths : ((List.range ((start url options).run events).channels.length).map fun i =>
      ((start url options).listening i g events).length) =
        ((start url options).run events).channels.map fun c => if asksOn g c then 1 else 0 := by
    refine List.ext_getElem (by simp) fun i hi hi' => ?_
    have hlt : i < ((start url options).run events).channels.length := by simpa using hi
    have hc := List.getElem?_eq_getElem hlt
    have hroster := roster_run hu hc
    rw [List.getElem_map, List.getElem_map, List.getElem_range, listening,
      hroster.filter_lists nodup_listenersBy, length_listenersOn hroster (moored_run hc) g]
  rw [hlengths]
  induction ((start url options).run events).channels with
  | nil => rfl
  | cons c rest ih =>
    rw [List.map_cons, List.sum_cons, List.countP_cons, ih]
    omega

/-- **A channel listens where it has asked**, whatever happens, as long as nobody outside
takes a channel's listener off a list. Until its end it holds a listener on a connection
if and only if it remembers its request there, which is where its request has gone out
and which it still follows. That listener is on the list, and no other the channel has
ever added is. One that reports that it reconnects or has given up holds none, nor does
one that was torn down. So on each connection there are as many listeners of channels as
there are channels that have asked on it and still follow it. -/
theorem listens_where_subscribed (url : String) (options : ChannelOptions)
    (events : List SessionEvent) (hu : (start url options).Undisturbed events) :
    let s := (start url options).run events
    (∀ i c, s.channels[i]? = some c →
      (c.phase ≠ .ended → ∀ g, (∃ n, c.attached = some ⟨g, n⟩) ↔ c.sentOn = some g) ∧
      (c.phase ≠ .ended → ∀ text, c.request.text? = .ok text → ∀ g, c.sentOn = some g ↔
        0 < (start url options).timesQueued (SessionEvent.isTurnOf i) text g events ∧
          ∃ seen, c.phase = .following g seen) ∧
      (∀ a, c.attached = some a → s.feed.hub.lists a = true) ∧
      (∀ g, (start url options).listening i g events = c.listenersOn g) ∧
      (c.state = .stalled ∨ (∃ k, c.state = .reconnecting k) ∨ c.phase = .ended →
        c.attached = none)) ∧
    ∀ g, ((List.range s.channels.length).map fun i =>
        ((start url options).listening i g events).length).sum =
      s.channels.countP (asksOn g) := by
  intro s
  have hrosters := fun {i c} (hc : s.channels[i]? = some c) => roster_run hu hc
  refine ⟨fun i c hc => ⟨fun hp g => ?_, fun hp text ht g => ?_, fun a ha => ?_,
    fun g => (hrosters hc).filter_lists nodup_listenersBy, fun hstate => ?_⟩,
    sum_length_listening hu⟩
  · rw [(hrosters hc).sentOn_eq hp, Option.map_eq_some_iff]
    constructor
    · rintro ⟨n, ha⟩
      exact ⟨_, ha, rfl⟩
    · rintro ⟨⟨g', n⟩, ha, rfl⟩
      exact ⟨n, ha⟩
  · have hrecalls := recalls_run hc ht
    constructor
    · intro hsent
      refine ⟨hrecalls.asked g hsent, ?_⟩
      rcases (books_run hc ht).1.settled g hsent with hfollows | hended
      · exact hfollows
      · exact absurd hended hp
    · rintro ⟨hasked, seen, hfollows⟩
      exact hrecalls.following g seen hfollows hasked
  · exact ((hrosters hc).holds a ha).2.lists
  · by_contra ha
    obtain ⟨hstalled, hretry⟩ := forthright_run hc ha
    rcases hstate with h | ⟨k, h⟩ | h
    · exact hstalled h
    · exact hretry k h
    · refine ha ((moored_run hc).attached_of_phase fun g seen hp => ?_)
      rw [h] at hp
      cases hp

/-- Two channels ask on one connection, and somebody else listens there, too. -/
def pair : List SessionEvent :=
  let book := Topic.orderBook "mkt_1" "/proto"
  let price := Topic.marketPrice "mkt_1" "/proto"
  [.openChannel book (.subscribe book.channel) {} .book,
    .openChannel price (.subscribe price.channel) {} .price,
    .turn 0 .stateFirst, .turn 1 .stateFirst, .act 1 .markOpen, .turn 1 .stateFirst,
    .turn 0 .stateFirst, .act 1 .addListener]

theorem listens_where_subscribed_pair :
    (start "ws://localhost:4010/ws" {}).Undisturbed pair ∧
      ((List.range 2).map fun i =>
        ((start "ws://localhost:4010/ws" {}).listening i 1 pair).length).sum = 2 := by
  have hu : (start "ws://localhost:4010/ws" {}).Undisturbed pair := by
    refine undisturbed_of_forall fun e he a => ?_
    simp only [pair, List.mem_cons, List.not_mem_nil, or_false] at he
    rcases he with rfl | rfl | rfl | rfl | rfl | rfl | rfl | rfl <;>
      simp [SessionEvent.Disturbs, ConnectionAction.Touches]
  have hlen : ((start "ws://localhost:4010/ws" {}).run pair).channels.length = 2 := by
    decide +kernel
  have hasks : ((start "ws://localhost:4010/ws" {}).run pair).channels.countP (asksOn 1) = 2 := by
    decide +kernel
  have hlaw := (listens_where_subscribed "ws://localhost:4010/ws" {} pair hu).2 1
  rw [hlen, hasks] at hlaw
  exact ⟨hu, hlaw⟩

/-- Somebody listens on one connection, a channel on the next, and there the number of
the former is taken off the list. -/
def mistaken : List SessionEvent :=
  let topic := Topic.orderBook "mkt_1" "/proto"
  [.getConnection false, .act 1 .addListener, .getConnection true,
    .openChannel topic (.subscribe topic.channel) {} .book, .turn 0 .stateFirst,
    .act 2 .markOpen, .turn 0 .stateFirst, .act 2 (.removeListener 1), .turn 0 .stateFirst]

/-- A channel that calls itself subscribed holds no listener, nor is one of its own on any
list: somebody outside has taken it off. -/
theorem subscribed_without_listener :
    ((start "ws://localhost:4010/ws" {}).run mistaken).channels.map (fun c =>
        (c.attached, c.sentOn, c.phase, c.state)) =
        [(none, some 2, .following 2 .open, .subscribed)] ∧
      (start "ws://localhost:4010/ws" {}).listenersBy 0 2 mistaken = [1] ∧
      (start "ws://localhost:4010/ws" {}).listening 0 2 mistaken = [] := by
  refine ⟨?_, ?_, ?_⟩ <;> decide +kernel

end Session

end PushFeed
