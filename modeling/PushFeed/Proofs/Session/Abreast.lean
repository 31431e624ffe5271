import PushFeed.Proofs.Channel.Abreast
import PushFeed.Proofs.Session.Closing
import PushFeed.Proofs.Session.Requests
/-!
# Reconnecting together

A group of channels that wait with one delay and have one limit lose their connection at
one moment. From then on they are abreast (`Abreast`): all have made the same number of
attempts, or some of them are one behind and wait for the connection which the first has
forced. Every event keeps that (`Abreast.step`), so at each deadline there is one new
connection and not one for each channel. As soon as one opens, each member asks there
once and nobody forces another one (`reconnect_together`). A transport that takes no
texts any more keeps them from asking.
-/

namespace PushFeed

namespace Channel

/-- Whether the channel has yet to see a close. -/
def looks (c : Channel) : Bool :=
  match c.phase with
  | .starting | .following _ _ => true
  | .retrying _ _ | .stalled | .ended | .broken => false

theorem LooksAt.looks {c : Channel} {f : Feed} {g : Nat} (hl : c.LooksAt f g) :
    c.looks = true := by
  rcases hl with ⟨hp, -⟩ | ⟨seen, hp⟩ <;> simp [Channel.looks, hp]

/-- The deadline after the one the channel waits for, if it is to make an attempt then. -/
def laterDeadline? (c : Channel) : Option Nat :=
  match c.phase with
  | .retrying k e =>
    if k < c.limit then c.options.reconnectDelay.deadline? e.closedAt (k + 2) else none
  | _ => none

instance (c : Channel) (f : Feed) (g : Nat) : Decidable (c.LooksAt f g) :=
  match hp : c.phase with
  | .starting =>
    decidable_of_iff (f.hub.generation = g ∧ 0 < g)
      ⟨fun h => .inl ⟨hp, h⟩, fun h => h.elim (·.2) fun ⟨_, h⟩ => nomatch hp.symm.trans h⟩
  | .following g' seen =>
    decidable_of_iff (g' = g)
      ⟨fun h => .inr ⟨seen, h ▸ hp⟩, fun h => h.elim (fun h => nomatch hp.symm.trans h.1)
        fun ⟨_, h⟩ => by cases hp.symm.trans h; rfl⟩
  | .retrying _ _ | .stalled | .ended | .broken =>
    isFalse fun h => h.elim (fun h => nomatch hp.symm.trans h.1)
      fun ⟨_, h⟩ => nomatch hp.symm.trans h

end Channel

/-- How much time goes by. -/
def SessionEvent.elapsed : SessionEvent → Nat
  | .elapse milliseconds => milliseconds
  | _ => 0

namespace Session

variable {s : Session} {e : SessionEvent} {i k t g x limit : Nat} {c : Channel} {delay : Delay}
  {group : List Nat} {url : String} {options : ChannelOptions} {events : List SessionEvent}

theorem now_onChannel {work : Channel → Feed → Channel × Feed}
    (hwork : ∀ c, (work c s.feed).2.now = s.feed.now) (i : Nat) :
    (s.onChannel i work).feed.now = s.feed.now := by
  cases hc : s.channels[i]? with
  | none => rw [onChannel_of_none hc]
  | some c =>
    rw [onChannel_eq hc]
    exact hwork c

theorem now_step (s : Session) (e : SessionEvent) :
    (s.step e).feed.now = s.feed.now + e.elapsed := by
  cases e with
  | openChannel | getConnection | elapse => rfl
  | act g action => exact Feed.now_onConnection ..
  | turn channel first => exact now_onChannel (fun c => c.now_turn s.feed first) channel
  | tearDown channel => exact now_onChannel (fun c => c.now_tearDown s.feed) channel

/-- A channel stays as it is while others do something. -/
theorem channels_step_of_not (he : e.isOf i = false) (hc : s.channels[i]? = some c) :
    (s.step e).channels[i]? = some c := by
  cases e with
  | openChannel =>
    have hlt := (List.getElem?_eq_some_iff.1 hc).1
    rw [step, List.getElem?_append_left hlt]
    exact hc
  | getConnection | act | elapse => exact hc
  | turn channel | tearDown channel =>
    have hne : channel ≠ i := by simpa using he
    rwa [step, getElem?_onChannel_of_ne hne]

/-! ## What may happen meanwhile -/

/-- Whether an attempt of a channel is due. -/
def isDueAt (s : Session) (i : Nat) : Bool :=
  (s.channels[i]?).any fun c => c.deadline?.any fun deadline => decide (deadline ≤ s.feed.now)

/-- A group of channels with one delay and one limit is about to see that the newest
connection has closed. -/
structure Bereft (group : List Nat) (delay : Delay) (limit : Nat) (s : Session) : Prop where
  nonempty : group ≠ []
  positive : 0 < delay.milliseconds.toNat
  pos : 0 < s.feed.hub.generation
  gone : (s.feed.hub.stateOf s.feed.hub.generation).isTerminal = true
  members : ∀ i ∈ group, ∃ c ∈ s.channels[i]?, c.LooksAt s.feed s.feed.hub.generation ∧
    c.options.reconnectDelay = delay ∧ c.limit = limit

/-- The event leaves the group to itself. -/
structure Spares (group : List Nat) (s : Session) (e : SessionEvent) : Prop where
  /-- It ends no member. -/
  kept : ∀ i ∈ group, e.isTearDownOf i = false
  /-- It makes no connection, unless it is a member's turn. -/
  alone : (∀ i ∈ group, e.isTurnOf i = false) →
    (s.step e).feed.hub.generation = s.feed.hub.generation

/-- The event may happen while the group reconnects. -/
structure Orderly (group : List Nat) (s : Session) (e : SessionEvent) : Prop where
  spares : Spares group s e
  /-- Time goes by only when all members have seen the close. -/
  seen : 0 < e.elapsed → ∀ i ∈ group, ∀ c ∈ s.channels[i]?, c.looks = false
  /-- No second deadline of a member goes by while it has had no turn at the first. -/
  punctual : 0 < e.elapsed → ∀ i ∈ group, ∀ c ∈ s.channels[i]?,
    ∀ deadline ∈ c.laterDeadline?, s.feed.now + e.elapsed < deadline
  /-- The newest connection stays as it is between the first and the last turn at one
  deadline. -/
  still : (∃ i ∈ group, s.isDueAt i = true) → (∃ i ∈ group, s.isDueAt i = false) →
    (∀ i ∈ group, e.isTurnOf i = false) →
    (s.step e).feed.hub.stateOf s.feed.hub.generation =
      s.feed.hub.stateOf s.feed.hub.generation

/-- The group reconnects in these events, and no connection opens. -/
def Reconnects (group : List Nat) : Session → List SessionEvent → Prop
  | _, [] => True
  | s, e :: rest =>
    Orderly group s e ∧
      (s.step e).feed.hub.stateOf (s.step e).feed.hub.generation ≠ .open ∧
      Reconnects group (s.step e) rest

/-- Connection `x` stays open and takes texts in these events, and the group is left to
itself. -/
def Remains (group : List Nat) (x : Nat) : Session → List SessionEvent → Prop
  | s, [] => s.feed.hub.takesTexts x = true
  | s, e :: rest =>
    s.feed.hub.takesTexts x = true ∧ Spares group s e ∧ Remains group x (s.step e) rest

/-! All of this can be evaluated. -/

instance (group : List Nat) (delay : Delay) (limit : Nat) (s : Session) :
    Decidable (Bereft group delay limit s) :=
  decidable_of_iff (group ≠ [] ∧ 0 < delay.milliseconds.toNat ∧ 0 < s.feed.hub.generation ∧
      (s.feed.hub.stateOf s.feed.hub.generation).isTerminal = true ∧
      ∀ i ∈ group, ∃ c ∈ s.channels[i]?, c.LooksAt s.feed s.feed.hub.generation ∧
        c.options.reconnectDelay = delay ∧ c.limit = limit)
    ⟨fun ⟨hne, hd, hpos, hgone, hm⟩ => ⟨hne, hd, hpos, hgone, hm⟩,
      fun h => ⟨h.nonempty, h.positive, h.pos, h.gone, h.members⟩⟩

instance (group : List Nat) (s : Session) (e : SessionEvent) : Decidable (Spares group s e) :=
  decidable_of_iff ((∀ i ∈ group, e.isTearDownOf i = false) ∧
      ((∀ i ∈ group, e.isTurnOf i = false) →
        (s.step e).feed.hub.generation = s.feed.hub.generation))
    ⟨fun h => ⟨h.1, h.2⟩, fun h => ⟨h.kept, h.alone⟩⟩

instance (group : List Nat) (s : Session) (e : SessionEvent) : Decidable (Orderly group s e) :=
  decidable_of_iff (Spares group s e ∧
      (0 < e.elapsed → ∀ i ∈ group, ∀ c ∈ s.channels[i]?, c.looks = false) ∧
      (0 < e.elapsed → ∀ i ∈ group, ∀ c ∈ s.channels[i]?, ∀ deadline ∈ c.laterDeadline?,
        s.feed.now + e.elapsed < deadline) ∧
      ((∃ i ∈ group, s.isDueAt i = true) → (∃ i ∈ group, s.isDueAt i = false) →
        (∀ i ∈ group, e.isTurnOf i = false) →
        (s.step e).feed.hub.stateOf s.feed.hub.generation =
          s.feed.hub.stateOf s.feed.hub.generation))
    ⟨fun ⟨hspares, hseen, hpunctual, hstill⟩ => ⟨hspares, hseen, hpunctual, hstill⟩,
      fun h => ⟨h.spares, h.seen, h.punctual, h.still⟩⟩

/-- Whether a group reconnects in these events can be decided event by event. -/
def decideReconnects (group : List Nat) :
    ∀ (s : Session) (events : List SessionEvent), Decidable (Reconnects group s events)
  | _, [] => isTrue trivial
  | s, e :: rest =>
    have := decideReconnects group (s.step e) rest
    inferInstanceAs (Decidable (_ ∧ _ ∧ _))

/-- Whether a connection remains can be decided event by event. -/
def decideRemains (group : List Nat) (x : Nat) :
    ∀ (s : Session) (events : List SessionEvent), Decidable (Remains group x s events)
  | s, [] => inferInstanceAs (Decidable (s.feed.hub.takesTexts x = true))
  | s, e :: rest =>
    have := decideRemains group x (s.step e) rest
    inferInstanceAs (Decidable (_ ∧ _ ∧ _))

instance (group : List Nat) (s : Session) (events : List SessionEvent) :
    Decidable (Reconnects group s events) :=
  decideReconnects group s events

instance (group : List Nat) (x : Nat) (s : Session) (events : List SessionEvent) :
    Decidable (Remains group x s events) :=
  decideRemains group x s events

/-! ## Being abreast -/

/-- The channel has made `k` attempts after a close it saw at `t`, the last of which left
connection `x`, and no more than one deadline has gone by since. -/
structure Level (t x k now : Nat) (c : Channel) : Prop where
  phase_eq : c.phase = c.phaseAfter t x k
  early : c.Early t (k + 1) now

/-- The channel is to make the attempt that others have made already, or to see the close
that others have seen. -/
def Behind (t g : Nat) : Nat → Channel → Feed → Prop
  | 0, c, f => c.LooksAt f g ∧ c.Hopeful ∧ f.now = t
  | k + 1, c, f =>
    c.phase = .retrying (k + 1) ⟨t, g + k, g + k⟩ ∧ f.hub.stateOf (g + k + 1) = .connecting ∧
      c.Early t (k + 1) f.now

/-- All members of the group have made `k` attempts, or `k` attempts and some of them one
less. -/
structure Abreast (group : List Nat) (delay : Delay) (limit t g k : Nat) (s : Session) :
    Prop where
  sound : s.feed.hub.Sound
  positive : 0 < delay.milliseconds.toNat
  pos : 0 < g
  le : k ≤ limit
  generation_eq : s.feed.hub.generation = g + k
  gone : (s.feed.hub.stateOf g).isTerminal = true
  /-- The deadline of the last attempt has gone by. -/
  since : 0 < k → ∃ d, delay.deadline? t (k + 1) = some d ∧ d ≤ s.feed.now
  /-- Somebody has made it. -/
  lead : 0 < k → ∃ i ∈ group, ∃ c, s.channels[i]? = some c ∧
    c.options.reconnectDelay = delay ∧ c.limit = limit ∧ Level t (g + k) k s.feed.now c
  members : ∀ i ∈ group, ∃ c, s.channels[i]? = some c ∧ c.options.reconnectDelay = delay ∧
    c.limit = limit ∧ (Level t (g + k) k s.feed.now c ∨ Behind t g k c s.feed)

theorem Level.congr {c' : Channel} {now : Nat} (hl : Level t x k now c) (hp : c'.phase = c.phase)
    (ho : c'.options = c.options) : Level t x k now c' where
  phase_eq := by rw [hp, hl.phase_eq, Channel.phaseAfter_congr ho]
  early := hl.early.congr ho

/-- Whether an attempt is due does not depend on who asks. -/
theorem isDueAt_of_retrying {j : Nat} {ep : Episode} (hc : s.channels[i]? = some c)
    (hp : c.phase = .retrying j ep) :
    s.isDueAt i = true ↔
      ∃ d, c.options.reconnectDelay.deadline? ep.closedAt (j + 1) = some d ∧ d ≤ s.feed.now := by
  simp [isDueAt, hc, Channel.deadline?, hp, Option.any_eq_true]

theorem isDueAt_of_not_retrying (hc : s.channels[i]? = some c)
    (hp : ∀ j ep, c.phase ≠ .retrying j ep) : s.isDueAt i = false := by
  have hnone : c.deadline? = none := by
    unfold Channel.deadline?
    split
    · rename_i j ep h
      exact absurd h (hp j ep)
    · rfl
  simp [isDueAt, hc, hnone]

/-- Who is level is not due before the next deadline. -/
theorem Level.isDueAt {now : Nat} (hl : Level t x k now c) (hc : s.channels[i]? = some c)
    (hnot : c.Early t k s.feed.now) : s.isDueAt i = false := by
  cases hp : c.phase with
  | retrying j ep =>
    obtain ⟨hk, rfl, rfl, d, hd⟩ := Channel.retrying_of_phaseAfter (hl.phase_eq.symm.trans hp)
    rw [Bool.eq_false_iff, Ne, isDueAt_of_retrying hc hp]
    rintro ⟨d', hd', hdue⟩
    have hlt := hnot hk d' hd'
    omega
  | starting | following | stalled | ended | broken =>
    exact isDueAt_of_not_retrying hc fun j ep h => nomatch hp.symm.trans h

/-- Who is level waits for the next attempt if there is one. -/
theorem Level.retrying {now : Nat} (hl : Level t x k now c) (hk : k < c.limit) {d : Nat}
    (hd : c.options.reconnectDelay.deadline? t (k + 2) = some d) :
    c.phase = .retrying (k + 1) ⟨t, x, x⟩ :=
  hl.phase_eq.trans (Channel.phaseAfter_of_deadline hk hd x)

/-- No second deadline of a member goes by. -/
theorem Orderly.early (he : Orderly group s e) (hi : i ∈ group) (hc : s.channels[i]? = some c)
    (hp : c.phase = .retrying (k + 1) ⟨t, x, x⟩) (hearly : c.Early t (k + 1) s.feed.now) :
    c.Early t (k + 1) (s.step e).feed.now := by
  intro hk d hd
  rw [now_step]
  rcases Nat.eq_zero_or_pos e.elapsed with hz | hpos
  · rw [hz]
    exact hearly hk d hd
  · refine he.punctual hpos i hi c hc d ?_
    simp only [Channel.laterDeadline?, hp]
    rw [if_pos hk]
    exact hd

/-! ## Events that are no member's -/

theorem Level.step (hl : Level t x k s.feed.now c) (he : Orderly group s e) (hi : i ∈ group)
    (hc : s.channels[i]? = some c) : Level t x k (s.step e).feed.now c := by
  refine ⟨hl.phase_eq, fun hk d hd => ?_⟩
  -- an earlier deadline is there as well, so it is the one the channel waits for
  obtain ⟨d', hd', -⟩ := Delay.exists_deadline?_le hd (Nat.le_succ (k + 2))
  exact he.early hi hc (hl.retrying (by omega) hd') hl.early hk d hd

/-- Who is behind with an attempt is due. -/
theorem Abreast.isDueAt_of_behind (ha : Abreast group delay limit t g (k + 1) s)
    (hc : s.channels[i]? = some c) (hdelay : c.options.reconnectDelay = delay)
    (hb : Behind t g (k + 1) c s.feed) : s.isDueAt i = true := by
  obtain ⟨d, hd, hdue⟩ := ha.since (Nat.succ_pos k)
  rw [isDueAt_of_retrying hc hb.1, hdelay]
  exact ⟨d, hd, hdue⟩

/-- While some are behind, the newest connection stays as it is: they are due, and who
was first is not. -/
theorem Abreast.stateOf_step_of_behind (ha : Abreast group delay limit t g (k + 1) s)
    (he : Orderly group s e) (hno : ∀ i ∈ group, e.isTurnOf i = false) (hi : i ∈ group)
    (hc : s.channels[i]? = some c) (hdelay : c.options.reconnectDelay = delay)
    (hlimit : c.limit = limit) (hb : Behind t g (k + 1) c s.feed) :
    (s.step e).feed.hub.stateOf (g + k + 1) = .connecting := by
  obtain ⟨j, hj, c', hc', hdelay', hlimit', hl⟩ := ha.lead (Nat.succ_pos k)
  have hlate := ha.isDueAt_of_behind hc hdelay hb
  have hfirst : s.isDueAt j = false := by
    refine hl.isDueAt hc' fun hk d hd => ?_
    rw [hdelay', ← hdelay] at hd
    exact hb.2.2 (by omega) d hd
  have hstill := he.still ⟨i, hi, hlate⟩ ⟨j, hj, hfirst⟩ hno
  rw [ha.generation_eq, ← Nat.add_assoc] at hstill
  rw [hstill]
  exact hb.2.1

/-- **What is not a member's doing leaves the group abreast.** -/
theorem Abreast.step_of_other (ha : Abreast group delay limit t g k s)
    (he : Orderly group s e) (hno : ∀ i ∈ group, e.isTurnOf i = false) :
    Abreast group delay limit t g k (s.step e) := by
  have hevolves := step_evolves ha.sound e
  have hgen := he.spares.alone hno
  have hnow := now_step s e
  have hkept : ∀ i ∈ group, ∀ c, s.channels[i]? = some c → (s.step e).channels[i]? = some c := by
    intro i hi c hc
    refine channels_step_of_not ?_ hc
    rw [SessionEvent.isOf, hno i hi, he.spares.kept i hi]
    rfl
  refine ⟨hevolves.sound ha.sound, ha.positive, ha.pos, ha.le, hgen.trans ha.generation_eq,
    hevolves.isTerminal ha.sound ?_ ha.gone, fun hk => ?_, fun hk => ?_, fun i hi => ?_⟩
  · rw [ha.generation_eq]
    omega
  · obtain ⟨d, hd, hle⟩ := ha.since hk
    exact ⟨d, hd, by omega⟩
  · obtain ⟨i, hi, c, hc, hdelay, hlimit, hl⟩ := ha.lead hk
    exact ⟨i, hi, c, hkept i hi c hc, hdelay, hlimit, hl.step he hi hc⟩
  · obtain ⟨c, hc, hdelay, hlimit, hl | hb⟩ := ha.members i hi
    · exact ⟨c, hkept i hi c hc, hdelay, hlimit, .inl (hl.step he hi hc)⟩
    · refine ⟨c, hkept i hi c hc, hdelay, hlimit, .inr ?_⟩
      cases k with
      | zero =>
        obtain ⟨hlooks, hhopeful, htime⟩ := hb
        refine ⟨?_, hhopeful, ?_⟩
        · rcases hlooks with ⟨hp, heq, hpos⟩ | hp
          · exact .inl ⟨hp, hgen.trans heq, hpos⟩
          · exact .inr hp
        · -- no time goes by while somebody looks
          have hz : e.elapsed = 0 := by
            by_contra hne
            have hlook := he.seen (by omega) i hi c hc
            rw [hlooks.looks] at hlook
            cases hlook
          omega
      | succ k =>
        have hconnecting := ha.stateOf_step_of_behind he hno hi hc hdelay hlimit hb
        exact ⟨hb.1, hconnecting, he.early hi hc hb.1 hb.2.2⟩

/-! ## Turns of members -/

/-- A turn that leaves the connections alone and after which the member is level. -/
theorem Abreast.of_turn {c' : Channel} {f' : Feed} (ha : Abreast group delay limit t g k s)
    (hi : i ∈ group) (hc : s.channels[i]? = some c) (hdelay : c.options.reconnectDelay = delay)
    (hlimit : c.limit = limit) (hs' : f'.hub.Sound) (hq : s.feed.hub.Quiet f'.hub)
    (hnow : f'.now = s.feed.now) (ho : c'.options = c.options)
    (hl : Level t (g + k) k s.feed.now c') :
    Abreast group delay limit t g k { s with feed := f', channels := s.channels.set i c' } := by
  have hlt := (List.getElem?_eq_some_iff.1 hc).1
  have hself : (s.channels.set i c')[i]? = some c' := List.getElem?_set_self hlt
  have hdelay' : c'.options.reconnectDelay = delay := by rw [ho, hdelay]
  have hlimit' : c'.limit = limit := (Channel.limit_congr ho).trans hlimit
  refine ⟨hs', ha.positive, ha.pos, ha.le, hq.generation_eq.trans ha.generation_eq, ?_,
    fun hk => ?_, fun hk => ⟨i, hi, c', hself, hdelay', hlimit', by rwa [hnow]⟩, fun j hj => ?_⟩
  · rw [hq.stateOf_eq]
    exact ha.gone
  · rw [hnow]
    exact ha.since hk
  · by_cases heq : i = j
    · subst heq
      exact ⟨c', hself, hdelay', hlimit', .inl (by rwa [hnow])⟩
    · obtain ⟨d, hd, hdelay, hlimit, hmember⟩ := ha.members j hj
      refine ⟨d, by rwa [List.getElem?_set_ne heq], hdelay, hlimit, ?_⟩
      rw [hnow]
      refine hmember.imp_right fun hb => ?_
      cases k with
      | zero =>
        obtain ⟨hlooks, hhopeful, htime⟩ := hb
        refine ⟨?_, hhopeful, hnow.trans htime⟩
        rcases hlooks with ⟨hp, hgen, hpos⟩ | hp
        · exact .inl ⟨hp, hq.generation_eq.trans hgen, hpos⟩
        · exact .inr hp
      | succ k =>
        obtain ⟨hp, hconnecting, hearly⟩ := hb
        refine ⟨hp, (hq.stateOf_eq _).trans hconnecting, ?_⟩
        rw [hnow]
        exact hearly

/-- Where the attempt of a member that is level is due, nobody is behind. -/
theorem Abreast.level_of_due {d : Nat} (ha : Abreast group delay limit t g k s)
    (hd : delay.deadline? t (k + 2) = some d) (hdue : d ≤ s.feed.now) (hk : k < limit)
    (hi : i ∈ group) :
    ∃ c, s.channels[i]? = some c ∧ c.options.reconnectDelay = delay ∧ c.limit = limit ∧
      Level t (g + k) k s.feed.now c := by
  obtain ⟨c, hc, hdelay, hlimit, hl | hb⟩ := ha.members i hi
  · exact ⟨c, hc, hdelay, hlimit, hl⟩
  · exfalso
    cases k with
    | zero =>
      have htime := hb.2.2
      have hlt := Delay.lt_of_deadline? hd ha.positive (Nat.succ_pos 1)
      omega
    | succ k =>
      have hlt := hb.2.2 (by omega) d (by rw [hdelay]; exact hd)
      omega

/-- **The first member whose attempt falls due makes the next connection**, and all others
are behind then. -/
theorem Abreast.force {d : Nat} (ha : Abreast group delay limit t g k s) (hi : i ∈ group)
    (hc : s.channels[i]? = some c) (hdelay : c.options.reconnectDelay = delay)
    (hlimit : c.limit = limit) (hl : Level t (g + k) k s.feed.now c) (hk : k < limit)
    (hd : delay.deadline? t (k + 2) = some d) (hdue : d ≤ s.feed.now)
    (hopen : s.feed.hub.stateOf s.feed.hub.generation ≠ .open) (first : Precedence) :
    Abreast group delay limit t g (k + 1) (s.step (.turn i first)) := by
  have hlt := (List.getElem?_eq_some_iff.1 hc).1
  have hms := Channel.turn_moves c s.feed first
  have hnow := Channel.now_turn c s.feed first
  have ho := hms.alike.options_eq
  have hpos := ha.pos
  have hgen := ha.generation_eq
  have hd' : c.options.reconnectDelay.deadline? t (k + 2) = some d := by rw [hdelay]; exact hd
  rw [hgen] at hopen
  obtain ⟨hphase, hhub⟩ := Channel.turn_of_due ha.sound (hl.retrying (by omega) hd') (by omega) hgen
    (by omega) hd' hdue hopen hl.early first
  have hmade : (c.turn s.feed first).2.hub.stateOf (g + k + 1) = .connecting := by
    rw [hhub, Hub.stateOf, ha.sound.find?_get_true, hgen, if_pos rfl]
    rfl
  rw [step, onChannel_eq hc]
  generalize hr : c.turn s.feed first = r at hms hnow ho hphase hhub hmade
  obtain ⟨c', f'⟩ := r
  dsimp only at hnow ho hphase hhub hmade ⊢
  have hself : (s.channels.set i c')[i]? = some c' := List.getElem?_set_self hlt
  have hdelay' : c'.options.reconnectDelay = delay := by rw [ho, hdelay]
  have hlimit' : c'.limit = limit := (Channel.limit_congr ho).trans hlimit
  have hlevel : Level t (g + (k + 1)) (k + 1) f'.now c' :=
    ⟨hphase.trans (Channel.phaseAfter_congr ho ..).symm, hnow ▸ hl.early.succ.congr ho⟩
  refine ⟨hms.evolves.sound ha.sound, ha.positive, ha.pos, hk, ?_, ?_, fun _ => ⟨d, hd, ?_⟩,
    fun _ => ⟨i, hi, c', hself, hdelay', hlimit', hlevel⟩, fun j hj => ?_⟩
  · rw [hhub, Hub.generation_get_true, hgen]
    omega
  · exact hms.evolves.isTerminal ha.sound (by omega) ha.gone
  · exact Nat.le_trans hdue (Nat.le_of_eq hnow.symm)
  · by_cases heq : i = j
    · subst heq
      exact ⟨c', hself, hdelay', hlimit', .inl hlevel⟩
    · obtain ⟨b, hb, hbdelay, hblimit, hbl⟩ := ha.level_of_due hd hdue hk hj
      refine ⟨b, by rwa [List.getElem?_set_ne heq], hbdelay, hblimit, .inr ⟨?_, hmade, ?_⟩⟩
      · exact hbl.retrying (by omega) (by rw [hbdelay]; exact hd)
      · rw [hnow]
        exact hbl.early

/-- **A member's turn leaves the group abreast.** -/
theorem Abreast.turn (ha : Abreast group delay limit t g k s) (hi : i ∈ group)
    (hopen : s.feed.hub.stateOf s.feed.hub.generation ≠ .open) (first : Precedence) :
    ∃ k', Abreast group delay limit t g k' (s.step (.turn i first)) := by
  obtain ⟨c, hc, hdelay, hlimit, hmember⟩ := ha.members i hi
  have hms := Channel.turn_moves c s.feed first
  have hs' := hms.evolves.sound ha.sound
  have hnow := Channel.now_turn c s.feed first
  have ho := hms.alike.options_eq
  have hgen := ha.generation_eq
  have hpos := ha.pos
  have hstep : s.step (.turn i first) =
      { s with feed := (c.turn s.feed first).2,
               channels := s.channels.set i (c.turn s.feed first).1 } :=
    onChannel_eq hc fun c feed => c.turn feed first
  rcases hmember with hl | hb
  · by_cases hnot : c.Early t k s.feed.now
    · rw [hgen] at hopen
      obtain ⟨hphase, hhub⟩ := Channel.turn_of_wait hl.phase_eq hopen hnot first
      refine ⟨k, ?_⟩
      rw [hstep]
      refine ha.of_turn hi hc hdelay hlimit hs' ?_ hnow ho (hl.congr hphase ho)
      rw [hhub]
      exact .refl _
    · simp only [Channel.Early, not_forall, Nat.not_lt] at hnot
      obtain ⟨hk, d, hd, hdue⟩ := hnot
      rw [hdelay] at hd
      rw [hlimit] at hk
      exact ⟨k + 1, ha.force hi hc hdelay hlimit hl hk hd hdue hopen first⟩
  · refine ⟨k, ?_⟩
    rw [hstep]
    cases k with
    | zero =>
      obtain ⟨hlooks, hhopeful, rfl⟩ := hb
      have hnot := Channel.early_self (hdelay.symm ▸ ha.positive) s.feed.now 0
      obtain ⟨hphase, hq⟩ :=
        Channel.turn_of_lost hlooks hhopeful hgen hpos ha.gone hnot first
      refine ha.of_turn hi hc hdelay hlimit hs' hq hnow ho ⟨?_, hnot.succ.congr ho⟩
      rw [hphase, Channel.phaseAfter_congr ho]
      rfl
    | succ k =>
      obtain ⟨hp, hconnecting, hearly⟩ := hb
      obtain ⟨d, hd, hdue⟩ := ha.since (Nat.succ_pos k)
      have hle := ha.le
      obtain ⟨hphase, hhub⟩ := Channel.turn_of_late hp (by omega) hgen (by omega)
        (by rw [hdelay]; exact hd) hdue hconnecting (by omega) hearly first
      refine ha.of_turn hi hc hdelay hlimit hs' ?_ hnow ho ⟨?_, hearly.succ.congr ho⟩
      · rw [hhub]
        exact .refl _
      · rw [hphase, Channel.phaseAfter_congr ho]

/-- **Every event leaves the group abreast.** -/
theorem Abreast.step (ha : Abreast group delay limit t g k s) (he : Orderly group s e)
    (hopen : s.feed.hub.stateOf s.feed.hub.generation ≠ .open) :
    ∃ k', Abreast group delay limit t g k' (s.step e) := by
  by_cases hturn : ∀ i ∈ group, e.isTurnOf i = false
  · exact ⟨k, ha.step_of_other he hturn⟩
  · simp only [not_forall, Bool.not_eq_false] at hturn
    obtain ⟨i, hi, hturn⟩ := hturn
    cases e with
    | turn channel first =>
      obtain rfl : channel = i := by simpa [SessionEvent.isTurnOf] using hturn
      exact ha.turn hi hopen first
    | openChannel | tearDown | getConnection | act | elapse => cases hturn

theorem Abreast.run (ha : Abreast group delay limit t g k s)
    (hopen : s.feed.hub.stateOf s.feed.hub.generation ≠ .open) (hr : Reconnects group s events) :
    ∃ k', Abreast group delay limit t g k' (s.run events) ∧
      (s.run events).feed.hub.stateOf (s.run events).feed.hub.generation ≠ .open := by
  induction events generalizing s k with
  | nil => exact ⟨k, ha, hopen⟩
  | cons e events ih =>
    obtain ⟨he, hopen', hr⟩ := hr
    obtain ⟨k', ha'⟩ := ha.step he hopen
    exact ih ha' hopen' hr

/-! ## How many connections there are -/

/-- A group that is about to lose its connection is abreast. -/
theorem Bereft.abreast (hb : Bereft group delay limit s) (hs : s.feed.hub.Sound)
    (hhopeful : ∀ (i : Nat) (c : Channel), s.channels[i]? = some c → c.Hopeful) :
    Abreast group delay limit s.feed.now s.feed.hub.generation 0 s where
  sound := hs
  positive := hb.positive
  pos := hb.pos
  le := Nat.zero_le _
  generation_eq := rfl
  gone := hb.gone
  since h := absurd h (Nat.lt_irrefl 0)
  lead h := absurd h (Nat.lt_irrefl 0)
  members i hi := by
    obtain ⟨c, hc, hlooks, hdelay, hlimit⟩ := hb.members i hi
    exact ⟨c, hc, hdelay, hlimit, .inr ⟨hlooks, hhopeful i c hc, rfl⟩⟩

/-- All members have seen the close, and none has an attempt that is due. -/
def Settled (group : List Nat) (s : Session) : Prop :=
  ∀ i ∈ group, s.isDueAt i = false ∧ ∀ c ∈ s.channels[i]?, c.looks = false

instance (group : List Nat) (s : Session) : Decidable (Settled group s) :=
  inferInstanceAs (Decidable (∀ i ∈ group, _ ∧ _))

/-- Where all have had their turn, all are level. -/
theorem Abreast.level_of_settled (ha : Abreast group delay limit t g k s)
    (hsettled : Settled group s) (hi : i ∈ group) :
    ∃ c, s.channels[i]? = some c ∧ c.options.reconnectDelay = delay ∧ c.limit = limit ∧
      Level t (g + k) k s.feed.now c := by
  obtain ⟨hdue, hlook⟩ := hsettled i hi
  obtain ⟨c, hc, hdelay, hlimit, hl | hb⟩ := ha.members i hi
  · exact ⟨c, hc, hdelay, hlimit, hl⟩
  · exfalso
    cases k with
    | zero =>
      have hnone := hlook c hc
      rw [hb.1.looks] at hnone
      cases hnone
    | succ k =>
      have hlate := ha.isDueAt_of_behind hc hdelay hb
      rw [hdue] at hlate
      cases hlate

/-- **There is one new connection for each deadline that has gone by.** -/
theorem Abreast.eq_of_settled {n : Nat} (ha : Abreast group delay limit t g k s)
    (hne : group ≠ []) (hn : n ≤ limit)
    (hpassed : 0 < n → ∃ d, delay.deadline? t (n + 1) = some d ∧ d ≤ s.feed.now)
    (hnot : n < limit → ∀ d, delay.deadline? t (n + 2) = some d → s.feed.now < d)
    (hsettled : Settled group s) : k = n := by
  obtain ⟨i, hi⟩ := List.exists_mem_of_ne_nil group hne
  obtain ⟨c, hc, hdelay, hlimit, hl⟩ := ha.level_of_settled hsettled hi
  rcases Nat.lt_trichotomy k n with hlt | heq | hgt
  · -- the next attempt would be due
    obtain ⟨d, hd, hle⟩ := hpassed (by omega)
    obtain ⟨d', hd', hle'⟩ := Delay.exists_deadline?_le hd (Nat.succ_le_succ hlt)
    have hd' : c.options.reconnectDelay.deadline? t (k + 2) = some d' := by rwa [hdelay]
    have hdue : s.isDueAt i = true := by
      rw [isDueAt_of_retrying hc (hl.retrying (by omega) hd')]
      exact ⟨d', hd', by omega⟩
    rw [(hsettled i hi).1] at hdue
    cases hdue
  · exact heq
  · -- its last attempt would not have been due
    obtain ⟨d, hd, hle⟩ := ha.since (by omega)
    obtain ⟨d', hd', hle'⟩ := Delay.exists_deadline?_le hd (Nat.succ_le_succ hgt)
    have hle := ha.le
    have hearly := hnot (by omega) d' hd'
    omega

/-! ## When a connection opens -/

/-- The member waits for connection `x`, which was made at the deadline of attempt `k`. -/
def Waits (t x k : Nat) (s : Session) (i : Nat) : Prop :=
  ∃ c, s.channels[i]? = some c ∧ c.phase = .retrying (k + 1) ⟨t, x, x⟩ ∧ k < c.limit ∧
    (c.options.reconnectDelay.deadline? t (k + 2)).isSome = true ∧ c.Accepted

/-- The member follows connection `x` and has asked there, if it can. -/
def Joins (x : Nat) (s : Session) (i : Nat) : Prop :=
  ∃ c, s.channels[i]? = some c ∧ c.phase = .following x .open ∧
    ∀ text, c.request.text? = .ok text → c.sentOn = some x

/-- Where the newest connection is open, all members wait for it. -/
theorem Abreast.waits (ha : Abreast group delay limit t g k s)
    (hopen : s.feed.hub.stateOf (g + k) = .open) (hk : k < limit)
    (hd : (delay.deadline? t (k + 2)).isSome = true)
    (haccepted : ∀ (i : Nat) (c : Channel), s.channels[i]? = some c → c.Accepted)
    (hi : i ∈ group) : Waits t (g + k) k s i := by
  obtain ⟨c, hc, hdelay, hlimit, hl | hb⟩ := ha.members i hi
  · obtain ⟨d, hd'⟩ := Option.isSome_iff_exists.1 hd
    refine ⟨c, hc, ?_, by omega, by rwa [hdelay], haccepted i c hc⟩
    exact hl.retrying (by omega) (by rw [hdelay]; exact hd')
  · exfalso
    cases k with
    | zero =>
      have hopen : s.feed.hub.stateOf g = .open := hopen
      have hgone := ha.gone
      rw [hopen] at hgone
      cases hgone
    | succ k =>
      have hconnecting := hb.2.1
      rw [← Nat.add_assoc, hconnecting] at hopen
      cases hopen

/-- In a turn a member that waits joins, and one that has joined remains. -/
theorem joins_turn (hgen : s.feed.hub.generation = x) (hpos : 0 < x)
    (htakes : s.feed.hub.takesTexts x = true) (hm : Joins x s i ∨ Waits t x k s i)
    (first : Precedence) :
    Joins x (s.step (.turn i first)) i ∧
      (s.step (.turn i first)).feed.hub.generation = x := by
  have hturn : ∀ c, s.channels[i]? = some c →
      (s.step (.turn i first)).channels[i]? = some (c.turn s.feed first).1 ∧
        (s.step (.turn i first)).feed = (c.turn s.feed first).2 := by
    intro c hc
    have hlt := (List.getElem?_eq_some_iff.1 hc).1
    rw [step, onChannel_eq hc]
    exact ⟨List.getElem?_set_self hlt, rfl⟩
  rcases hm with ⟨c, hc, hp, hsent⟩ | ⟨c, hc, hp, hk, hd, haccepted⟩
  · obtain ⟨hc', hf'⟩ := hturn c hc
    obtain ⟨hp', hgen', hsent'⟩ :=
      Channel.turn_of_following hp (Hub.stateOf_of_takesTexts htakes) first
    have halike := (Channel.turn_moves c s.feed first).alike
    refine ⟨⟨_, hc', hp', fun text ht => ?_⟩, ?_⟩
    · rw [hsent']
      exact hsent text (halike.request_eq ▸ ht)
    · rw [hf', hgen', hgen]
  · obtain ⟨hc', hf'⟩ := hturn c hc
    obtain ⟨hp', hgen', hsent'⟩ := Channel.turn_of_open hp hk hd hgen hpos htakes first
    have halike := (Channel.turn_moves c s.feed first).alike
    refine ⟨⟨_, hc', hp', fun text ht => ?_⟩, by rw [hf', hgen']⟩
    have ht' : c.request.text? = .ok text := halike.request_eq ▸ ht
    exact hsent' text ht' (haccepted text ht')

/-- **While the connection stays open**, nobody makes another one, and every member that
has had a turn has joined. -/
theorem joins_run (hgen : s.feed.hub.generation = x) (hpos : 0 < x)
    (hm : ∀ i ∈ group, Joins x s i ∨ Waits t x k s i) (hr : Remains group x s events) :
    (s.run events).feed.hub.generation = x ∧
      ∀ i ∈ group, Joins x s i ∨ (∃ first, .turn i first ∈ events) →
        Joins x (s.run events) i := by
  induction events generalizing s with
  | nil =>
    refine ⟨hgen, fun i _ hi => hi.elim id ?_⟩
    rintro ⟨first, hmem⟩
    cases hmem
  | cons e events ih =>
    obtain ⟨htakes, hspares, hr⟩ := hr
    -- what becomes of a member in an event that is not its own
    have hother : ∀ i ∈ group, e.isTurnOf i = false →
        (Joins x s i → Joins x (s.step e) i) ∧ (Waits t x k s i → Waits t x k (s.step e) i) := by
      intro i hi hturn
      have hno : e.isOf i = false := by
        rw [SessionEvent.isOf, hturn, hspares.kept i hi]
        rfl
      constructor
      · rintro ⟨c, hc, h⟩
        exact ⟨c, channels_step_of_not hno hc, h⟩
      · rintro ⟨c, hc, h⟩
        exact ⟨c, channels_step_of_not hno hc, h⟩
    have hown : ∀ i ∈ group, e.isTurnOf i = true →
        Joins x (s.step e) i ∧ (s.step e).feed.hub.generation = x := by
      intro i hi hturn
      cases e with
      | turn channel first =>
        obtain rfl : channel = i := by simpa [SessionEvent.isTurnOf] using hturn
        exact joins_turn hgen hpos htakes (hm channel hi) first
      | openChannel | tearDown | getConnection | act | elapse => cases hturn
    have hgen' : (s.step e).feed.hub.generation = x := by
      by_cases hturn : ∀ i ∈ group, e.isTurnOf i = false
      · rw [hspares.alone hturn, hgen]
      · simp only [not_forall, Bool.not_eq_false] at hturn
        obtain ⟨i, hi, hturn⟩ := hturn
        exact (hown i hi hturn).2
    have hm' : ∀ i ∈ group, Joins x (s.step e) i ∨ Waits t x k (s.step e) i := by
      intro i hi
      cases hturn : e.isTurnOf i with
      | true => exact .inl (hown i hi hturn).1
      | false => exact (hm i hi).imp (hother i hi hturn).1 (hother i hi hturn).2
    obtain ⟨hlast, hjoined⟩ := ih hgen' hm' hr
    refine ⟨hlast, fun i hi h => hjoined i hi ?_⟩
    rcases h with h | ⟨first, hmem⟩
    · cases hturn : e.isTurnOf i with
      | true => exact .inl (hown i hi hturn).1
      | false => exact .inl ((hother i hi hturn).1 h)
    · rcases List.mem_cons.1 hmem with rfl | hmem
      · exact .inl (hown i hi (by simp [SessionEvent.isTurnOf])).1
      · exact .inr ⟨first, hmem⟩

/-- A turn opens no connection, so who sees one open at its end has seen it before. -/
theorem stateOf_eq_open_of_turn (hs : s.feed.hub.Sound) (hturn : e.isTurnOf i = true)
    (hopen : (s.step e).feed.hub.stateOf g = .open) : s.feed.hub.stateOf g = .open := by
  cases e with
  | turn channel first =>
    cases hc : s.channels[channel]? with
    | none => rwa [step, onChannel_of_none hc] at hopen
    | some c =>
      rw [step, onChannel_eq hc] at hopen
      exact ((Channel.turn_moves c s.feed first).stateOf_eq_open_iff hs g).1 hopen
  | openChannel | tearDown | getConnection | act | elapse => cases hturn

/-- A channel that follows a connection on which it has asked has asked there once. -/
theorem Joins.timesQueued_eq_one {text : String} (hj : Joins g ((start url options).run events) i)
    (hc : ((start url options).run events).channels[i]? = some c)
    (ht : c.request.text? = .ok text) :
    (start url options).timesQueued (SessionEvent.isTurnOf i) text g events = 1 := by
  obtain ⟨d, hd, -, hsent⟩ := hj
  cases hc.symm.trans hd
  have hasked := (recalls_run hc ht).asked g (hsent text ht)
  have honce := (books_run hc ht).1.once g
  unfold timesQueued at hasked ⊢
  omega

theorem accepted_run (hc : ((start url options).run events).channels[i]? = some c) :
    c.Accepted := by
  refine channel_run (fun topic request opts kind => ?_) Channel.Move.accepted (fun _ h => h) hc
  rcases Channel.opened_cases topic request opts kind with heq | heq <;> rw [heq] <;>
    exact fun _ _ => rfl

/-- **A group reconnects together.** Its members wait with one positive delay, have one
limit and lose the newest connection `g` at one moment. As long as no connection opens,
once all have had their turn at deadline `k` and the next is still to come, there are
exactly `k` new connections. If then connection `g + k` opens and stays open, and its
transport takes texts, nobody makes another one, and each member with a valid request has
queued it there exactly once as soon as it has had a turn. -/
theorem reconnect_together (url : String) (options : ChannelOptions)
    (events more : List SessionEvent) (group : List Nat) (delay : Delay) (limit : Nat)
    (hlost : Bereft group delay limit ((start url options).run events))
    (hmore : Reconnects group ((start url options).run events) more) :
    let s := (start url options).run events
    let s' := s.run more
    let t := s.feed.now
    let g := s.feed.hub.generation
    (∀ k ≤ limit, (0 < k → ∃ d, delay.deadline? t (k + 1) = some d ∧ d ≤ s'.feed.now) →
      (k < limit → ∀ d, delay.deadline? t (k + 2) = some d → s'.feed.now < d) →
      Settled group s' → s'.feed.hub.generation = g + k) ∧
    ∀ k e rest, k < limit → (delay.deadline? t (k + 2)).isSome = true →
      s'.feed.hub.generation = g + k → Orderly group s' e →
      Remains group (g + k) (s'.step e) rest →
      ((s'.step e).run rest).feed.hub.generation = g + k ∧
        ∀ i ∈ group, (∃ first, .turn i first ∈ rest) →
          ∀ c ∈ ((s'.step e).run rest).channels[i]?, ∀ text, c.request.text? = .ok text →
            (start url options).timesQueued (SessionEvent.isTurnOf i) text (g + k)
              (events ++ more ++ e :: rest) = 1 := by
  intro s s' t g
  have hs : s.feed.hub.Sound := sound_run url options events
  have hopen : s.feed.hub.stateOf s.feed.hub.generation ≠ .open := by
    intro h
    have hgone := hlost.gone
    rw [h] at hgone
    cases hgone
  obtain ⟨n, ha, hclosed⟩ := (hlost.abreast hs fun i c hc => hopeful_run hc).run hopen hmore
  refine ⟨fun k hk hpassed hnot hsettled => ?_, fun k e rest hk hd hgen he hr => ?_⟩
  · obtain rfl := ha.eq_of_settled hlost.nonempty hk hpassed hnot hsettled
    exact ha.generation_eq
  · obtain rfl : n = k := by
      have hn : s'.feed.hub.generation = g + n := ha.generation_eq
      omega
    have hrun : (start url options).run (events ++ more ++ [e]) = s'.step e := by
      rw [run_concat, run_append]
    have hlast : (start url options).run (events ++ more ++ e :: rest) =
        (s'.step e).run rest := by
      rw [run_append, run_append, run_cons]
    have htakes : (s'.step e).feed.hub.takesTexts (g + n) = true := by
      cases rest with
      | nil => exact hr
      | cons => exact hr.1
    have hopened := Hub.stateOf_of_takesTexts htakes
    -- the connection was not open before, so what opens it is no turn
    have hno : ∀ i ∈ group, e.isTurnOf i = false := by
      intro i _
      refine Bool.eq_false_iff.2 fun hturn => hclosed ?_
      change s'.feed.hub.stateOf s'.feed.hub.generation = .open
      rw [hgen]
      exact stateOf_eq_open_of_turn (ha.sound) hturn hopened
    have ha' := ha.step_of_other he hno
    have hwaits : ∀ i ∈ group, Joins (g + n) (s'.step e) i ∨ Waits t (g + n) n (s'.step e) i :=
      fun i hi => .inr <| ha'.waits hopened hk hd (fun i c hc => by
        rw [← hrun] at hc
        exact accepted_run hc) hi
    have hpos := ha'.pos
    obtain ⟨hstill, hjoined⟩ := joins_run ha'.generation_eq (by omega) hwaits hr
    refine ⟨hstill, fun i hi hturn c hc text ht => ?_⟩
    have hj := hjoined i hi (.inr hturn)
    rw [← hlast] at hj hc
    exact hj.timesQueued_eq_one hc ht

/-- Two channels with one delay follow one connection, and it goes away. -/
def parting : List SessionEvent :=
  let book := Topic.orderBook "mkt_1" "/proto"
  let price := Topic.marketPrice "mkt_1" "/proto"
  let options : ChannelOptions := { reconnectDelay := ⟨1000⟩, maxAttempts := 3 }
  [.openChannel book (.subscribe book.channel) options .book,
    .openChannel price (.subscribe price.channel) options .price,
    .turn 0 .stateFirst, .turn 1 .stateFirst, .act 1 .markOpen, .turn 0 .stateFirst,
    .turn 1 .stateFirst, .act 1 .dropDriver]

/-- Both see the close, and the first deadline goes by. -/
def waiting : List SessionEvent :=
  [.turn 0 .stateFirst, .turn 1 .stateFirst, .elapse 2000, .turn 1 .stateFirst,
    .turn 0 .stateFirst]

theorem reconnect_together_pair :
    let s := (start "ws://localhost:4010/ws" {}).run parting
    let rest := [.turn 0 .stateFirst, .turn 1 .stateFirst]
    Bereft [0, 1] ⟨1000⟩ 3 s ∧ Reconnects [0, 1] s waiting ∧ Settled [0, 1] (s.run waiting) ∧
      Orderly [0, 1] (s.run waiting) (.act 2 .markOpen) ∧
      Remains [0, 1] 2 ((s.run waiting).step (.act 2 .markOpen)) rest ∧
      (s.run waiting).feed.hub.generation = 2 ∧
      (((s.run waiting).step (.act 2 .markOpen)).run rest).feed.hub.generation = 2 ∧
      ∀ i ∈ [0, 1],
        ∀ c ∈ (((s.run waiting).step (.act 2 .markOpen)).run rest).channels[i]?,
          ∀ text, c.request.text? = .ok text →
            (start "ws://localhost:4010/ws" {}).timesQueued (SessionEvent.isTurnOf i) text 2
              (parting ++ waiting ++ .act 2 .markOpen :: rest) = 1 := by
  intro s rest
  have hlost : Bereft [0, 1] ⟨1000⟩ 3 s := by decide +kernel
  have hmore : Reconnects [0, 1] s waiting := by decide +kernel
  have hsettled : Settled [0, 1] (s.run waiting) := by decide +kernel
  have horderly : Orderly [0, 1] (s.run waiting) (.act 2 .markOpen) := by decide +kernel
  have hremains : Remains [0, 1] 2 ((s.run waiting).step (.act 2 .markOpen)) rest := by
    decide +kernel
  have hnow : s.feed.now = 0 ∧ (s.run waiting).feed.now = 2000 := by decide +kernel
  have hgen : s.feed.hub.generation = 1 := by decide +kernel
  obtain ⟨hcount, hjoined⟩ := reconnect_together "ws://localhost:4010/ws" {} parting waiting [0, 1]
    ⟨1000⟩ 3 hlost hmore
  rw [show (start "ws://localhost:4010/ws" {}).run parting = s from rfl] at hcount hjoined
  clear_value s
  have hsecond : (s.run waiting).feed.hub.generation = s.feed.hub.generation + 1 := by
    refine hcount 1 (by decide) (fun _ => ⟨2000, ?_, ?_⟩) (fun _ d hd => ?_) hsettled
    · rw [hnow.1]
      decide +kernel
    · exact Nat.le_of_eq hnow.2.symm
    · have hd : Delay.deadline? ⟨1000⟩ s.feed.now 3 = some d := hd
      rw [hnow.1, show Delay.deadline? ⟨1000⟩ 0 3 = some 3000 by decide +kernel] at hd
      cases hd
      exact Nat.lt_of_le_of_lt (Nat.le_of_eq hnow.2) (by decide)
  rw [hgen] at hjoined hsecond
  obtain ⟨hstays, hasked⟩ := hjoined 1 (.act 2 .markOpen) rest (by decide)
    (by rw [hnow.1]; decide +kernel) hsecond horderly hremains
  refine ⟨hlost, hmore, hsettled, horderly, hremains, hsecond, hstays, fun i hi c hc text ht => ?_⟩
  refine hasked i hi ⟨.stateFirst, ?_⟩ c hc text ht
  rcases List.mem_pair.1 hi with rfl | rfl <;> simp [rest]

/-- The transport of the new connection takes no texts any more, and the connection opens. -/
def deaf : List SessionEvent := waiting ++ [.act 2 .dropOutbound]

/-- A connection on which nobody has asked, though it has opened in time and stays open:
its transport takes no texts. -/
theorem open_without_request :
    let s := (start "ws://localhost:4010/ws" {}).run parting
    let rest := [.act 2 .markOpen, .turn 0 .stateFirst, .turn 1 .stateFirst]
    Bereft [0, 1] ⟨1000⟩ 3 s ∧ Reconnects [0, 1] s deaf ∧ Settled [0, 1] (s.run deaf) ∧
      Orderly [0, 1] (s.run deaf) (.act 2 .markOpen) ∧
      (s.run deaf).feed.hub.stateOf 2 = .connecting ∧
      ((s.run deaf).run rest).feed.hub.generation = 2 ∧
      ((s.run deaf).run rest).feed.hub.stateOf 2 = .open ∧
      ((s.run deaf).run rest).channels.map (fun c => (c.phase, c.sentOn)) =
        [(.following 2 .open, none), (.following 2 .open, none)] ∧
      ∀ i ∈ [0, 1], (start "ws://localhost:4010/ws" {}).queuedBy (SessionEvent.isTurnOf i) 2
        (parting ++ deaf ++ rest) = [] := by
  intro s rest
  refine ⟨?_, ?_, ?_, ?_, ?_, ?_, ?_, ?_, ?_⟩ <;> decide +kernel

end Session

end PushFeed
