import Mathlib.Data.List.Nodup
import PushFeed.Proofs.Channel.Asking
import PushFeed.Proofs.Channel.Attempts
import PushFeed.Proofs.Channel.Closing
import PushFeed.Proofs.Connection.Lists
/-!
# Where a channel is on the list

A channel holds a listener exactly on the connection its request went out on. That
listener is on the connection's list, and no other the channel has ever added still is:
`Roster` says so for the listeners the channel has added so far, and a chain of moves
keeps it and enters what it adds (`Moves.roster`). `Tied` says it for one connection
alone. A listener that is not the channel's own stays on the list while the channel moves
(`Moves.serves`), so channels do not get into each other's way.
-/

namespace PushFeed

namespace Hub

variable {h h' h'' : Hub} {g : Nat}

/-- The listeners added to a connection between two moments. -/
def addedOn (h h' : Hub) (g : Nat) : List Nat :=
  List.range' ((h.mailboxesOf g).length + 1)
    ((h'.mailboxesOf g).length - (h.mailboxesOf g).length)

theorem addedOn_of_length_eq (hlen : (h'.mailboxesOf g).length = (h.mailboxesOf g).length) :
    h.addedOn h' g = [] := by
  simp [addedOn, hlen]

theorem mem_addedOn {n : Nat} :
    n ∈ h.addedOn h' g ↔ (h.mailboxesOf g).length < n ∧ n ≤ (h'.mailboxesOf g).length := by
  unfold addedOn
  rw [List.mem_range'_1]
  omega

theorem addedOn_append (hle : (h.mailboxesOf g).length ≤ (h'.mailboxesOf g).length)
    (hle' : (h'.mailboxesOf g).length ≤ (h''.mailboxesOf g).length) :
    h.addedOn h' g ++ h'.addedOn h'' g = h.addedOn h'' g :=
  range'_append_range' hle hle'

theorem addedOn_congr {b : Hub} (hm : ∀ g, b.mailboxesOf g = h.mailboxesOf g) :
    b.addedOn h' g = h.addedOn h' g := by
  unfold addedOn
  rw [hm]

theorem mailboxesOf_addListener {d : Connection} (hd : h.find? g = some d) (g' : Nat) :
    (h.modify g fun d => (d.apply .addListener).1).mailboxesOf g' =
      if g = g' then d.mailboxes ++ [({} : Mailbox)] else h.mailboxesOf g' := by
  rw [mailboxesOf, find?_modify]
  by_cases heq : g = g'
  · rw [if_pos heq, if_pos heq, ← heq, hd]
    rfl
  · rw [if_neg heq, if_neg heq]
    rfl

theorem addedOn_addListener {d : Connection} (hd : h.find? g = some d) (g' : Nat) :
    h.addedOn (h.modify g fun d => (d.apply .addListener).1) g' =
      if g = g' then [d.mailboxes.length + 1] else [] := by
  rw [addedOn, mailboxesOf_addListener hd]
  split
  · rename_i heq
    rw [← heq, mailboxesOf_of_find? hd]
    simp
  · simp

/-- A listener that was just added is on the list. -/
theorem serves_addListener {d : Connection} (hd : h.find? g = some d) :
    (h.modify g fun d => (d.apply .addListener).1).Serves ⟨g, d.mailboxes.length + 1⟩ := by
  have hnew : (h.modify g fun d => (d.apply .addListener).1).find? g =
      some (d.apply .addListener).1 := by
    rw [find?_modify, if_pos rfl, hd]
    rfl
  refine ⟨{}, ?_, rfl, rfl⟩
  rw [mailboxAt_of_find? hnew]
  simp [Connection.apply, Connection.addListener, Connection.mailbox?]

/-- Acting on connections adds no listener, but for the action that does. -/
theorem length_mailboxesOf_act {action : ConnectionAction} (ha : action ≠ .addListener)
    (g g' : Nat) :
    ((h.modify g fun c => (c.apply action).1).mailboxesOf g').length =
      (h.mailboxesOf g').length := by
  have hsame : ∀ c : Connection, (c.apply action).1.mailboxes.length = c.mailboxes.length := by
    intro c
    cases action with
    | addListener => exact absurd rfl ha
    | close => simp only [Connection.apply, Connection.mailboxes_close]
    | markClosed | dropOutbound | text => rfl
    | markOpen | dropDriver | takeOutbound =>
      simp only [Connection.apply, Connection.markOpen, Connection.dropDriver,
        Connection.takeOutbound]
      split <;> rfl
    | dispatch => simp [Connection.apply, Connection.dispatch]
    | send text =>
      simp only [Connection.apply]
      cases hd : c.sendText text with
      | error e => rfl
      | ok d =>
        obtain ⟨-, rfl⟩ := Connection.sendText_eq_ok hd
        rfl
    | removeListener n =>
      simp only [Connection.apply, Connection.removeListener]
      split
      · obtain ⟨_, heq, hlen⟩ := c.modifyMailbox_eq n fun m => { m with registered := false }
        rw [heq]
        exact hlen
      · rfl
    | dropListener n =>
      obtain ⟨_, heq, hlen⟩ := c.modifyMailbox_eq n fun m => { m with held := false }
      simp only [Connection.apply, Connection.dropListener, heq]
      exact hlen
    | receive n =>
      simp only [Connection.apply, Connection.receive]
      split
      · rfl
      · rename_i m _
        obtain ⟨_, heq, hlen⟩ := c.modifyMailbox_eq n fun _ => m.take.2
        rw [heq]
        exact hlen
  unfold mailboxesOf
  rw [find?_modify]
  split
  · cases h.find? g' with
    | none => rfl
    | some c => exact hsame c
  · rfl

end Hub

namespace Channel

variable {c c' : Channel} {p q : Channel × Feed} {h h' : Hub} {f f' : Feed} {g : Nat}
  {a : Attachment} {own : Nat → List Nat}

/-! ## What letting go and attaching do to the lists -/

theorem hub_detach_of_some (ha : c.attached = some a) :
    (c.detach f).2.hub =
      f.hub.modify a.generation fun d => (d.apply (.removeListener a.listener)).1 := by
  simp only [detach, ha, Feed.hub_onConnection]
  rfl

theorem length_mailboxesOf_detach (c : Channel) (f : Feed) (g : Nat) :
    ((c.detach f).2.hub.mailboxesOf g).length = (f.hub.mailboxesOf g).length := by
  cases ha : c.attached with
  | none => rw [detach_of_none ha]
  | some a =>
    rw [hub_detach_of_some ha]
    exact Hub.length_mailboxesOf_act (by simp) _ _

/-- Letting go takes only the channel's own listener off. -/
theorem serves_detach (hne : c.attached ≠ some a) (hs : f.hub.Serves a) :
    (c.detach f).2.hub.Serves a := by
  cases hb : c.attached with
  | none =>
    rw [detach_of_none hb]
    exact hs
  | some b =>
    rw [hub_detach_of_some hb]
    refine hs.act fun hg hl => hne ?_
    have hsame : b = a := by
      obtain ⟨_, _⟩ := a
      obtain ⟨_, _⟩ := b
      cases hg
      cases hl
      rfl
    rw [hb, hsame]

/-- And it does take that one off. -/
theorem isOff_detach (ha : c.attached = some a) (hs : f.hub.Serves a) :
    (c.detach f).2.hub.IsOff a := by
  obtain ⟨m, hm, hactive⟩ := hs
  rw [hub_detach_of_some ha]
  cases hd : f.hub.find? a.generation with
  | none =>
    rw [Hub.mailboxAt, hd] at hm
    cases hm
  | some d =>
    rw [Hub.mailboxAt_of_find? hd] at hm
    have hfind : (f.hub.modify a.generation fun d =>
        (d.apply (.removeListener a.listener)).1).find? a.generation =
          some (d.modifyMailbox a.listener fun m => { m with registered := false }) := by
      rw [Hub.find?_modify, if_pos rfl, hd]
      simp [Connection.apply, Connection.removeListener, hm, hactive.1]
    refine ⟨{ m with registered := false }, ?_, rfl⟩
    rw [Hub.mailboxAt_of_find? hfind, Connection.mailbox?_modifyMailbox, if_pos rfl, hm]
    rfl

/-- What attaching comes to: nothing where there is a listener already, otherwise a new
one once the old one has been let go. -/
theorem attach_cases (c : Channel) (f : Feed) (g : Nat) :
    c.attach f g = (c, f) ∧ (∃ a, c.attached = some a ∧ a.generation = g) ∨
      (c.detach f).2.hub.find? g = none ∧ c.attach f g = c.detach f ∨
      ∃ d, (c.detach f).2.hub.find? g = some d ∧
        (c.attach f g).1.attached = some ⟨g, d.mailboxes.length + 1⟩ ∧
        (c.attach f g).2.hub =
          (c.detach f).2.hub.modify g fun d => (d.apply .addListener).1 := by
  simp only [attach]
  split
  · rename_i hany
    refine .inl ⟨rfl, ?_⟩
    cases ha : c.attached with
    | none => simp [ha] at hany
    | some a => exact ⟨a, rfl, by simpa [ha] using hany⟩
  · split
    · rename_i hd
      exact .inr (.inl ⟨hd, rfl⟩)
    · rename_i d hd
      refine .inr (.inr ⟨d, hd, rfl, ?_⟩)
      rw [Feed.hub_onConnection]
      rfl

/-- Attaching leaves all other listeners on the list. -/
theorem serves_attach (hne : c.attached ≠ some a) (hs : f.hub.Serves a) :
    (c.attach f g).2.hub.Serves a := by
  have hdetached := serves_detach hne hs
  rcases c.attach_cases f g with ⟨heq, -⟩ | ⟨-, heq⟩ | ⟨d, -, -, heq⟩
  · rw [heq]
    exact hs
  · rw [heq]
    exact hdetached
  · rw [heq]
    exact hdetached.act fun _ ht => ht.elim

/-! ## What a move does to the lists -/

/-- **A move leaves all listeners on the list** but the channel's own. -/
theorem Move.serves (m : Move p q) (hs : p.2.hub.Sound) (hne : p.1.attached ≠ some a)
    (ha : p.2.hub.Serves a) : q.2.hub.Serves a := by
  cases m with
  | report | await | notice | again | reject | announce | breakDown | resume | giveTime | stall =>
    exact ha
  | ask => exact ha.congr (hs.mailboxesOf_get false)
  | force => exact ha.congr (hs.mailboxesOf_get true)
  | @lose c f =>
    have hd := (c.detach_eq f).2.2
    exact (serves_detach hne ha).congr ((hd.sound hs).mailboxesOf_get false)
  | send _ _ _ hf => exact serves_attach hne (ha.congr (mailboxesOf_sendText hf))
  | wait _ hd | letGo _ hd =>
    rw [hub_received hd]
    exact ha.act fun _ ht => ht.elim
  | take _ hd =>
    rw [hub_handleFrame, hub_received hd]
    exact ha.act fun _ ht => ht.elim

/-- A channel gets a listener only by adding one. -/
theorem Move.attached_cases (m : Move p q) :
    q.1.attached = p.1.attached ∨ q.1.attached = none ∨
      ∃ a, q.1.attached = some a ∧ a.listener ∈ p.2.hub.addedOn q.2.hub a.generation := by
  cases m with
  | report | ask | notice | reject | breakDown | resume | giveTime | force | wait => exact .inl rfl
  | await | again | announce => exact .inl (by rw [publish_eq])
  | stall => exact .inl (by rw [Channel.stall, publish_eq])
  | lose => exact .inr (.inl (by rw [(detach_eq _ _).1]))
  | letGo => exact .inr (.inl rfl)
  | take => exact .inl (attached_handleFrame ..)
  | @send c f f' g text _ _ _ hf =>
    rw [publish_eq]
    rcases (c.requested g).attach_cases f' g with ⟨heq, -⟩ | ⟨-, heq⟩ | ⟨d, hd, heq, hhub⟩
    · rw [heq]
      exact .inl rfl
    · rw [heq]
      exact .inr (.inl (by rw [(detach_eq _ _).1]))
    · refine .inr (.inr ⟨_, heq, ?_⟩)
      -- neither the text nor letting go has changed how many there have been
      have hlen := length_mailboxesOf_detach (c.requested g) f' g
      rw [Hub.mailboxesOf_of_find? hd, mailboxesOf_sendText hf] at hlen
      rw [Hub.mem_addedOn, hhub, Hub.mailboxesOf_addListener hd, if_pos rfl, List.length_append]
      exact ⟨Nat.lt_succ_of_le (Nat.le_of_eq hlen.symm), Nat.le_refl _⟩

/-- What a channel holds after a chain of moves, it held before or has added since. -/
theorem Moves.attached_cases (ms : Moves p q) (hs : p.2.hub.Sound) :
    q.1.attached = p.1.attached ∨ q.1.attached = none ∨
      ∃ a, q.1.attached = some a ∧ a.listener ∈ p.2.hub.addedOn q.2.hub a.generation := by
  induction ms with
  | refl => exact .inl rfl
  | @tail q r hto m ih =>
    have hevolves := Moves.evolves hto
    have happend (g : Nat) := Hub.addedOn_append (hevolves.length_mailboxesOf_le hs g)
      (m.evolves.length_mailboxesOf_le (hevolves.sound hs) g)
    rcases m.attached_cases with heq | heq | ⟨a, heq, hnew⟩
    · rw [heq]
      rcases ih with hsame | hnone | ⟨a, ha, hadded⟩
      · exact .inl hsame
      · exact .inr (.inl hnone)
      · refine .inr (.inr ⟨a, ha, ?_⟩)
        rw [← happend]
        exact List.mem_append_left _ hadded
    · exact .inr (.inl heq)
    · refine .inr (.inr ⟨a, heq, ?_⟩)
      rw [← happend]
      exact List.mem_append_right _ hnew

/-- What a channel has just added is newer than what was on a list. -/
theorem Moves.attached_ne (ms : Moves p q) (hs : p.2.hub.Sound) (hne : p.1.attached ≠ some a)
    (ha : p.2.hub.Serves a) : q.1.attached ≠ some a := by
  rcases ms.attached_cases hs with heq | heq | ⟨b, heq, hnew⟩
  · rw [heq]
    exact hne
  · rw [heq]
    nofun
  · intro hsame
    cases heq.symm.trans hsame
    obtain ⟨m, hm, -⟩ := ha
    exact absurd (Hub.lt_of_mailboxAt hm) (Nat.not_le.2 (Hub.mem_addedOn.1 hnew).1)

/-- **A chain of moves leaves all listeners on the list** but the channel's own. -/
theorem Moves.serves (ms : Moves p q) (hs : p.2.hub.Sound) (hne : p.1.attached ≠ some a)
    (ha : p.2.hub.Serves a) : q.2.hub.Serves a := by
  induction ms with
  | refl => exact ha
  | tail hto m ih =>
    exact m.serves ((Moves.evolves hto).sound hs) (Moves.attached_ne hto hs hne ha) ih

/-! ## The roster of a channel -/

/-- What a channel holds of the listeners it has added, `own g` being the numbers of
those it has added to connection `g` so far. -/
structure Roster (own : Nat → List Nat) (c : Channel) (h : Hub) : Prop where
  /-- It holds one of its own, and that one is on the list. -/
  holds : ∀ a, c.attached = some a → a.listener ∈ own a.generation ∧ h.Serves a
  /-- All others are off the list. -/
  off : ∀ g n, n ∈ own g → c.attached ≠ some ⟨g, n⟩ → h.IsOff ⟨g, n⟩
  /-- It holds one where its request went out. -/
  sentOn_eq : c.phase ≠ .ended → c.sentOn = c.attached.map (·.generation)

/-- A channel that was just opened has added nothing. -/
theorem Roster.nil (ha : c.attached = none) (hsent : c.sentOn = none) (h : Hub) :
    Roster (fun _ => []) c h where
  holds a h := by
    rw [ha] at h
    cases h
  off g n hn := nomatch hn
  sentOn_eq _ := by rw [ha, hsent]; rfl

/-- Whatever happens, a roster stands as long as the channel's listener is left alone. -/
theorem Roster.evolves (hr : Roster own c h) (hs : h.Sound) (he : h.Evolves h')
    (hserves : ∀ a, c.attached = some a → h'.Serves a) : Roster own c h' where
  holds a ha := ⟨(hr.holds a ha).1, hserves a ha⟩
  off g n hn hne := he.isOff hs (hr.off g n hn hne)
  sentOn_eq := hr.sentOn_eq

/-- The roster when no listener comes and the one that is held stays. -/
theorem Roster.keep (hr : Roster own c h) (hs : h.Sound) (he : h.Evolves h')
    (hlen : ∀ g, (h'.mailboxesOf g).length = (h.mailboxesOf g).length)
    (ha : c'.attached = c.attached)
    (hsent : c'.phase ≠ .ended → c.phase ≠ .ended ∧ c'.sentOn = c.sentOn)
    (hserves : ∀ a, c.attached = some a → h.Serves a → h'.Serves a) :
    Roster (fun g => own g ++ h.addedOn h' g) c' h' := by
  have hnil : ∀ g, own g ++ h.addedOn h' g = own g := by
    intro g
    rw [Hub.addedOn_of_length_eq (hlen g), List.append_nil]
  simp only [hnil]
  refine ⟨fun a hc => ?_, fun g n hn hne => ?_, fun hp => ?_⟩
  · rw [ha] at hc
    exact ⟨(hr.holds a hc).1, hserves a hc (hr.holds a hc).2⟩
  · rw [ha] at hne
    exact he.isOff hs (hr.off g n hn hne)
  · obtain ⟨hp', heq⟩ := hsent hp
    rw [heq, ha, hr.sentOn_eq hp']

/-- The roster when the listener that was held has been taken off. -/
theorem Roster.release (hr : Roster own c h) (hs : h.Sound) (he : h.Evolves h')
    (hlen : ∀ g, (h'.mailboxesOf g).length = (h.mailboxesOf g).length)
    (ha : c'.attached = none) (hsent : c'.phase ≠ .ended → c'.sentOn = none)
    (hoff : ∀ a, c.attached = some a → h.Serves a → h'.IsOff a) :
    Roster (fun g => own g ++ h.addedOn h' g) c' h' := by
  have hnil : ∀ g, own g ++ h.addedOn h' g = own g := by
    intro g
    rw [Hub.addedOn_of_length_eq (hlen g), List.append_nil]
  simp only [hnil]
  refine ⟨fun a hc => ?_, fun g n hn _ => ?_, fun hp => ?_⟩
  · rw [ha] at hc
    cases hc
  · by_cases heq : c.attached = some ⟨g, n⟩
    · exact hoff _ heq (hr.holds _ heq).2
    · exact he.isOff hs (hr.off g n hn heq)
  · rw [hsent hp, ha]
    rfl

/-- A listener on the list has not come to its end. -/
theorem receive_ne_none {d : Connection} (hs : f.hub.Serves a)
    (hd : f.hub.find? a.generation = some d) : (d.receive a.listener).1 ≠ .ready none := by
  obtain ⟨m, hm, hactive⟩ := hs
  rw [Hub.mailboxAt_of_find? hd] at hm
  have htake : (d.receive a.listener).1 = m.take.1 := by simp [Connection.receive, hm]
  rw [htake]
  unfold Mailbox.take
  cases m.queue with
  | nil => simp [hactive.1]
  | cons frame rest => simp

theorem length_mailboxesOf_received {d : Connection} (hd : f.hub.find? a.generation = some d)
    (g : Nat) : ((received f a d).hub.mailboxesOf g).length = (f.hub.mailboxesOf g).length := by
  rw [hub_received hd]
  exact Hub.length_mailboxesOf_act (by simp) _ _

theorem serves_received {b : Attachment} {d : Connection} (hd : f.hub.find? a.generation = some d)
    (hs : f.hub.Serves b) : (received f a d).hub.Serves b := by
  rw [hub_received hd]
  exact hs.act fun _ ht => ht.elim

/-- A channel that has not asked on the connection it follows holds no listener. -/
theorem Roster.attached_eq_none {seen : ReadyState} (hr : Roster own c h) (hmoored : c.Moored)
    (hp : c.phase = .following g seen) (hsent : c.sentOn ≠ some g) : c.attached = none := by
  cases ha : c.attached with
  | none => rfl
  | some a =>
    obtain ⟨seen', hphase⟩ := hmoored a ha
    have hsame : g = a.generation := by
      rw [hp] at hphase
      cases hphase
      rfl
    have hlast := hr.sentOn_eq (by simp [hp])
    rw [ha, Option.map_some, ← hsame] at hlast
    exact absurd hlast hsent

/-- The connection that takes a text is there. -/
theorem exists_find?_of_sendText {text : String} (hf : f.sendText g text = .ok f') :
    ∃ d, f'.hub.find? g = some d := by
  obtain ⟨hopen, -, rfl⟩ := Feed.sendText_eq_ok hf
  obtain ⟨e, he⟩ := Hub.exists_of_stateOf_ne (by rw [hopen]; decide)
  obtain ⟨hpos, hle⟩ := Hub.le_generation_of_find? he
  exact Hub.exists_find? hpos ((Hub.generation_modify ..).symm ▸ hle)

/-- Sending a request where the channel holds no listener adds one, and enters it. -/
theorem Roster.send {text : String} (hr : Roster own c f.hub) (hs : f.hub.Sound)
    (hp : c.phase = .following g .open) (hsent : c.sentOn ≠ some g) (hmoored : c.Moored)
    (hf : f.sendText g text = .ok f') :
    Roster (fun g' => own g' ++ f.hub.addedOn ((c.requested g).attach f' g).2.hub g')
      (((c.requested g).attach f' g).1.publish .subscribed) ((c.requested g).attach f' g).2.hub := by
  have hnone := hr.attached_eq_none hmoored hp hsent
  have hnone' : (c.requested g).attached = none := hnone
  have he := (send_eq (c := c) hf).2
  obtain ⟨d, hd⟩ := exists_find?_of_sendText hf
  rcases (c.requested g).attach_cases f' g with ⟨-, a, ha, -⟩ | ⟨hgone, -⟩ | ⟨d', hd', hatt, hhub⟩
  · rw [hnone'] at ha
    cases ha
  · rw [detach_of_none hnone', hd] at hgone
    cases hgone
  · rw [detach_of_none hnone'] at hd' hhub
    cases hd.symm.trans hd'
    have hadded : ∀ g', f.hub.addedOn ((c.requested g).attach f' g).2.hub g' =
        if g = g' then [d.mailboxes.length + 1] else [] := by
      intro g'
      rw [← Hub.addedOn_congr (mailboxesOf_sendText hf), hhub, Hub.addedOn_addListener hd]
    refine ⟨fun a ha => ?_, fun g' n hn hne => ?_, fun _ => ?_⟩
    · rw [publish_eq] at ha
      cases hatt.symm.trans ha
      refine ⟨?_, ?_⟩
      · rw [hadded, if_pos rfl]
        simp
      · rw [hhub]
        exact Hub.serves_addListener hd
    · rw [publish_eq] at hne
      rcases List.mem_append.1 hn with hold | hnow
      · refine he.isOff hs (hr.off g' n hold ?_)
        simp [hnone]
      · rw [hadded] at hnow
        split at hnow
        · rename_i heq
          rw [List.mem_singleton] at hnow
          rw [← heq, hnow] at hne
          exact absurd hatt hne
        · cases hnow
    · obtain ⟨_, hsame⟩ := (attach_eq (c.requested g) f' g).1
      have hkeep : ((c.requested g).attach f' g).1.sentOn = some g := by
        rw [hsame]
        rfl
      rw [publish_eq]
      show ((c.requested g).attach f' g).1.sentOn = _
      rw [hkeep, hatt]
      rfl

/-! ## Listeners and requests -/

/-- A move that does not send the request adds no listener. -/
theorem Move.length_mailboxesOf_cases (m : Move p q) (hs : p.2.hub.Sound) :
    (∃ g text f', p.1.request.text? = .ok text ∧ p.2.sendText g text = .ok f' ∧
        q.2 = ((p.1.requested g).attach f' g).2) ∨
      ∀ g, (q.2.hub.mailboxesOf g).length = (p.2.hub.mailboxesOf g).length := by
  cases m with
  | send _ _ ht hf => exact .inl ⟨_, _, _, ht, hf, rfl⟩
  | report | await | notice | again | reject | announce | breakDown | resume | giveTime | stall =>
    exact .inr fun _ => rfl
  | ask => exact .inr fun g => congrArg List.length (hs.mailboxesOf_get false g)
  | force => exact .inr fun g => congrArg List.length (hs.mailboxesOf_get true g)
  | @lose c f =>
    refine .inr fun g => ?_
    have hd := (c.detach_eq f).2.2
    rw [Feed.hub_getConnection, (hd.sound hs).mailboxesOf_get]
    exact length_mailboxesOf_detach c f g
  | wait _ hd | letGo _ hd => exact .inr (length_mailboxesOf_received hd)
  | take _ hd =>
    rw [hub_handleFrame]
    exact .inr (length_mailboxesOf_received hd)

/-- Attaching adds one listener at most, and only there. -/
theorem length_addedOn_attach_le (c : Channel) (f : Feed) (g g' : Nat) :
    (f.hub.addedOn (c.attach f g).2.hub g').length ≤ if g = g' then 1 else 0 := by
  have hlen := length_mailboxesOf_detach c f g'
  rw [Hub.addedOn, List.length_range']
  rcases c.attach_cases f g with ⟨heq, -⟩ | ⟨-, heq⟩ | ⟨d, hd, -, heq⟩ <;> rw [heq]
  · rw [Nat.sub_self]
    exact Nat.zero_le _
  · rw [hlen, Nat.sub_self]
    exact Nat.zero_le _
  · rw [Hub.mailboxesOf_addListener hd]
    split
    · rename_i heq
      subst heq
      rw [Hub.mailboxesOf_of_find? hd] at hlen
      rw [List.length_append, List.length_singleton]
      omega
    · omega

/-- **No listener comes without a request**: what a move adds to a connection is no more than
the requests it queues there. -/
theorem Move.length_addedOn_le {text : String} (m : Move p q) (hs : p.2.hub.Sound)
    (ht : p.1.request.text? = .ok text) (g : Nat) :
    ∃ added, p.2.hub.Adds q.2.hub g added ∧
      (p.2.hub.addedOn q.2.hub g).length ≤ added.count (.text text) := by
  have hsent {k : Nat} {f' : Feed} (hf : p.2.sendText k text = .ok f') :
      p.2.hub.Adds ((p.1.requested k).attach f' k).2.hub g (if k = g then [.text text] else []) := by
    obtain ⟨hopen, -, -⟩ := Feed.sendText_eq_ok hf
    obtain ⟨d, hd⟩ := Hub.exists_of_stateOf_ne (by rw [hopen]; decide)
    have hadds := (Hub.adds_queue hd text g).trans ((send_eq (c := p.1) hf).1.adds g)
    rwa [List.append_nil] at hadds
  rcases m.length_mailboxesOf_cases hs with ⟨k, u, f', hu, hf, heq⟩ | hlen
  · cases ht.symm.trans hu
    rw [heq]
    refine ⟨_, hsent hf, ?_⟩
    rw [← Hub.addedOn_congr (mailboxesOf_sendText hf)]
    refine Nat.le_trans (length_addedOn_attach_le _ f' k g) ?_
    split <;> simp
  · rw [Hub.addedOn_of_length_eq (hlen g)]
    rcases m.request_cases hs with ⟨k, u, f', -, -, hu, hf, heq⟩ | ⟨hmute, -⟩
    · cases ht.symm.trans hu
      have hadds := hsent hf
      rw [heq]
      exact ⟨_, hadds, Nat.zero_le _⟩
    · obtain ⟨added, hadds, -⟩ := hmute g
      exact ⟨added, hadds, Nat.zero_le _⟩

theorem Moves.length_addedOn_le {text : String} (ms : Moves p q) (hs : p.2.hub.Sound)
    (ht : p.1.request.text? = .ok text) (g : Nat) :
    ∃ added, p.2.hub.Adds q.2.hub g added ∧
      (p.2.hub.addedOn q.2.hub g).length ≤ added.count (.text text) := by
  induction ms with
  | refl => exact ⟨[], .refl _ g, by rw [Hub.addedOn_of_length_eq rfl]; exact Nat.zero_le _⟩
  | @tail q r hto m ih =>
    have hevolves := Moves.evolves hto
    have hs' := hevolves.sound hs
    obtain ⟨added, hadds, hle⟩ := ih
    obtain ⟨more, hadds', hle'⟩ :=
      m.length_addedOn_le hs' ((Moves.alike hto).request_eq ▸ ht) g
    refine ⟨_, hadds.trans hadds', ?_⟩
    rw [← Hub.addedOn_append (hevolves.length_mailboxesOf_le hs g)
      (m.evolves.length_mailboxesOf_le hs' g), List.length_append, List.count_append]
    exact Nat.add_le_add hle hle'

/-- **A move keeps the roster** and enters what it adds. -/
theorem Move.roster (m : Move p q) (hs : p.2.hub.Sound) (hmoored : p.1.Moored)
    (hr : Roster own p.1 p.2.hub) :
    Roster (fun g => own g ++ p.2.hub.addedOn q.2.hub g) q.1 q.2.hub := by
  have he := m.evolves
  cases m with
  | report | reject =>
    exact hr.keep hs he (fun _ => rfl) rfl (fun h => ⟨h, rfl⟩) fun _ _ => id
  | ask =>
    refine hr.keep hs he (fun g => ?_) rfl (fun h => ⟨h, rfl⟩) fun _ _ ha => ?_
    · exact congrArg List.length (hs.mailboxesOf_get false g)
    · exact ha.congr (hs.mailboxesOf_get false)
  | await hp | notice hp =>
    have hphase := (LooksAt.phase_ne hp).2
    simp only [publish_eq]
    exact hr.keep hs .refl (fun _ => rfl) rfl (fun _ => ⟨hphase, rfl⟩) fun _ _ => id
  | again | announce =>
    simp only [publish_eq]
    exact hr.keep hs .refl (fun _ => rfl) rfl (fun h => ⟨h, rfl⟩) fun _ _ => id
  | breakDown hp | resume hp | giveTime hp =>
    refine hr.keep hs he (fun _ => rfl) rfl (fun _ => ⟨?_, rfl⟩) fun _ _ => id
    rw [hp]
    nofun
  | force hp =>
    refine hr.keep hs he (fun g => ?_) rfl (fun _ => ⟨?_, rfl⟩) fun _ _ ha => ?_
    · exact congrArg List.length (hs.mailboxesOf_get true g)
    · rw [hp]
      nofun
    · exact ha.congr (hs.mailboxesOf_get true)
  | stall hp =>
    simp only [Channel.stall, publish_eq]
    refine hr.keep hs .refl (fun _ => rfl) rfl (fun _ => ⟨?_, rfl⟩) fun _ _ => id
    rw [hp]
    nofun
  | wait ha hd =>
    exact hr.keep hs he (length_mailboxesOf_received hd) rfl (fun h => ⟨h, rfl⟩)
      fun _ _ => serves_received hd
  | take ha hd =>
    obtain ⟨_, _, _, _, heq⟩ := handleFrame_eq _ _ _
    rw [hub_handleFrame] at he ⊢
    rw [heq]
    exact hr.keep hs he (length_mailboxesOf_received hd) rfl (fun h => ⟨h, rfl⟩)
      fun _ _ => serves_received hd
  | letGo ha hd hr' => exact absurd hr' (receive_ne_none (hr.holds _ ha).2 hd)
  | @lose c f g hp _ =>
    have hd := (c.detach_eq f).2.2.sound hs
    refine hr.release hs he (fun g => ?_) ?_ (fun _ => rfl) fun a ha hserves => ?_
    · rw [Feed.hub_getConnection, hd.mailboxesOf_get]
      exact length_mailboxesOf_detach c f g
    · rw [(c.detach_eq f).1]
    · exact Hub.Step.isOff hd (.get false) (isOff_detach ha hserves)
  | send hp hsent _ hf => exact hr.send hs hp hsent hmoored hf

/-- **A chain of moves keeps the roster** and enters what it adds. -/
theorem Moves.roster (ms : Moves p q) (hs : p.2.hub.Sound) (hmoored : p.1.Moored)
    (hr : Roster own p.1 p.2.hub) :
    Roster (fun g => own g ++ p.2.hub.addedOn q.2.hub g) q.1 q.2.hub := by
  induction ms with
  | refl =>
    have hnil : ∀ g, own g ++ p.2.hub.addedOn p.2.hub g = own g := by
      intro g
      rw [Hub.addedOn_of_length_eq rfl, List.append_nil]
    simpa only [hnil] using hr
  | @tail q r hto m ih =>
    have hevolves := Moves.evolves hto
    have hs' := hevolves.sound hs
    have hstep := m.roster hs' (Moves.keep hto Move.moored hmoored) ih
    have happend : ∀ g, own g ++ p.2.hub.addedOn q.2.hub g ++ q.2.hub.addedOn r.2.hub g =
        own g ++ p.2.hub.addedOn r.2.hub g := by
      intro g
      rw [List.append_assoc, Hub.addedOn_append (hevolves.length_mailboxesOf_le hs g)
        (m.evolves.length_mailboxesOf_le hs' g)]
    simpa only [happend] using hstep

/-- The numbers of the listeners a channel holds on a connection. -/
def listenersOn (c : Channel) (g : Nat) : List Nat :=
  match c.attached with
  | none => []
  | some a => if a.generation = g then [a.listener] else []

/-- **What is still on a list of a channel's listeners is what it holds.** -/
theorem Roster.filter_lists (hr : Roster own c h) (hnodup : (own g).Nodup) :
    (own g).filter (fun n => h.lists ⟨g, n⟩) = c.listenersOn g := by
  have hlists : ∀ n ∈ own g, h.lists ⟨g, n⟩ = decide (c.attached = some ⟨g, n⟩) := by
    intro n hn
    by_cases heq : c.attached = some ⟨g, n⟩
    · rw [(hr.holds _ heq).2.lists]
      simp [heq]
    · rw [(hr.off g n hn heq).lists]
      simp [heq]
  rw [List.filter_congr hlists]
  unfold listenersOn
  cases ha : c.attached with
  | none => simp
  | some a =>
    obtain ⟨g', k⟩ := a
    by_cases heq : g' = g
    · subst heq
      have hk : k ∈ own g' := (hr.holds _ ha).1
      have hcount := List.count_eq_one_of_mem hnodup hk
      simp only [Option.some.injEq, Attachment.mk.injEq, true_and, if_true]
      have hfilter := List.filter_eq (l := own g') k
      simp only [hcount, List.replicate_one, eq_comm (b := k)] at hfilter
      exact hfilter
    · simp [heq]

/-! ## The listener on one connection -/

/-- What a channel holds on one connection: a listener if its request went out there, and
that one is on the list. -/
structure Tied (g : Nat) (c : Channel) (h : Hub) : Prop where
  asked : c.phase ≠ .ended → c.sentOn = some g → ∃ n, c.attached = some ⟨g, n⟩
  holds : ∀ n, c.attached = some ⟨g, n⟩ → h.Serves ⟨g, n⟩

theorem tied_of_none (ha : c.attached = none) (hsent : c.phase ≠ .ended → c.sentOn = none) :
    Tied g c h where
  asked hp hs := nomatch (hsent hp).symm.trans hs
  holds _ hn := nomatch ha.symm.trans hn

theorem Tied.keep (ht : Tied g c h) (ha : c'.attached = c.attached)
    (hsent : c'.phase ≠ .ended → c.phase ≠ .ended ∧ c'.sentOn = c.sentOn)
    (hserves : ∀ a, h.Serves a → h'.Serves a) : Tied g c' h' where
  asked hp hs := by
    obtain ⟨hp', heq⟩ := hsent hp
    rw [ha]
    exact ht.asked hp' (heq.symm.trans hs)
  holds n hn := hserves _ (ht.holds n (ha.symm.trans hn))

/-- Sending a request adds a listener there, if the channel holds none. -/
theorem Tied.send {text : String} {g' : Nat} (ht : Tied g' c f.hub)
    (hf : f.sendText g text = .ok f') :
    Tied g' (((c.requested g).attach f' g).1.publish .subscribed)
      ((c.requested g).attach f' g).2.hub := by
  have hsent : ((c.requested g).attach f' g).1.sentOn = some g := by
    obtain ⟨_, heq⟩ := ((c.requested g).attach_eq f' g).1
    rw [heq]
    rfl
  rw [publish_eq]
  rcases (c.requested g).attach_cases f' g with ⟨heq, a, ha, rfl⟩ | ⟨hgone, -⟩ | ⟨d, hd, ha, hhub⟩
  · rw [heq]
    refine ⟨fun _ hg => ?_, fun n hn => (ht.holds n hn).congr (mailboxesOf_sendText hf)⟩
    cases hg
    exact ⟨a.listener, ha⟩
  · -- the connection that takes the text is there, and letting go does not take it away
    obtain ⟨d, hd⟩ := exists_find?_of_sendText hf
    obtain ⟨_, hd'⟩ := ((c.requested g).detach_eq f').2.1.find? hd
    cases hgone.symm.trans hd'
  · refine ⟨fun _ hg => ?_, fun n hn => ?_⟩
    · cases hsent.symm.trans hg
      exact ⟨_, ha⟩
    · cases ha.symm.trans hn
      rw [hhub]
      exact Hub.serves_addListener hd

/-- **A move keeps the listener on one connection**, whatever became of those on others. -/
theorem Move.tied (m : Move p q) (hs : p.2.hub.Sound) (ht : Tied g p.1 p.2.hub) :
    Tied g q.1 q.2.hub := by
  cases m with
  | report | reject => exact ht.keep rfl (fun h => ⟨h, rfl⟩) fun _ => id
  | ask =>
    refine ht.keep rfl (fun h => ⟨h, rfl⟩) fun _ ha => ?_
    exact ha.congr (hs.mailboxesOf_get false)
  | await hp | notice hp =>
    have hphase := (LooksAt.phase_ne hp).2
    simp only [publish_eq]
    exact ht.keep rfl (fun _ => ⟨hphase, rfl⟩) fun _ => id
  | again | announce =>
    simp only [publish_eq]
    exact ht.keep rfl (fun h => ⟨h, rfl⟩) fun _ => id
  | breakDown hp | resume hp | giveTime hp =>
    refine ht.keep rfl (fun _ => ⟨?_, rfl⟩) fun _ => id
    rw [hp]
    nofun
  | force hp =>
    refine ht.keep rfl (fun _ => ⟨?_, rfl⟩) fun _ ha => ?_
    · rw [hp]
      nofun
    · exact ha.congr (hs.mailboxesOf_get true)
  | stall hp =>
    simp only [Channel.stall, publish_eq]
    refine ht.keep rfl (fun _ => ⟨?_, rfl⟩) fun _ => id
    rw [hp]
    nofun
  | wait ha hd => exact ht.keep rfl (fun h => ⟨h, rfl⟩) fun _ => serves_received hd
  | take ha hd =>
    obtain ⟨_, _, _, _, heq⟩ := handleFrame_eq _ _ _
    rw [hub_handleFrame, heq]
    exact ht.keep rfl (fun h => ⟨h, rfl⟩) fun _ => serves_received hd
  | @letGo c f a connection ha hd hr =>
    have hother : ∀ n, c.attached ≠ some ⟨g, n⟩ := by
      intro n hn
      cases ha.symm.trans hn
      exact receive_ne_none (ht.holds n hn) hd hr
    refine ⟨fun hp hsent => ?_, fun n hn => ?_⟩
    · obtain ⟨n, hn⟩ := ht.asked hp hsent
      exact absurd hn (hother n)
    · cases hn
  | lose => exact tied_of_none (by rw [(detach_eq _ _).1]) fun _ => rfl
  | send _ _ _ hf => exact ht.send hf

theorem Moves.tied (ms : Moves p q) (hs : p.2.hub.Sound) (ht : Tied g p.1 p.2.hub) :
    Tied g q.1 q.2.hub := by
  induction ms with
  | refl => exact ht
  | tail hto m ih => exact m.tied ((Moves.evolves hto).sound hs) ih

/-! ## What a listening channel reports -/

/-- A channel that holds a listener reports neither that it reconnects nor that it gave
up. -/
def Forthright (c : Channel) : Prop :=
  c.attached ≠ none → c.state ≠ .stalled ∧ ∀ k, c.state ≠ .reconnecting k

theorem Forthright.of_state {s : ChannelState} (hs : c.state = s) (hstalled : s ≠ .stalled)
    (hretry : ∀ k, s ≠ .reconnecting k) : c.Forthright := by
  intro _
  rw [hs]
  exact ⟨hstalled, hretry⟩

theorem forthright_of_none (ha : c.attached = none) : c.Forthright := fun h => absurd ha h

theorem Move.forthright (m : Move p q) (hmoored : p.1.Moored) (hc : p.1.Forthright) :
    q.1.Forthright := by
  have hnone : ∀ {c : Channel} {k : Nat} {e : Episode}, c.Moored → c.phase = .retrying k e →
      c.attached = none := by
    intro c k e hc hp
    refine hc.attached_of_phase fun g seen h => ?_
    rw [hp] at h
    cases h
  cases m with
  | report | ask | notice | reject | breakDown | resume | giveTime | force | wait => exact hc
  | await => exact .of_state (state_publish ..) nofun nofun
  | again | send => exact .of_state (state_publish ..) nofun nofun
  | announce hp | stall hp =>
    have hattached := hnone hmoored hp
    refine forthright_of_none ?_
    simp only [Channel.stall, publish_eq]
    exact hattached
  | lose =>
    refine forthright_of_none ?_
    rw [(detach_eq _ _).1]
  | letGo => exact forthright_of_none rfl
  | take =>
    obtain ⟨_, _, _, _, heq⟩ := handleFrame_eq _ _ _
    rw [heq]
    exact hc

/-! ## The end of a channel -/

theorem serves_release (hne : c.attached ≠ some a) (hs : f.hub.Serves a) :
    (c.release f).2.hub.Serves a := by
  unfold release
  split
  · exact hs
  · rename_i b _
    have hdetached := serves_detach hne hs
    generalize c.detach f = q at hdetached
    obtain ⟨d, f'⟩ := q
    rcases d.unsubscribe_cases f' b.generation with hhub | ⟨_, _, text, _, hf⟩
    · show (d.unsubscribe f' b.generation).hub.Serves a
      rw [hhub]
      exact hdetached
    · exact hdetached.congr (mailboxesOf_sendText hf)

/-- The end of a channel leaves all listeners on the list but its own. -/
theorem serves_tearDown (hs : f.hub.Sound) (hne : c.attached ≠ some a) (ha : f.hub.Serves a) :
    (c.tearDown f).2.hub.Serves a := by
  unfold tearDown
  split
  · simp only [Feed.hub_report]
    refine serves_release hne ?_
    split
    · exact ha.congr (hs.mailboxesOf_get false)
    · exact ha
  · exact ha

theorem isOff_release (hs : f.hub.Sound) (ha : c.attached = some a) (hserves : f.hub.Serves a) :
    (c.release f).2.hub.IsOff a := by
  unfold release
  rw [ha]
  have hoff := isOff_detach ha hserves
  have hsound := (c.detach_eq f).2.2.sound hs
  generalize c.detach f = q at hoff hsound
  obtain ⟨d, f'⟩ := q
  rcases d.unsubscribe_cases f' a.generation with hhub | ⟨_, _, text, _, hf⟩
  · show (d.unsubscribe f' a.generation).hub.IsOff a
    rw [hhub]
    exact hoff
  · obtain ⟨-, hstep, hf'⟩ := Feed.sendText_eq_ok hf
    show (d.unsubscribe f' a.generation).hub.IsOff a
    rw [hf']
    exact hstep.isOff hsound hoff

/-- The end of a channel takes its listener off. -/
theorem isOff_tearDown (hs : f.hub.Sound) (hl : c.isLive = true) (ha : c.attached = some a)
    (hserves : f.hub.Serves a) : (c.tearDown f).2.hub.IsOff a := by
  unfold tearDown
  rw [if_pos hl]
  simp only [Feed.hub_report]
  split
  · exact isOff_release (Hub.Step.sound hs (.get false)) ha
      (hserves.congr (hs.mailboxesOf_get false))
  · exact isOff_release hs ha hserves

end Channel

end PushFeed
