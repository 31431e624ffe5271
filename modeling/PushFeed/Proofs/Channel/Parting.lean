import PushFeed.Proofs.Channel.Listening
/-!
# How a channel leaves

At its end a channel takes its listener off and, if it is to, lets its topic go. It does
both on the one connection it listens on, where its request has gone out (`Grounded`); of
that connection it changes the mailboxes and the queue, and of all others nothing
(`Leaves`).

A channel that has had no turn yet first begins: it asks for a connection before it looks
whether it is to end (`Channel.begun`). So where there is no connection yet, it makes the
first one as it leaves (`hub_tearDown_of_empty`), and this is all that its beginning does
(`begun_cases`).
-/

namespace PushFeed

namespace Channel

variable {c : Channel} {f f' : Feed} {g : Nat} {a : Attachment} {text : String}
  {p q : Channel × Feed}

/-! ## Where a channel listens -/

/-- A channel listens only where its request has gone out. -/
def Grounded (c : Channel) : Prop := ∀ a, c.attached = some a → c.sentOn = some a.generation

theorem Move.grounded (m : Move p q) (hc : p.1.Grounded) : q.1.Grounded := by
  cases m with
  | report | ask | notice | reject | breakDown | resume | giveTime | force | wait => exact hc
  | await | again | announce =>
    rw [publish_eq]
    exact hc
  | stall =>
    simp only [Channel.stall, publish_eq]
    exact hc
  | take =>
    obtain ⟨_, _, _, _, heq⟩ := handleFrame_eq _ _ _
    rw [heq]
    exact hc
  | letGo =>
    intro a ha
    cases ha
  | lose =>
    intro a ha
    rw [(detach_eq _ _).1] at ha
    cases ha
  | @send c f f' g text _ _ _ hf =>
    intro a ha
    rw [publish_eq] at ha ⊢
    obtain ⟨_, heq⟩ := ((c.requested g).attach_eq f' g).1
    have hsent : ((c.requested g).attach f' g).1.sentOn = some g := by
      rw [heq]
      rfl
    refine hsent.trans (congrArg some ?_)
    -- the listener is the one that was there, or the one that was added
    rcases (c.requested g).attach_cases f' g with ⟨hsame, b, hb, rfl⟩ | ⟨-, hsame⟩ | ⟨d, -, hnew, -⟩
    · rw [hsame, hb] at ha
      cases ha
      rfl
    · rw [hsame, (detach_eq _ _).1] at ha
      cases ha
    · cases hnew.symm.trans ha
      rfl

/-! ## Letting go -/

/-- The feed once the channel has begun: one that has had no turn asks for a connection. -/
def begun (c : Channel) (f : Feed) : Feed :=
  if c.phase = .starting then f.getConnection false else f

/-- What a channel queues as it leaves, where it may. -/
def farewell (c : Channel) (h : Hub) (g : Nat) : List Outbound :=
  if c.options.unsubscribeOnClose ∧ h.takesTexts g then
    match (ClientMessage.unsubscribe c.topic.channel).text? with
    | .ok text => [.text text]
    | .error _ => []
  else []

/-- Whether a channel that leaves queues the text for it: it is to, it listens on the
connection, and the connection takes texts. -/
def Departs (c : Channel) (h : Hub) (g : Nat) : Prop :=
  c.options.unsubscribeOnClose = true ∧ c.attached.map (·.generation) = some g ∧
    h.takesTexts g = true

/-- The hub once a channel has queued what it leaves with. -/
def withFarewell (c : Channel) (h : Hub) (g : Nat) : Hub :=
  h.modify g fun d => { d with outbound := d.outbound ++ c.farewell h g }

/-- Letting the topic go queues the text for it where the connection takes one. -/
theorem hub_unsubscribe (hsent : c.sentOn = some g) :
    (c.unsubscribe f g).hub = c.withFarewell f.hub g := by
  have hnone : c.farewell f.hub g = [] → f.hub = c.withFarewell f.hub g := by
    intro h
    simp only [withFarewell, h, List.append_nil]
    exact (f.hub.modify_id g).symm
  unfold unsubscribe
  split
  · rename_i hleaves
    cases ht : (ClientMessage.unsubscribe c.topic.channel).text? with
    | error e => exact hnone (by simp [farewell, ht])
    | ok text =>
      cases hf : f.sendText g text with
      | error e =>
        have hno : f.hub.takesTexts g = false := by
          rw [← Bool.not_eq_true, ← Feed.exists_sendText_iff text, hf]
          nofun
        simp only [Except.bind, hf]
        exact hnone (by simp [farewell, hno])
      | ok f' =>
        have htakes := (Feed.exists_sendText_iff text).1 ⟨f', hf⟩
        obtain ⟨-, -, rfl⟩ := Feed.sendText_eq_ok hf
        simp only [Except.bind, hf, withFarewell, Hub.queue]
        simp [farewell, ht, htakes, hleaves.1]
  · rename_i hstays
    refine hnone ?_
    rw [farewell, if_neg]
    rintro ⟨hopt, htakes⟩
    exact hstays ⟨hopt, hsent, (ReadyState.isOpen_iff _).2 (Hub.stateOf_of_takesTexts htakes)⟩

/-- **What a channel that leaves does to the hub.** -/
theorem hub_release (hc : c.Grounded) :
    (c.release f).2.hub = match c.attached with
      | none => f.hub
      | some a => c.withFarewell
          (f.hub.modify a.generation fun d => (d.apply (.removeListener a.listener)).1)
            a.generation := by
  cases ha : c.attached with
  | none => simp only [release, ha]
  | some a =>
    simp only [release, ha]
    have hdetach := hub_detach_of_some (f := f) ha
    have heq := (c.detach_eq f).1
    generalize c.detach f = q at hdetach heq
    obtain ⟨d, f'⟩ := q
    dsimp only at hdetach heq ⊢
    subst heq
    have hunsubscribe : (unsubscribe { c with attached := none } f' a.generation).hub =
        withFarewell { c with attached := none } f'.hub a.generation :=
      hub_unsubscribe (hc a ha)
    rw [hunsubscribe, hdetach]
    rfl

theorem farewell_congr {h h' : Hub} (ht : h'.takesTexts g = h.takesTexts g) :
    c.farewell h' g = c.farewell h g := by
  rw [farewell, farewell, ht]

theorem find?_withFarewell (c : Channel) (h : Hub) (g g' : Nat) :
    (c.withFarewell h g).find? g' = if g = g' then
      (h.find? g').map fun d => { d with outbound := d.outbound ++ c.farewell h g }
      else h.find? g' := by
  rw [withFarewell, Hub.find?_modify]

theorem mailboxesOf_withFarewell (c : Channel) (h : Hub) (g g' : Nat) :
    (c.withFarewell h g).mailboxesOf g' = h.mailboxesOf g' := by
  rw [Hub.mailboxesOf, Hub.mailboxesOf, find?_withFarewell]
  split
  · cases h.find? g' <;> rfl
  · rfl

/-- What is left with joins the queue, of a connection that is there. -/
theorem adds_withFarewell (c : Channel) (h : Hub) (g g' : Nat) :
    h.Adds (c.withFarewell h g) g' (if g = g' then c.farewell h g else []) := by
  rw [Hub.Adds, Hub.outboundOf, Hub.outboundOf, find?_withFarewell]
  split
  · rename_i heq
    subst heq
    cases hd : h.find? g with
    | none => simp [farewell, Hub.takesTexts, hd]
    | some d => rfl
  · exact (List.append_nil _).symm

/-- **What a channel that leaves makes of the hub**: its listener is taken off, and what it
leaves with joins the queue of that connection; all else stays as it was. -/
structure Leaves (c : Channel) (h h' : Hub) : Prop where
  generation_eq : h'.generation = h.generation
  find? : ∀ g d, h.find? g = some d →
    ∃ mailboxes outbound, h'.find? g = some { d with mailboxes, outbound }
  mailboxAt_eq : ∀ a, h'.mailboxAt a =
    if c.attached = some a then (h.mailboxAt a).map fun m => { m with registered := false }
    else h.mailboxAt a
  adds : ∀ g, h.Adds h' g (if c.attached.map (·.generation) = some g then c.farewell h g else [])

theorem Leaves.find?_none {h h' : Hub} (hl : c.Leaves h h') (hd : h.find? g = none) :
    h'.find? g = none := by
  rw [← Option.not_isSome_iff_eq_none, Hub.find?_isSome_iff] at hd ⊢
  rwa [hl.generation_eq]

theorem Leaves.stateOf_eq {h h' : Hub} (hl : c.Leaves h h') (g : Nat) :
    h'.stateOf g = h.stateOf g := by
  cases hd : h.find? g with
  | none => rw [Hub.stateOf, Hub.stateOf, hd, hl.find?_none hd]
  | some d =>
    obtain ⟨mailboxes, outbound, hd'⟩ := hl.find? g d hd
    rw [Hub.stateOf_of_find? hd, Hub.stateOf_of_find? hd']

theorem leaves_of_none (ha : c.attached = none) (h : Hub) : c.Leaves h h where
  generation_eq := rfl
  find? g d hd := ⟨d.mailboxes, d.outbound, hd⟩
  mailboxAt_eq a := by simp [ha]
  adds g := by simpa [ha] using Hub.Adds.refl h g

theorem leaves_release (hc : c.Grounded) : c.Leaves f.hub (c.release f).2.hub := by
  have hrelease := hub_release (f := f) hc
  cases ha : c.attached with
  | none =>
    rw [ha] at hrelease
    rw [hrelease]
    exact leaves_of_none ha _
  | some a =>
    rw [ha] at hrelease
    dsimp only at hrelease
    have hquiet := (c.detach_eq f).2.1
    have hoff := f.hub.mailboxAt_removeListener a
    rw [hub_detach_of_some ha] at hquiet
    rw [hrelease]
    generalize (f.hub.modify a.generation fun d =>
      (d.apply (.removeListener a.listener)).1) = h at hquiet hoff ⊢
    refine ⟨?_, fun g d hd => ?_, fun b => ?_, fun g => ?_⟩
    · rw [withFarewell, Hub.generation_modify, hquiet.generation_eq]
    · obtain ⟨mailboxes, hd'⟩ := hquiet.find? hd
      rw [find?_withFarewell, hd']
      split
      · exact ⟨_, _, rfl⟩
      · exact ⟨_, _, rfl⟩
    · rw [Hub.mailboxAt_congr (mailboxesOf_withFarewell c h a.generation), hoff, ha]
      simp only [Option.some.injEq]
    · have hadds := (hquiet.adds g).trans (adds_withFarewell c h a.generation g)
      rw [farewell_congr (hquiet.takesTexts_eq a.generation)] at hadds
      rw [ha]
      by_cases hg : a.generation = g
      · subst hg
        simpa using hadds
      · simpa [hg] using hadds

/-- **The end of a channel**, once it has begun. -/
theorem leaves_tearDown (hc : c.Grounded) (hm : c.Moored) (f : Feed) :
    c.Leaves (c.begun f).hub (c.tearDown f).2.hub := by
  cases hl : c.isLive with
  | true =>
    have hleaves := leaves_release (f := c.begun f) hc
    unfold tearDown
    rw [if_pos hl]
    exact hleaves
  | false =>
    -- a channel that is done has begun long ago, and listens nowhere
    have hphase : c.phase = .ended ∨ c.phase = .broken := by
      unfold isLive at hl
      split at hl <;> simp_all
    have hbegun : c.begun f = f := by
      refine if_neg ?_
      rcases hphase with hp | hp <;> rw [hp] <;> nofun
    have hnone : c.attached = none := by
      refine hm.attached_of_phase fun g seen => ?_
      rcases hphase with hp | hp <;> rw [hp] <;> nofun
    rw [tearDown_of_not_isLive hl, hbegun]
    exact leaves_of_none hnone f.hub

/-- Beginning makes the first connection, if there is none, and changes nothing else. -/
theorem begun_cases (c : Channel) (f : Feed) :
    (c.begun f).hub = f.hub ∨ c.phase = .starting ∧ f.hub.generation = 0 ∧
      (c.begun f).hub = f.hub.connect.1 := by
  unfold begun
  split
  · rename_i hp
    rw [Feed.hub_getConnection]
    rcases Nat.eq_zero_or_pos f.hub.generation with hz | hpos
    · exact .inr ⟨hp, hz, by rw [Hub.get_false_of_empty hz]⟩
    · exact .inl (by rw [Hub.get_false_of_pos hpos])
  · exact .inl rfl

/-- A channel that has had no turn listens nowhere. -/
theorem Moored.attached_of_starting (hm : c.Moored) (hp : c.phase = .starting) :
    c.attached = none := by
  refine hm.attached_of_phase fun g seen => ?_
  rw [hp]
  nofun

/-- A channel that leaves before its first turn makes the first connection, if there is none,
and does nothing else. -/
theorem hub_tearDown_of_empty (hm : c.Moored) (hp : c.phase = .starting)
    (hz : f.hub.generation = 0) : (c.tearDown f).2.hub = f.hub.connect.1 := by
  have hlive : c.isLive = true := by
    rw [isLive, hp]
  unfold tearDown
  rw [if_pos hlive, if_pos hp]
  simp only [release, hm.attached_of_starting hp]
  rw [Feed.hub_report, Feed.hub_getConnection, Hub.get_false_of_empty hz]

/-- Beginning has no say in whether a channel that leaves queues the text for it. -/
theorem departs_begun_iff (hm : c.Moored) (f : Feed) (g : Nat) :
    c.Departs (c.begun f).hub g ↔ c.Departs f.hub g := by
  rcases c.begun_cases f with hsame | ⟨hp, -, -⟩
  · rw [hsame]
  · -- before its first turn it listens nowhere
    simp [Departs, hm.attached_of_starting hp]

/-- Beginning changes no mailbox. -/
theorem mailboxAt_begun (c : Channel) (hs : f.hub.Sound) (a : Attachment) :
    (c.begun f).hub.mailboxAt a = f.hub.mailboxAt a := by
  unfold begun
  split
  · rw [Feed.hub_getConnection]
    exact Hub.mailboxAt_congr (hs.mailboxesOf_get false) a
  · rfl

end Channel

end PushFeed
