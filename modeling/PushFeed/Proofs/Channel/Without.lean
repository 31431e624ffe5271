import PushFeed.Proofs.Channel.Intake
import PushFeed.Proofs.Channel.Parting
import PushFeed.Proofs.Connection.Without
/-!
# Channels beside one that is missing

A channel that works on a connection does the same where another listener has never been on
it: it finds the same frames, reads them alike, queues the same texts and publishes the same
(`InStep.turn`, `InStep.tearDown`). Its own listener may have another number, and that is all
the difference (`Channel.without`).

What the missing channel itself does on that connection does not show there
(`Moves.unseen`).
-/

namespace PushFeed

namespace Feed

variable {f f' : Feed} {g b : Nat}

theorem sendText_of_takesTexts (ht : f.hub.takesTexts g = true) (text : String) :
    f.sendText g text = .ok { f with hub := f.hub.queue g text } := by
  obtain ⟨f', hf⟩ := (exists_sendText_iff text).2 ht
  rw [hf, (sendText_eq_ok hf).2.2]

theorem exists_error_of_not_takesTexts (ht : f.hub.takesTexts g = false) (text : String) :
    ∃ e, f.sendText g text = .error e := by
  cases hf : f.sendText g text with
  | error e => exact ⟨e, rfl⟩
  | ok f' =>
    have htakes := (exists_sendText_iff text).1 ⟨f', hf⟩
    rw [ht] at htakes
    cases htakes

/-- Whether a listener has been there does not matter to texts: both connections take one, or
neither does. -/
theorem sendText_of_without (hw : f.hub.Without g b f'.hub) (text : String) :
    (∃ e e', f.sendText g text = .error e ∧ f'.sendText g text = .error e') ∨
      (f.sendText g text = .ok { f with hub := f.hub.queue g text } ∧
        f'.sendText g text = .ok { f' with hub := f'.hub.queue g text }) := by
  cases htakes : f.hub.takesTexts g with
  | false =>
    obtain ⟨e, he⟩ := exists_error_of_not_takesTexts htakes text
    obtain ⟨e', he'⟩ := exists_error_of_not_takesTexts (hw.takesTexts_eq.trans htakes) text
    exact .inl ⟨e, e', he, he'⟩
  | true =>
    exact .inr ⟨sendText_of_takesTexts htakes text,
      sendText_of_takesTexts (hw.takesTexts_eq.trans htakes) text⟩

/-- Where there is a connection, asking for one changes nothing. -/
theorem getConnection_of_pos (hpos : 0 < f.hub.generation) :
    f.getConnection false = f.report [] := by
  rw [getConnection, Hub.get_false_of_pos hpos]

end Feed

namespace Hub

/-- What comes in part of a time comes in all of it. -/
theorem addedOn_subset {h₁ h₂ h₃ h₄ : Hub} {g : Nat}
    (hle : (h₁.mailboxesOf g).length ≤ (h₂.mailboxesOf g).length)
    (hle' : (h₃.mailboxesOf g).length ≤ (h₄.mailboxesOf g).length) :
    h₂.addedOn h₃ g ⊆ h₁.addedOn h₄ g := by
  intro n hn
  rw [mem_addedOn] at hn ⊢
  omega

end Hub

namespace Channel

variable {c c' d d' : Channel} {f f' e e' : Feed} {g b : Nat} {h h' : Hub}

/-- The channel where a listener of its connection has never been. -/
def without (b : Nat) (c : Channel) : Channel :=
  { c with attached :=
      c.attached.map fun a => { a with listener := Connection.numberWithout b a.listener } }

theorem without_of_new (hb : ∀ a, c.attached = some a → b = 0 ∨ a.listener < b) :
    c.without b = c := by
  unfold without
  cases ha : c.attached with
  | none => rw [Option.map_none, ← ha]
  | some a => rw [Option.map_some, Connection.numberWithout_of_new (hb a ha), ← ha]

theorem attached_without {a : Attachment} (ha : c.attached = some a) :
    (c.without b).attached =
      some ⟨a.generation, Connection.numberWithout b a.listener⟩ := by
  rw [without, ha, Option.map_some]

theorem attached_without_of_none (ha : c.attached = none) : (c.without b).attached = none := by
  rw [without, ha, Option.map_none]

theorem publish_without (c : Channel) (s : ChannelState) :
    (c.publish s).without b = (c.without b).publish s := by
  rw [publish_eq, publish_eq]
  rfl

/-- A frame is read alike, whatever has been read before. -/
theorem handleFrame_without (c : Channel) (hf : f.Faithful) (hf' : f'.Faithful)
    (frame : Wire.Bytes) :
    ((c.without b).handleFrame f' frame).1 = (c.handleFrame f frame).1.without b := by
  have hsame : (c.without b).outcome f' frame = c.outcome f frame := by
    rw [outcome, outcome, (hf.decodeAs ..).1]
    exact (hf'.decodeAs ..).1
  cases hfailed : c.schemaFailed with
  | true =>
    rw [handleFrame_of_schemaFailed hfailed, handleFrame_of_schemaFailed (c := c.without b) hfailed]
    rfl
  | false =>
    cases hresult : c.outcome f frame with
    | ok m =>
      rw [handleFrame_of_ok hfailed hresult,
        handleFrame_of_ok (c := c.without b) hfailed (hsame.trans hresult)]
      rfl
    | error e =>
      rw [handleFrame_of_error hfailed hresult,
        handleFrame_of_error (c := c.without b) hfailed (hsame.trans hresult)]
      rfl

/-! ## In step -/

/-- Two channels and what they work on, the second where a listener of the connection has
never been. They have been in step since two earlier moments: on every connection they have
queued the same. -/
structure InStep (g b : Nat) (h h' : Hub) (p p' : Channel × Feed) : Prop where
  channel_eq : p'.1 = p.1.without b
  /-- It listens on that connection only, and not as the one who has never been. -/
  apart : ∀ a, p.1.attached = some a → a.generation = g ∧ a.listener ≠ b
  hub : p.2.hub.Without g b p'.2.hub
  faithful : p.2.Faithful
  faithful' : p'.2.Faithful
  adds : ∀ k, ∃ added, h.Adds p.2.hub k added ∧ h'.Adds p'.2.hub k added

/-- What the two do alike without queueing anything keeps them in step. -/
theorem InStep.quiet (hs : InStep g b h h' (c, f) (c.without b, f'))
    (hd : ∀ a, d.attached = some a → a.generation = g ∧ a.listener ≠ b)
    (hhub : e.hub.Without g b e'.hub) (hq : f.hub.Quiet e.hub) (hq' : f'.hub.Quiet e'.hub)
    (he : e.Faithful) (he' : e'.Faithful) : InStep g b h h' (d, e) (d.without b, e') where
  channel_eq := rfl
  apart := hd
  hub := hhub
  faithful := he
  faithful' := he'
  adds k := by
    obtain ⟨added, hadds, hadds'⟩ := hs.adds k
    exact ⟨added, by simpa using hadds.trans (hq.adds k), by simpa using hadds'.trans (hq'.adds k)⟩

/-- What the two do to themselves alike keeps them in step. -/
theorem InStep.own (hs : InStep g b h h' (c, f) (c.without b, f')) (hd : d.attached = c.attached) :
    InStep g b h h' (d, f) (d.without b, f') :=
  hs.quiet (fun a ha => hs.apart a (hd ▸ ha)) hs.hub (.refl _) (.refl _) hs.faithful hs.faithful'

theorem InStep.publish (hs : InStep g b h h' (c, f) (c', f')) (s : ChannelState) :
    InStep g b h h' (c.publish s, f) (c'.publish s, f') := by
  obtain rfl : c' = c.without b := hs.channel_eq
  rw [← publish_without]
  exact hs.own (by rw [publish_eq])

theorem InStep.report (hs : InStep g b h h' (c, f) (c', f')) (lines lines' : List LogLine) :
    InStep g b h h' (c, f.report lines) (c', f'.report lines') := by
  obtain rfl : c' = c.without b := hs.channel_eq
  exact hs.quiet hs.apart hs.hub (.refl _) (.refl _) ⟨hs.faithful.loader_eq, hs.faithful.cache⟩
    ⟨hs.faithful'.loader_eq, hs.faithful'.cache⟩

/-! ## Frames -/

/-- The two take in a frame. -/
theorem InStep.handleFrame (hs : InStep g b h h' (c, f) (c', f')) (frame : Wire.Bytes) :
    InStep g b h h' (c.handleFrame f frame) (c'.handleFrame f' frame) := by
  obtain rfl : c' = c.without b := hs.channel_eq
  have hhub := c.hub_handleFrame f frame
  have hhub' := (c.without b).hub_handleFrame f' frame
  have hfaithful := faithful_handleFrame c hs.faithful frame
  have hfaithful' := faithful_handleFrame (c.without b) hs.faithful' frame
  have hsame := handleFrame_without c (b := b) hs.faithful hs.faithful' frame
  have hattached := attached_handleFrame c f frame
  generalize c.handleFrame f frame = q at *
  generalize (c.without b).handleFrame f' frame = q' at *
  obtain ⟨d, e⟩ := q
  obtain ⟨d', e'⟩ := q'
  dsimp only at hhub hhub' hsame hattached
  subst hsame
  refine hs.quiet (fun a ha => hs.apart a (hattached ▸ ha)) ?_ ?_ ?_ hfaithful hfaithful'
  · rw [hhub, hhub']
    exact hs.hub
  · rw [hhub]
    exact .refl _
  · rw [hhub']
    exact .refl _

/-- What taking the next frame comes to is what its listener gets. -/
theorem handleNext_of_find? {a : Attachment} {connection : Connection} (ha : c.attached = some a)
    (hd : f.hub.find? a.generation = some connection) :
    c.handleNext f = match (connection.receive a.listener).1 with
      | .pending => (c, received f a connection)
      | .ready none => ({ c with attached := none }, received f a connection)
      | .ready (some frame) => c.handleFrame (received f a connection) frame := by
  simp only [Channel.handleNext, ha, hd]
  rfl

/-- The two look into their mailboxes. -/
theorem InStep.received {n : Nat} {connection connection' : Connection}
    (hs : InStep g b h h' (c, f) (c.without b, f')) (hn : n ≠ b)
    (hd : f.hub.find? g = some connection) (hd' : f'.hub.find? g = some connection') :
    InStep g b h h' (c, received f ⟨g, n⟩ connection)
      (c.without b, received f' ⟨g, Connection.numberWithout b n⟩ connection') := by
  have ha : ConnectionAction.without b (.receive n) =
      some (.receive (Connection.numberWithout b n)) := if_neg hn
  refine hs.quiet hs.apart ?_ (received_eq (a := ⟨g, n⟩) hd).1
    (received_eq (a := ⟨g, Connection.numberWithout b n⟩) hd').1
    ((still_received (a := ⟨g, n⟩) hd).faithful hs.faithful)
    ((still_received (a := ⟨g, Connection.numberWithout b n⟩) hd').faithful hs.faithful')
  rw [hub_received (a := ⟨g, n⟩) hd, hub_received (a := ⟨g, Connection.numberWithout b n⟩) hd']
  exact hs.hub.act ha nofun

/-- The two take the next frame, or neither does. -/
theorem InStep.handleNext (hs : InStep g b h h' (c, f) (c', f')) :
    InStep g b h h' (c.handleNext f) (c'.handleNext f') := by
  obtain rfl : c' = c.without b := hs.channel_eq
  cases ha : c.attached with
  | none =>
    simpa only [Channel.handleNext, ha, attached_without_of_none ha] using hs
  | some a =>
    obtain ⟨hg, hn⟩ := hs.apart a ha
    obtain ⟨g', n⟩ := a
    obtain rfl : g = g' := hg.symm
    obtain ⟨d, outbound, hd, hd'⟩ := hs.hub.find?
    have hreceived := hs.received hn hd hd'
    have hsame := d.receive_without hn outbound
    rw [handleNext_of_find? ha hd, handleNext_of_find? (attached_without ha) hd', hsame]
    split
    · exact hreceived
    · exact hreceived.quiet (fun _ ha => by cases ha) hreceived.hub (.refl _) (.refl _)
        hreceived.faithful hreceived.faithful'
    · exact hreceived.handleFrame _

theorem InStep.handleMany (n : Nat) (hs : InStep g b h h' (c, f) (c', f')) :
    InStep g b h h' (handleMany n c f) (handleMany n c' f') := by
  induction n generalizing c f c' f' with
  | zero => exact hs
  | succ n ih => exact ih hs.handleNext

/-- As many frames wait for the one as for the other. -/
theorem InStep.waiting_eq (hs : InStep g b h h' (c, f) (c', f')) :
    c'.waiting f' = c.waiting f := by
  obtain rfl : c' = c.without b := hs.channel_eq
  cases ha : c.attached with
  | none => simp only [waiting, ha, attached_without_of_none ha]
  | some a =>
    obtain ⟨hg, hn⟩ := hs.apart a ha
    obtain ⟨g', n⟩ := a
    obtain rfl : g = g' := hg.symm
    obtain ⟨d, outbound, hd, hd'⟩ := hs.hub.find?
    have hsame : Connection.mailbox? { d.without b with outbound }
        (Connection.numberWithout b n) = d.mailbox? n :=
      (Connection.mailbox?_outbound _ _ _).trans (d.mailbox?_without hn)
    simp only [waiting, ha, attached_without ha, hd, hd', Option.bind_some, hsame]

theorem InStep.handleAll (hs : InStep g b h h' (c, f) (c', f')) :
    InStep g b h h' (c.handleAll f) (c'.handleAll f') := by
  unfold Channel.handleAll
  rw [hs.waiting_eq]
  exact hs.handleMany _

/-! ## Asking -/

/-- A text that the one queues, the other queues too. -/
theorem InStep.queue (hs : InStep g b h h' (c, f) (c.without b, f')) (text : String) :
    InStep g b h h' (c, { f with hub := f.hub.queue g text })
      (c.without b, { f' with hub := f'.hub.queue g text }) where
  channel_eq := rfl
  apart := hs.apart
  hub := hs.hub.queue text
  faithful := ⟨hs.faithful.loader_eq, hs.faithful.cache⟩
  faithful' := ⟨hs.faithful'.loader_eq, hs.faithful'.cache⟩
  adds k := by
    obtain ⟨d, outbound, hd, hd'⟩ := hs.hub.find?
    obtain ⟨added, hadds, hadds'⟩ := hs.adds k
    exact ⟨_, hadds.trans (Hub.adds_queue hd text k), hadds'.trans (Hub.adds_queue hd' text k)⟩

/-- Attaching where there is no listener. -/
theorem attach_of_none {connection : Connection} (ha : c.attached = none)
    (hd : f.hub.find? g = some connection) :
    c.attach f g = ({ c with attached := some ⟨g, connection.addListener.1⟩ },
      f.onConnection g fun connection => connection.apply .addListener) := by
  simp only [attach, ha, Option.any_none, Bool.false_eq_true, if_false, detach_of_none ha, hd]
  rfl

/-- Sending a text and attaching where there is no listener adds one. -/
theorem addedOn_attach {text : String} {connection : Connection} (hf : f.sendText g text = .ok f')
    (ha : c.attached = none) (hd : f'.hub.find? g = some connection) :
    f.hub.addedOn (c.attach f' g).2.hub g = [connection.mailboxes.length + 1] := by
  rw [← Hub.addedOn_congr (mailboxesOf_sendText hf), attach_of_none ha hd, Feed.hub_onConnection,
    Hub.addedOn_addListener hd, if_pos rfl]

/-- The two attach, unless it is the missing listener that is due. -/
theorem InStep.attach (hs : InStep g b h h' (c, f) (c', f')) (ha : c.attached = none)
    (hb : b ≠ (f.hub.mailboxesOf g).length + 1) :
    InStep g b h h' (c.attach f g) (c'.attach f' g) := by
  obtain rfl : c' = c.without b := hs.channel_eq
  obtain ⟨d, outbound, hd, hd'⟩ := hs.hub.find?
  have hattach := attach_of_none ha hd
  have hattach' := attach_of_none (attached_without_of_none (b := b) ha) hd'
  obtain ⟨-, hq, -⟩ := c.attach_eq f g
  obtain ⟨-, hq', -⟩ := (c.without b).attach_eq f' g
  have hstill := c.still_attach f g
  have hstill' := (c.without b).still_attach f' g
  rw [hattach] at hq hstill ⊢
  rw [hattach'] at hq' hstill' ⊢
  rw [Hub.mailboxesOf_of_find? hd] at hb
  have hnumber : (Connection.addListener { d.without b with outbound }).1 =
      Connection.numberWithout b d.addListener.1 := (d.addListener_without hb).2
  rw [hnumber]
  refine hs.quiet (fun a ha => ?_) ?_ hq hq' (hstill.faithful hs.faithful)
    (hstill'.faithful hs.faithful')
  · cases ha
    exact ⟨rfl, Ne.symm hb⟩
  · rw [Feed.hub_onConnection, Feed.hub_onConnection]
    refine hs.hub.act rfl fun _ => ?_
    rwa [Hub.mailboxesOf_of_find? hd]

/-- A channel that has not asked on the connection does not listen there. -/
theorem InStep.attached_eq_none {p' : Channel × Feed} (hs : InStep g b h h' (c, f) p')
    (hc : c.Grounded) (hsent : c.sentOn ≠ some g) : c.attached = none := by
  cases ha : c.attached with
  | none => rfl
  | some a => exact absurd ((hs.apart a ha).1 ▸ hc a ha) hsent

/-- The two ask on their connection, or neither does. -/
theorem InStep.subscribe (hs : InStep g b h h' (c, f) (c', f')) (hc : c.Grounded)
    (hb : b ∉ f.hub.addedOn (c.subscribe f g).2.hub g) :
    InStep g b h h' (c.subscribe f g) (c'.subscribe f' g) := by
  obtain rfl : c' = c.without b := hs.channel_eq
  unfold Channel.subscribe at hb ⊢
  by_cases hsent : c.sentOn = some g
  · have hsent' : (c.without b).sentOn = some g := hsent
    rw [if_pos hsent, if_pos hsent']
    exact hs.publish _
  · have hsent' : (c.without b).sentOn ≠ some g := hsent
    have hnone := hs.attached_eq_none hc hsent
    rw [if_neg hsent] at hb
    rw [if_neg hsent, if_neg hsent']
    by_cases hrejected : c.rejectedOn = some g
    · have hrejected' : (c.without b).rejectedOn = some g := hrejected
      rw [if_pos hrejected, if_pos hrejected']
      exact hs
    · have hrejected' : (c.without b).rejectedOn ≠ some g := hrejected
      rw [if_neg hrejected] at hb
      rw [if_neg hrejected, if_neg hrejected']
      cases ht : c.request.text? with
      | error e =>
        have ht' : (c.without b).request.text? = .error e := ht
        simp only [ht']
        exact (hs.own (d := { c with rejectedOn := some g }) rfl).report _ _
      | ok text =>
        have ht' : (c.without b).request.text? = .ok text := ht
        simp only [ht] at hb
        simp only [ht']
        rcases Feed.sendText_of_without hs.hub text with ⟨e, e', he, he'⟩ | ⟨hf, hf'⟩
        · simp only [he, he']
          exact hs.report _ _
        · simp only [hf] at hb
          simp only [hf, hf']
          have hqueued := (hs.queue text).own (d := c.requested g) rfl
          have hnew : b ≠ ((f.hub.queue g text).mailboxesOf g).length + 1 := by
            obtain ⟨d, outbound, hd, -⟩ := hqueued.hub.find?
            have hadded := addedOn_attach (c := c.requested g) hf hnone hd
            rintro rfl
            rw [Hub.mailboxesOf_of_find? hd] at hb
            exact hb (hadded ▸ List.mem_singleton_self _)
          have hattached := hqueued.attach hnone hnew
          exact (hattached.publish _).report _ _

/-- The two look at their connection, which is not on its way out. -/
theorem InStep.look (hs : InStep g b h h' (c, f) (c', f')) (hc : c.Grounded)
    (hlive : (f.hub.stateOf g).isTerminal = false)
    (hb : b ∉ f.hub.addedOn (c.look f g).2.hub g) :
    InStep g b h h' (c.look f g) (c'.look f' g) := by
  obtain rfl : c' = c.without b := hs.channel_eq
  unfold Channel.look at hb ⊢
  rw [hs.hub.stateOf_eq]
  cases hstate : f.hub.stateOf g with
  | connecting => exact (hs.own (d := { c with phase := .following g .connecting }) rfl).publish _
  | «open» =>
    simp only [hstate] at hb
    exact (hs.own (d := { c with phase := .following g .open }) rfl).subscribe hc hb
  | closing | closed =>
    rw [hstate] at hlive
    cases hlive

theorem InStep.getConnection (hs : InStep g b h h' (c, f) (c', f')) :
    InStep g b h h' (c, f.getConnection false) (c', f'.getConnection false) := by
  obtain ⟨hpos, hpos'⟩ := hs.hub.generation_pos
  rw [Feed.getConnection_of_pos hpos, Feed.getConnection_of_pos hpos']
  exact hs.report _ _

/-! ## Turns -/

/-- The channel works on one connection: it is about to begin, it follows that one, or it is
done. -/
def IsOn (c : Channel) (g : Nat) : Prop :=
  c.phase = .starting ∨ (∃ seen, c.phase = .following g seen) ∨ c.phase = .ended

/-- **A turn keeps the two in step**, unless the channel takes the missing one's place. -/
theorem InStep.turn (hs : InStep g b h h' (c, f) (c', f')) (hc : c.Grounded) (hon : c.IsOn g)
    (hgen : f.hub.generation = g) (hlive : (f.hub.stateOf g).isTerminal = false)
    (hsound : f.hub.Sound) (first : Precedence)
    (hb : b ∉ f.hub.addedOn (c.turn f first).2.hub g) :
    InStep g b h h' (c.turn f first) (c'.turn f' first) := by
  obtain rfl : c' = c.without b := hs.channel_eq
  rcases hon with hp | ⟨seen, hp⟩ | hp
  · have hp' : (c.without b).phase = .starting := hp
    obtain ⟨hpos, hpos'⟩ := hs.hub.generation_pos
    simp only [Channel.turn, hp, Feed.getConnection_of_pos hpos, Feed.hub_report, hgen] at hb
    simp only [Channel.turn, hp, hp', Feed.getConnection_of_pos hpos,
      Feed.getConnection_of_pos hpos', Feed.hub_report, hgen, hs.hub.generation_eq]
    exact (hs.report [] []).look hc hlive hb
  · have hp' : (c.without b).phase = .following g seen := hp
    by_cases hstate : f.hub.stateOf g = seen
    · have hstate' : f'.hub.stateOf g = seen := hs.hub.stateOf_eq.trans hstate
      simp only [Channel.turn, hp, hp', if_pos hstate, if_pos hstate']
      exact hs.handleAll
    · have hstate' : f'.hub.stateOf g ≠ seen := hs.hub.stateOf_eq ▸ hstate
      have hmany := hs.handleMany (ahead first)
      have hquiet := quiet_handleMany (ahead first) c f
      rw [turn_of_ne hp hstate rfl] at hb ⊢
      rw [turn_of_ne hp' hstate' rfl]
      have hms := handleMany_moves (ahead first) c f
      have hphase := (phase_handleMany (ahead first) c f).trans hp
      generalize Channel.handleMany (ahead first) c f = q at *
      refine (hmany.look (hms.keep Move.grounded hc) ?_ fun hmem => hb ?_).handleAll
      · rwa [hquiet.stateOf_eq]
      · -- what the look brings comes in the turn
        have hsound' := hms.evolves.sound hsound
        have hlook := (look_moves (c := q.1) (f := q.2) (.inr ⟨seen, hphase⟩)).evolves
        have hall := handleMany_moves ((q.1.look q.2 g).1.waiting (q.1.look q.2 g).2 + 1)
          (q.1.look q.2 g).1 (q.1.look q.2 g).2
        exact Hub.addedOn_subset (hms.evolves.length_mailboxesOf_le hsound g)
          (hall.evolves.length_mailboxesOf_le (hlook.sound hsound') g) hmem
  · have hp' : (c.without b).phase = .ended := hp
    simp only [Channel.turn, hp, hp']
    exact hs

/-! ## The end -/

/-- The two let go of their listeners. -/
theorem InStep.detach (hs : InStep g b h h' (c, f) (c', f')) :
    InStep g b h h' (c.detach f) (c'.detach f') := by
  obtain rfl : c' = c.without b := hs.channel_eq
  obtain ⟨heq, hq, -⟩ := c.detach_eq f
  obtain ⟨heq', hq', -⟩ := (c.without b).detach_eq f'
  have hstill := c.still_detach f
  have hstill' := (c.without b).still_detach f'
  cases ha : c.attached with
  | none =>
    rw [detach_of_none ha, detach_of_none (attached_without_of_none ha)]
    exact hs
  | some a =>
    obtain ⟨hg, hn⟩ := hs.apart a ha
    have hhub := hub_detach_of_some (f := f) ha
    have hhub' := hub_detach_of_some (f := f') (attached_without (b := b) ha)
    generalize c.detach f = q at *
    generalize (c.without b).detach f' = q' at *
    obtain ⟨d, e⟩ := q
    obtain ⟨d', e'⟩ := q'
    dsimp only at heq heq' hhub hhub'
    subst heq heq'
    refine hs.quiet nofun ?_ hq hq' (hstill.faithful hs.faithful) (hstill'.faithful hs.faithful')
    rw [hhub, hhub', hg]
    exact hs.hub.act (if_neg hn) nofun

/-- The two let their topics go, or neither does. -/
theorem InStep.unsubscribe (hs : InStep g b h h' (c, f) (c', f')) :
    InStep g b h h' (c, c.unsubscribe f g) (c', c'.unsubscribe f' g) := by
  obtain rfl : c' = c.without b := hs.channel_eq
  unfold Channel.unsubscribe
  rw [hs.hub.stateOf_eq]
  by_cases hleaves : c.options.unsubscribeOnClose ∧ c.sentOn = some g ∧
      (f.hub.stateOf g).isOpen = true
  · have hleaves' : (c.without b).options.unsubscribeOnClose ∧ (c.without b).sentOn = some g ∧
        (f.hub.stateOf g).isOpen = true := hleaves
    rw [if_pos hleaves, if_pos hleaves']
    cases ht : (ClientMessage.unsubscribe c.topic.channel).text? with
    | error e =>
      have ht' : (ClientMessage.unsubscribe (c.without b).topic.channel).text? = .error e := ht
      simp only [ht', Except.bind]
      exact hs.report _ _
    | ok text =>
      have ht' : (ClientMessage.unsubscribe (c.without b).topic.channel).text? = .ok text := ht
      simp only [ht', Except.bind]
      rcases Feed.sendText_of_without hs.hub text with ⟨e, e', he, he'⟩ | ⟨hf, hf'⟩
      · simp only [he, he']
        exact hs.report _ _
      · simp only [hf, hf']
        exact hs.queue text
  · have hleaves' : ¬((c.without b).options.unsubscribeOnClose ∧ (c.without b).sentOn = some g ∧
        (f.hub.stateOf g).isOpen = true) := hleaves
    rw [if_neg hleaves, if_neg hleaves']
    exact hs

theorem InStep.release (hs : InStep g b h h' (c, f) (c', f')) :
    InStep g b h h' (c.release f) (c'.release f') := by
  obtain rfl : c' = c.without b := hs.channel_eq
  cases ha : c.attached with
  | none =>
    simp only [Channel.release, ha, attached_without_of_none ha]
    exact hs
  | some a =>
    simp only [Channel.release, ha, attached_without ha, (hs.apart a ha).1]
    exact hs.detach.unsubscribe

theorem InStep.ended (hs : InStep g b h h' (c, f) (c', f')) :
    InStep g b h h' ({ c with phase := .ended }, f) ({ c' with phase := .ended }, f') := by
  obtain rfl : c' = c.without b := hs.channel_eq
  exact hs.own (d := { c with phase := .ended }) rfl

/-- **The end keeps the two in step.** -/
theorem InStep.tearDown (hs : InStep g b h h' (c, f) (c', f')) :
    InStep g b h h' (c.tearDown f) (c'.tearDown f') := by
  obtain rfl : c' = c.without b := hs.channel_eq
  unfold Channel.tearDown
  by_cases hl : c.isLive = true
  · have hl' : (c.without b).isLive = true := hl
    rw [if_pos hl, if_pos hl']
    by_cases hp : c.phase = .starting
    · have hp' : (c.without b).phase = .starting := hp
      rw [if_pos hp, if_pos hp']
      exact hs.getConnection.release.ended.report _ _
    · have hp' : (c.without b).phase ≠ .starting := hp
      rw [if_neg hp, if_neg hp']
      exact hs.release.ended.report _ _
  · have hl' : (c.without b).isLive ≠ true := hl
    rw [if_neg hl, if_neg hl']
    exact hs

/-! ## What the missing channel does -/

variable {p q : Channel × Feed}

theorem IsOn.eq_of_following {k : Nat} {seen : ReadyState} (hon : c.IsOn g)
    (hp : c.phase = .following k seen) : k = g := by
  rcases hon with hp' | ⟨_, hp'⟩ | hp' <;> rw [hp] at hp' <;> cases hp'
  rfl

theorem IsOn.eq_of_looksAt {k : Nat} (hon : c.IsOn g) (hgen : f.hub.generation = g)
    (hp : c.LooksAt f k) : k = g := by
  rcases hp with ⟨-, hk, -⟩ | ⟨seen, hp⟩
  · exact hk.symm.trans hgen
  · exact hon.eq_of_following hp

theorem IsOn.not_retrying (hon : c.IsOn g) (k : Nat) (e : Episode) : c.phase ≠ .retrying k e := by
  intro hp
  rcases hon with hp' | ⟨_, hp'⟩ | hp' <;> rw [hp] at hp' <;> cases hp'

/-- A channel that works on the newest connection goes on to do so, as long as that one is not
on its way out; and it does not bring its end about. -/
theorem Move.isOn (m : Move p q) (hon : p.1.IsOn g) (hpos : 0 < g) (hgen : p.2.hub.generation = g)
    (hlive : (p.2.hub.stateOf g).isTerminal = false) :
    q.1.IsOn g ∧ q.2.hub.generation = g ∧ q.2.hub.stateOf g = p.2.hub.stateOf g := by
  cases m with
  | report | reject => exact ⟨hon, hgen, rfl⟩
  | again =>
    rw [publish_eq]
    exact ⟨hon, hgen, rfl⟩
  | ask =>
    rw [Feed.getConnection_of_pos (hgen.symm ▸ hpos)]
    exact ⟨hon, hgen, rfl⟩
  | await hp =>
    obtain rfl := hon.eq_of_looksAt hgen hp
    rw [publish_eq]
    exact ⟨.inr (.inl ⟨_, rfl⟩), hgen, rfl⟩
  | notice hp =>
    obtain rfl := hon.eq_of_looksAt hgen hp
    exact ⟨.inr (.inl ⟨_, rfl⟩), hgen, rfl⟩
  | @send c f f' g' text _ _ _ hf =>
    obtain ⟨a, heq⟩ := ((c.requested g').attach_eq f' g').1
    have hq := (send_eq (c := c) hf).1
    rw [publish_eq, heq]
    exact ⟨hon, hq.generation_eq.trans ((Hub.generation_modify ..).trans hgen),
      (hq.stateOf_eq g).trans Hub.stateOf_queue⟩
  | lose hp hs =>
    obtain rfl := hon.eq_of_looksAt hgen hp
    rw [hlive] at hs
    cases hs
  | announce hp | breakDown hp | resume hp | giveTime hp | force hp | stall hp =>
    exact absurd hp (hon.not_retrying _ _)
  | wait _ hc | letGo _ hc =>
    have hq := (received_eq hc).1
    exact ⟨hon, hq.generation_eq.trans hgen, hq.stateOf_eq g⟩
  | take _ hc =>
    have hq := (received_eq hc).1
    obtain ⟨_, _, _, _, heq⟩ := handleFrame_eq _ _ _
    rw [hub_handleFrame, heq]
    exact ⟨hon, hq.generation_eq.trans hgen, hq.stateOf_eq g⟩

theorem Moves.isOn (ms : Moves p q) (hon : p.1.IsOn g) (hpos : 0 < g)
    (hgen : p.2.hub.generation = g) (hlive : (p.2.hub.stateOf g).isTerminal = false) :
    q.1.IsOn g ∧ q.2.hub.generation = g ∧ q.2.hub.stateOf g = p.2.hub.stateOf g := by
  induction ms with
  | refl => exact ⟨hon, hgen, rfl⟩
  | tail _ m ih =>
    obtain ⟨hon', hgen', hstate⟩ := ih
    obtain ⟨hon'', hgen'', hstate'⟩ := m.isOn hon' hpos hgen' (hstate ▸ hlive)
    exact ⟨hon'', hgen'', hstate'.trans hstate⟩

/-- Whether a channel listens as the one who is missing, if it listens. -/
def IsMissing (g b : Nat) (c : Channel) : Prop := ∀ a, c.attached = some a → a = ⟨g, b⟩

/-- **What the missing channel does, does not show**: it reads its own mailbox, it queues its
own text, and the listener it adds is the one that is missing. -/
theorem Move.unseen (m : Move p q) (hw : p.2.hub.Without g b h) (hc : p.1.IsMissing g b)
    (hgrounded : p.1.Grounded) (hon : p.1.IsOn g) (hgen : p.2.hub.generation = g)
    (hlive : (p.2.hub.stateOf g).isTerminal = false)
    (hadded : ∀ n ∈ p.2.hub.addedOn q.2.hub g, n = b) :
    q.2.hub.Without g b h ∧ q.1.IsMissing g b := by
  have hreceived {c : Channel} {f : Feed} {a : Attachment} {connection : Connection}
      (hw : f.hub.Without g b h) (hc : c.IsMissing g b) (ha : c.attached = some a)
      (hd : f.hub.find? a.generation = some connection) :
      (received f a connection).hub.Without g b h := by
    obtain rfl := hc a ha
    rw [hub_received hd]
    exact hw.act_left (if_pos rfl)
  cases m with
  | report | reject | notice => exact ⟨hw, hc⟩
  | await | again =>
    rw [publish_eq]
    exact ⟨hw, hc⟩
  | ask =>
    rw [Feed.getConnection_of_pos hw.generation_pos.1]
    exact ⟨hw, hc⟩
  | @send c f f' g' text hp hsent _ hf =>
    obtain rfl := hon.eq_of_following hp
    have hnone : c.attached = none := by
      cases ha : c.attached with
      | none => rfl
      | some a =>
        have hasked := hgrounded a ha
        rw [hc a ha] at hasked
        exact absurd hasked hsent
    obtain ⟨-, -, rfl⟩ := Feed.sendText_eq_ok hf
    have hqueued := hw.queue_left text
    obtain ⟨d, outbound, hd, -⟩ := hqueued.find?
    have hnew := addedOn_attach (c := c.requested g') hf hnone hd
    rw [hnew] at hadded
    obtain rfl := hadded _ (List.mem_singleton_self _)
    rw [publish_eq, attach_of_none (c := c.requested g') hnone hd, Feed.hub_onConnection]
    refine ⟨hqueued.modify_left fun d' hd' => ?_, fun a ha => ?_⟩
    · obtain rfl := Option.some.inj (hd.symm.trans hd')
      exact ⟨_, d.without_addListener⟩
    · cases ha
      rfl
  | lose hp hs =>
    obtain rfl := hon.eq_of_looksAt hgen hp
    rw [hlive] at hs
    cases hs
  | announce hp | breakDown hp | resume hp | giveTime hp | force hp | stall hp =>
    exact absurd hp (hon.not_retrying _ _)
  | wait ha hd => exact ⟨hreceived hw hc ha hd, hc⟩
  | letGo ha hd => exact ⟨hreceived hw hc ha hd, nofun⟩
  | take ha hd =>
    rw [hub_handleFrame]
    refine ⟨hreceived hw hc ha hd, fun a ha' => hc a ?_⟩
    rwa [attached_handleFrame] at ha'

theorem Moves.unseen (ms : Moves p q) (hs : p.2.hub.Sound) (hw : p.2.hub.Without g b h)
    (hc : p.1.IsMissing g b) (hgrounded : p.1.Grounded) (hon : p.1.IsOn g)
    (hgen : p.2.hub.generation = g) (hlive : (p.2.hub.stateOf g).isTerminal = false)
    (hadded : ∀ n ∈ p.2.hub.addedOn q.2.hub g, n = b) :
    q.2.hub.Without g b h ∧ q.1.IsMissing g b := by
  induction ms with
  | refl => exact ⟨hw, hc⟩
  | @tail q r hto m ih =>
    have hs' := (Moves.evolves hto).sound hs
    obtain ⟨hon', hgen', hstate⟩ := Moves.isOn hto hon (hgen ▸ hw.generation_pos.1) hgen hlive
    have hle := (Moves.evolves hto).length_mailboxesOf_le hs g
    have hle' := m.evolves.length_mailboxesOf_le hs' g
    obtain ⟨hw', hc'⟩ := ih fun n hn => hadded n (Hub.addedOn_subset (Nat.le_refl _) hle' hn)
    exact m.unseen hw' hc' (Moves.keep hto Move.grounded hgrounded) hon' hgen'
      (hstate ▸ hlive) fun n hn => hadded n (Hub.addedOn_subset hle (Nat.le_refl _) hn)

/-- **The end of the missing channel does not show.** -/
theorem unseen_tearDown (hw : f.hub.Without g b h) (hc : c.IsMissing g b) :
    (c.tearDown f).2.hub.Without g b h := by
  have hrelease {e : Feed} (hw : e.hub.Without g b h) : (c.release e).2.hub.Without g b h := by
    unfold release
    split
    · exact hw
    · rename_i a ha
      obtain rfl := hc a ha
      have hdetached : (c.detach e).2.hub.Without g b h := by
        rw [hub_detach_of_some ha]
        exact hw.act_left (if_pos rfl)
      rcases (c.detach e).1.unsubscribe_cases (c.detach e).2 g with heq | ⟨-, -, text, -, hf⟩
      · exact heq.symm ▸ hdetached
      · obtain ⟨-, -, heq⟩ := Feed.sendText_eq_ok hf
        dsimp only
        rw [heq]
        exact hdetached.queue_left text
  unfold tearDown
  split
  · split
    · refine hrelease ?_
      rw [Feed.getConnection_of_pos hw.generation_pos.1]
      exact hw
    · exact hrelease hw
  · exact hw

end Channel

end PushFeed
