import Mathlib.Algebra.BigOperators.Group.Finset.Piecewise
import PushFeed.Proofs.Channel.Effect
import PushFeed.Proofs.Connection.Listeners
/-!
# The books of a channel's requests

How often a channel has queued its request on each connection is not written down
anywhere: the channel knows the last connection it asked on and a total. `Books` says
how the true counts go with the two. What carries it is that a channel remembers only
the connection it follows (`Settled`), and that it forgets it when that connection is on
its way out, from where no connection comes back. A chain of moves adds to the books
what it adds to the queues (`Moves.books`).

A channel whose request is invalid is `Silent` for good (`Moves.silent`).
-/

namespace PushFeed.Channel

variable {c c' : Channel} {p q : Channel × Feed} {h h' : Hub} {f : Feed} {g : Nat}
  {n : Nat → Nat} {text : String}

/-! ## What a channel remembers -/

/-- The channel remembers its request on the connection it follows only. -/
def Settled (c : Channel) : Prop :=
  ∀ g, c.sentOn = some g → (∃ seen, c.phase = .following g seen) ∨ c.phase = .ended

/-- A channel looks only at the connection it remembers. -/
theorem Settled.eq_of_looksAt (hc : c.Settled) (hl : c.LooksAt f g) {g' : Nat}
    (hsent : c.sentOn = some g') : g' = g := by
  rcases hl with ⟨hp, -⟩ | ⟨seen, hp⟩ <;> rcases hc g' hsent with ⟨seen', hp'⟩ | hp' <;>
    rw [hp] at hp' <;> cases hp'
  rfl

/-- A channel that is retrying remembers nothing. -/
theorem Settled.sentOn_of_retrying (hc : c.Settled) {k : Nat} {e : Episode}
    (hp : c.phase = .retrying k e) : c.sentOn = none := by
  cases hsent : c.sentOn with
  | none => rfl
  | some g =>
    rcases hc g hsent with ⟨seen, hp'⟩ | hp' <;> rw [hp] at hp' <;> cases hp'

theorem Settled.publish (hc : c.Settled) (s : ChannelState) : (c.publish s).Settled := by
  rw [publish_eq]
  exact hc

theorem Move.settled (m : Move p q) (hc : p.1.Settled) : q.1.Settled := by
  cases m with
  | report | ask | reject | wait | letGo => exact hc
  | again | announce => exact hc.publish _
  | await hp _ =>
    refine Settled.publish (fun g' hsent => .inl ⟨.connecting, ?_⟩) _
    rw [hc.eq_of_looksAt hp hsent]
  | notice hp _ =>
    refine fun g' hsent => .inl ⟨.open, ?_⟩
    rw [hc.eq_of_looksAt hp hsent]
  | send hp =>
    obtain ⟨a, ha⟩ := (attach_eq _ _ _).1
    refine Settled.publish ?_ _
    intro g' hsent
    rw [ha] at hsent ⊢
    cases hsent
    exact .inl ⟨.open, hp⟩
  | lose => exact fun g' hsent => nomatch hsent
  | breakDown hp | resume hp | giveTime hp | force hp =>
    intro g' hsent
    exact nomatch (hc.sentOn_of_retrying hp).symm.trans hsent
  | stall hp =>
    intro g' hsent
    simp only [Channel.stall, publish_eq] at hsent
    exact nomatch (hc.sentOn_of_retrying hp).symm.trans hsent
  | take =>
    obtain ⟨_, _, _, _, heq⟩ := handleFrame_eq _ _ _
    rw [heq]
    exact hc

/-! ## What a move does about the request -/

/-- **The three kinds of move**: one sends the request, one lets a connection go that is
on its way out, and any other leaves requests alone. -/
theorem Move.request_cases (m : Move p q) (hs : p.2.hub.Sound) :
    (∃ g text f', p.1.phase = .following g .open ∧ p.1.sentOn ≠ some g ∧
        p.1.request.text? = .ok text ∧ p.2.sendText g text = .ok f' ∧
        q = (((p.1.requested g).attach f' g).1.publish .subscribed,
          ((p.1.requested g).attach f' g).2)) ∨
      p.2.hub.Mute q.2.hub ∧ q.1.subscribes = p.1.subscribes ∧
        (q.1.sentOn = p.1.sentOn ∨
          ∃ g, p.1.LooksAt p.2 g ∧ (p.2.hub.stateOf g).isTerminal = true) := by
  have hget (h : Hub) (hh : h.Sound) (force : Bool) : h.Mute (h.get force).1 :=
    fun g => hh.adds_get force g
  cases m with
  | send hp hsent ht hf => exact .inl ⟨_, _, _, hp, hsent, ht, hf, rfl⟩
  | report | notice | reject | breakDown | resume | giveTime =>
    exact .inr ⟨(Hub.Quiet.refl _).mute, rfl, .inl rfl⟩
  | await | again | announce =>
    exact .inr ⟨(Hub.Quiet.refl _).mute, by rw [publish_eq], .inl (by rw [publish_eq])⟩
  | stall =>
    exact .inr ⟨(Hub.Quiet.refl _).mute, by rw [Channel.stall, publish_eq],
      .inl (by rw [Channel.stall, publish_eq])⟩
  | ask => exact .inr ⟨hget _ hs false, rfl, .inl rfl⟩
  | force => exact .inr ⟨hget _ hs true, rfl, .inl rfl⟩
  | @lose c f g hp hterminal =>
    obtain ⟨hc, hq, he⟩ := detach_eq c f
    refine .inr ⟨hq.mute.trans (hget _ (he.sound hs) false), ?_, .inr ⟨g, hp, hterminal⟩⟩
    simp only [hc]
  | wait _ hc | letGo _ hc => exact .inr ⟨(received_eq hc).1.mute, rfl, .inl rfl⟩
  | take _ hc =>
    obtain ⟨_, _, _, _, heq⟩ := handleFrame_eq _ _ _
    rw [hub_handleFrame, heq]
    exact .inr ⟨(received_eq hc).1.mute, rfl, .inl rfl⟩

/-! ## The books -/

/-- The books of a channel: `n g` is how often it has queued its request on connection
`g` so far. -/
structure Books (c : Channel) (h : Hub) (n : Nat → Nat) : Prop where
  /-- It has asked once at most. -/
  once : ∀ g, n g ≤ 1
  /-- What it has asked on and does not remember is on its way out. -/
  gone : ∀ g, 0 < n g →
    g ≤ h.generation ∧ ((h.stateOf g).isTerminal = true ∨ c.sentOn = some g)
  /-- Its counter is the total. -/
  total : c.subscribes = ∑ g ∈ Finset.range (h.generation + 1), n g
  /-- It remembers the connection it follows only. -/
  settled : c.Settled

/-- A channel that was just opened has asked on nothing. -/
theorem Books.zero (hc : c.Settled) (hz : c.subscribes = 0) (h : Hub) :
    Books c h fun _ => 0 where
  once _ := Nat.zero_le 1
  gone _ hn := absurd hn (Nat.lt_irrefl 0)
  total := by simp [hz]
  settled := hc

/-- What happens to the hub does not touch the books. -/
theorem Books.evolves (hb : Books c h n) (hs : h.Sound) (he : h.Evolves h') :
    Books c h' n where
  once := hb.once
  gone g hn := by
    obtain ⟨hg, hgone⟩ := hb.gone g hn
    exact ⟨Nat.le_trans hg he.generation_le, hgone.imp_left (he.isTerminal hs hg)⟩
  total := by
    rw [hb.total]
    -- on connections made since it has asked nothing
    refine Finset.sum_subset (Finset.range_mono (Nat.succ_le_succ he.generation_le)) ?_
    intro g _ hg
    rw [Finset.mem_range] at hg
    have hz : ¬0 < n g := fun hn => hg (Nat.lt_succ_of_le (hb.gone g hn).1)
    omega
  settled := hb.settled

/-- A channel that lets go of a connection on its way out keeps its books. -/
theorem Books.of_sentOn (hb : Books c h n) (hc : c'.Settled)
    (hsub : c'.subscribes = c.subscribes)
    (hsent : c'.sentOn = c.sentOn ∨
      ∀ g, c.sentOn = some g → (h.stateOf g).isTerminal = true) : Books c' h n where
  once := hb.once
  gone g hn := by
    obtain ⟨hg, hterminal | hlast⟩ := hb.gone g hn
    · exact ⟨hg, .inl hterminal⟩
    · exact ⟨hg, hsent.symm.imp (fun hgone => hgone g hlast) fun heq => heq.trans hlast⟩
  total := hsub.trans hb.total
  settled := hc

/-- The channel asks on an open connection it has not asked on: that is the first time,
and it enters the books. -/
theorem Books.ask (hb : Books c h n) (hopen : h.stateOf g = .open) (hsent : c.sentOn ≠ some g)
    (hlook : c.LooksAt f g) (hg : g ≤ h.generation) (hc : c'.Settled)
    (hsub : c'.subscribes = c.subscribes + 1) (hsent' : c'.sentOn = some g) :
    Books c' h fun g' => n g' + if g = g' then 1 else 0 := by
  -- what it has asked on before is on its way out, or is what it remembers
  have hfirst : n g = 0 := by
    by_contra hn
    rcases (hb.gone g (Nat.pos_of_ne_zero hn)).2 with hterminal | hlast
    · rw [hopen] at hterminal
      cases hterminal
    · exact hsent hlast
  refine ⟨fun g' => ?_, fun g' hn => ?_, ?_, hc⟩
  · by_cases heq : g = g'
    · subst heq
      simp [hfirst]
    · simpa [heq] using hb.once g'
  · by_cases heq : g = g'
    · subst heq
      exact ⟨hg, .inr hsent'⟩
    · simp only [heq, if_false, Nat.add_zero] at hn
      obtain ⟨hg', hterminal | hlast⟩ := hb.gone g' hn
      · exact ⟨hg', .inl hterminal⟩
      -- what it remembers is the connection it looks at, which is `g`
      · exact absurd (hb.settled.eq_of_looksAt hlook hlast).symm heq
  · rw [hsub, hb.total, Finset.sum_add_distrib, Finset.sum_ite_eq, if_pos]
    exact Finset.mem_range.2 (Nat.lt_succ_of_le hg)

/-- **A move keeps the books**: what it adds to the queues is the request at most, on an
open connection, and it enters the books. -/
theorem Move.books (m : Move p q) (hs : p.2.hub.Sound) (ht : p.1.request.text? = .ok text)
    (hb : Books p.1 p.2.hub n) :
    ∃ added : Nat → List Outbound, (∀ g, p.2.hub.Adds q.2.hub g (added g)) ∧
      (∀ g u, .text u ∈ added g → u = text ∧ p.2.hub.stateOf g = .open) ∧
      Books q.1 q.2.hub fun g => n g + (added g).count (.text text) := by
  have hsettled := m.settled hb.settled
  have he := m.evolves
  rcases m.request_cases hs with ⟨g, u, f', hp, hsent, hu, hf, rfl⟩ | ⟨hmute, hsub, hsent⟩
  · cases ht.symm.trans hu
    have hopen := (Feed.sendText_eq_ok hf).1
    obtain ⟨d, hd⟩ := Hub.exists_of_stateOf_ne (by rw [hopen]; decide)
    obtain ⟨a, ha⟩ := ((p.1.requested g).attach_eq f' g).1
    refine ⟨fun g' => if g = g' then [.text text] else [], fun g' => ?_, fun g' u hu => ?_, ?_⟩
    · have hadds := (Hub.adds_queue hd text g').trans ((send_eq (c := p.1) hf).1.adds g')
      rwa [List.append_nil] at hadds
    · by_cases heq : g = g'
      · subst heq
        exact ⟨by simpa using hu, hopen⟩
      · simp [heq] at hu
    · -- the books are kept for the hub before the move, which has evolved since
      have hbooks : Books (((p.1.requested g).attach f' g).1.publish .subscribed) p.2.hub _ :=
        hb.ask (f := p.2) hopen hsent (.inr ⟨_, hp⟩) (Hub.le_generation_of_find? hd).2 hsettled
          (by rw [publish_eq, ha]; rfl) (by rw [publish_eq, ha]; rfl)
      convert hbooks.evolves hs he using 2 with g'
      by_cases heq : g = g' <;> simp [heq]
  · choose added hadds hnone using hmute
    refine ⟨added, hadds, fun g u hu => absurd hu (hnone g u), ?_⟩
    have hzero (g : Nat) : n g + (added g).count (.text text) = n g := by
      rw [List.count_eq_zero.2 (hnone g text), Nat.add_zero]
    simp only [hzero]
    refine (hb.of_sentOn hsettled hsub (hsent.imp_right ?_)).evolves hs he
    rintro ⟨g, hlook, hterminal⟩ g' hlast
    rwa [hb.settled.eq_of_looksAt hlook hlast]

/-- **A chain of moves keeps the books.** -/
theorem Moves.books (ms : Moves p q) (hs : p.2.hub.Sound) (ht : p.1.request.text? = .ok text)
    (hb : Books p.1 p.2.hub n) :
    ∃ added : Nat → List Outbound, (∀ g, p.2.hub.Adds q.2.hub g (added g)) ∧
      (∀ g u, .text u ∈ added g → u = text ∧ p.2.hub.stateOf g = .open) ∧
      Books q.1 q.2.hub fun g => n g + (added g).count (.text text) := by
  induction ms with
  | refl => exact ⟨fun _ => [], fun g => .refl _ g, by simp, by simpa using hb⟩
  | @tail q r hto m ih =>
    obtain ⟨added, hadds, htexts, hbooks⟩ := ih
    have hs' := (Moves.evolves hto).sound hs
    have ht' : q.1.request.text? = .ok text := (Moves.alike hto).request_eq ▸ ht
    obtain ⟨more, hadds', htexts', hbooks'⟩ := m.books hs' ht' hbooks
    refine ⟨fun g => added g ++ more g, fun g => (hadds g).trans (hadds' g), ?_, ?_⟩
    · intro g u hu
      rcases List.mem_append.1 hu with hu | hu
      · exact htexts g u hu
      · obtain ⟨heq, hopen⟩ := htexts' g u hu
        exact ⟨heq, (Moves.stateOf_eq_open_iff hto hs g).1 hopen⟩
    · simpa only [List.count_append, Nat.add_assoc] using hbooks'

/-! ## What a channel has asked on -/

/-- What the channel remembers is what it has asked on and still follows. -/
structure Recalls (c : Channel) (n : Nat → Nat) : Prop where
  /-- It has asked on what it remembers. -/
  asked : ∀ g, c.sentOn = some g → 0 < n g
  /-- It remembers having asked on the connection it follows. -/
  following : ∀ g seen, c.phase = .following g seen → 0 < n g → c.sentOn = some g

/-- A channel that was just opened remembers nothing, and there is nothing to remember. -/
theorem Recalls.zero (hc : c.sentOn = none) : Recalls c fun _ => 0 := by
  refine ⟨fun g hsent => ?_, fun _ _ _ hn => absurd hn (Nat.lt_irrefl 0)⟩
  rw [hc] at hsent
  cases hsent

/-- A channel that follows nothing may go on remembering what it has asked on. -/
theorem Recalls.of_phase (hr : Recalls c n) (hsent : ∀ g, c'.sentOn = some g → c.sentOn = some g)
    (hp : ∀ g seen, c'.phase ≠ .following g seen) : Recalls c' n :=
  ⟨fun g h => hr.asked g (hsent g h), fun g seen h => absurd h (hp g seen)⟩

/-- A channel that begins to follow a connection remembers having asked there: otherwise
that connection would be on its way out. -/
theorem Books.recalls (hb : Books c h n) (hs : (h.stateOf g).isTerminal = false)
    {seen : ReadyState} (hp : c'.phase = .following g seen) (hsent : c'.sentOn = c.sentOn)
    (hr : Recalls c n) : Recalls c' n where
  asked g' h' := hr.asked g' (hsent ▸ h')
  following g' seen' hp' hn := by
    rw [hp] at hp'
    cases hp'
    rcases (hb.gone g hn).2 with hterminal | hlast
    · rw [hs] at hterminal
      cases hterminal
    · exact hsent.trans hlast

theorem Move.recalls {added : Nat → List Outbound} (m : Move p q) (hs : p.2.hub.Sound)
    (hb : Books p.1 p.2.hub n) (ht : p.1.request.text? = .ok text)
    (hadds : ∀ g, p.2.hub.Adds q.2.hub g (added g)) (hr : Recalls p.1 n) :
    Recalls q.1 fun g => n g + (added g).count (.text text) := by
  rcases m.request_cases hs with ⟨g, u, f', hp, -, hu, hf, rfl⟩ | ⟨hmute, hsub, -⟩
  · cases ht.symm.trans hu
    obtain ⟨d, hd⟩ := Hub.exists_of_stateOf_ne (by rw [(Feed.sendText_eq_ok hf).1]; decide)
    obtain ⟨a, ha⟩ := ((p.1.requested g).attach_eq f' g).1
    have hadded : added g = [.text text] := by
      have hqueued := (Hub.adds_queue hd text g).trans ((send_eq (c := p.1) hf).1.adds g)
      rw [if_pos rfl, List.append_nil] at hqueued
      exact (hadds g).queuedOn_eq.symm.trans hqueued.queuedOn_eq
    rw [publish_eq, ha]
    refine ⟨fun g' hsent => ?_, fun g' seen hp' _ => ?_⟩
    · cases hsent
      simp [hadded]
    · cases hp.symm.trans hp'
      rfl
  · have hzero : ∀ g, n g + (added g).count (.text text) = n g := by
      intro g
      obtain ⟨more, hmore, hnone⟩ := hmute g
      have heq : added g = more := (hadds g).queuedOn_eq.symm.trans hmore.queuedOn_eq
      rw [heq, List.count_eq_zero.2 (hnone text), Nat.add_zero]
    simp only [hzero]
    cases m with
    | report | ask | reject | wait | letGo => exact ⟨hr.asked, hr.following⟩
    | again | announce =>
      rw [publish_eq]
      exact ⟨hr.asked, hr.following⟩
    | take =>
      obtain ⟨_, _, _, _, heq⟩ := handleFrame_eq _ _ _
      rw [heq]
      exact ⟨hr.asked, hr.following⟩
    | await _ hstate =>
      rw [publish_eq]
      exact hb.recalls (by rw [hstate]; rfl) rfl rfl hr
    | notice _ hstate => exact hb.recalls (by rw [hstate]; rfl) rfl rfl hr
    | resume _ _ _ hstate => exact hb.recalls (by rw [hstate]; rfl) rfl rfl hr
    | send =>
      -- it would count
      obtain ⟨a, ha⟩ := (attach_eq _ _ _).1
      rw [publish_eq, ha] at hsub
      exact absurd hsub (Nat.succ_ne_self _)
    | lose => exact hr.of_phase (by simp) (by simp)
    | breakDown | giveTime | force => exact hr.of_phase (fun _ => id) (by simp)
    | stall =>
      rw [Channel.stall, publish_eq]
      exact hr.of_phase (fun _ => id) (by simp)

theorem Moves.recalls {added : Nat → List Outbound} (ms : Moves p q) (hs : p.2.hub.Sound)
    (hb : Books p.1 p.2.hub n) (ht : p.1.request.text? = .ok text)
    (hadds : ∀ g, p.2.hub.Adds q.2.hub g (added g)) (hr : Recalls p.1 n) :
    Recalls q.1 fun g => n g + (added g).count (.text text) := by
  induction ms generalizing added with
  | refl =>
    have hnil : ∀ g, added g = [] := fun g =>
      (hadds g).queuedOn_eq.symm.trans (Hub.Adds.refl _ g).queuedOn_eq
    simpa only [hnil, List.count_nil, Nat.add_zero] using hr
  | @tail q r hto m ih =>
    obtain ⟨before, hbefore, -, hbooks⟩ := Moves.books hto hs ht hb
    have hs' := (Moves.evolves hto).sound hs
    have ht' : q.1.request.text? = .ok text := (Moves.alike hto).request_eq ▸ ht
    obtain ⟨more, hmore, -⟩ := m.books hs' ht' hbooks
    have hadded : ∀ g, added g = before g ++ more g := fun g =>
      (hadds g).queuedOn_eq.symm.trans ((hbefore g).trans (hmore g)).queuedOn_eq
    have hstep := m.recalls hs' hbooks ht' hmore (ih hbefore)
    simpa only [hadded, List.count_append, Nat.add_assoc] using hstep

/-! ## Channels that never ask -/

/-- A channel that has not asked, has no listener and has never called itself
subscribed. -/
structure Silent (c : Channel) : Prop where
  sentOn_eq : c.sentOn = none
  attached_eq : c.attached = none
  subscribes_eq : c.subscribes = 0
  not_subscribed : .subscribed ∉ c.states

theorem Silent.publish (hc : c.Silent) {s : ChannelState} (hs : s ≠ .subscribed) :
    (c.publish s).Silent := by
  rw [publish_eq]
  refine ⟨hc.sentOn_eq, hc.attached_eq, hc.subscribes_eq, ?_⟩
  dsimp only
  split
  · exact hc.not_subscribed
  · simpa using ⟨hs.symm, hc.not_subscribed⟩

/-- **A channel whose request is invalid stays silent**: a move queues no text and
attaches nobody. -/
theorem Move.silent {e : FeedError} (m : Move p q) (hs : p.2.hub.Sound)
    (ht : p.1.request.text? = .error e) (hc : p.1.Silent) :
    q.1.Silent ∧ p.2.hub.Mute q.2.hub ∧
      ∀ g, q.2.hub.mailboxesOf g = p.2.hub.mailboxesOf g := by
  refine ⟨?_, ?_, ?_⟩
  · cases m with
    | report | ask | notice | reject | breakDown | resume | giveTime | force =>
      exact ⟨hc.1, hc.2, hc.3, hc.4⟩
    | await =>
      refine Silent.publish ?_ (by decide)
      exact ⟨hc.1, hc.2, hc.3, hc.4⟩
    | announce => exact hc.publish (by simp)
    | again _ hsent => exact nomatch hc.sentOn_eq.symm.trans hsent
    | send _ _ hu => exact nomatch ht.symm.trans hu
    | lose =>
      obtain ⟨heq, -⟩ := detach_eq _ _
      rw [heq]
      exact ⟨rfl, rfl, hc.subscribes_eq, hc.not_subscribed⟩
    | stall =>
      have hc' := hc.publish (s := .stalled) (by decide)
      exact ⟨hc'.1, hc'.2, hc'.3, hc'.4⟩
    | wait ha | letGo ha | take ha => exact nomatch hc.attached_eq.symm.trans ha
  · rcases m.request_cases hs with ⟨_, _, _, _, _, hu, _⟩ | ⟨hmute, _⟩
    · exact nomatch ht.symm.trans hu
    · exact hmute
  · intro g
    cases m with
    | report | await | notice | again | reject | announce | breakDown | resume | giveTime | stall =>
      rfl
    | ask => exact hs.mailboxesOf_get false g
    | force => exact hs.mailboxesOf_get true g
    | lose =>
      -- there is no listener to take off
      rw [detach_of_none hc.attached_eq]
      exact hs.mailboxesOf_get false g
    | send _ _ hu => exact nomatch ht.symm.trans hu
    | wait ha | letGo ha | take ha => exact nomatch hc.attached_eq.symm.trans ha

theorem Moves.silent {e : FeedError} (ms : Moves p q) (hs : p.2.hub.Sound)
    (ht : p.1.request.text? = .error e) (hc : p.1.Silent) :
    q.1.Silent ∧ p.2.hub.Mute q.2.hub ∧
      ∀ g, q.2.hub.mailboxesOf g = p.2.hub.mailboxesOf g := by
  induction ms with
  | refl => exact ⟨hc, (Hub.Quiet.refl _).mute, fun _ => rfl⟩
  | tail hto m ih =>
    obtain ⟨hsilent, hmute, hboxes⟩ := ih
    obtain ⟨hsilent', hmute', hboxes'⟩ := m.silent ((Moves.evolves hto).sound hs)
      ((Moves.alike hto).request_eq ▸ ht) hsilent
    exact ⟨hsilent', hmute.trans hmute', fun g => (hboxes' g).trans (hboxes g)⟩

theorem Silent.tearDown (hc : c.Silent) (hs : f.hub.Sound) : (c.tearDown f).1.Silent := by
  cases hl : c.isLive with
  | false =>
    rw [tearDown_of_not_isLive hl]
    exact hc
  | true =>
    rw [(tearDown_eq hs hl).1]
    exact ⟨hc.sentOn_eq, rfl, hc.subscribes_eq, hc.not_subscribed⟩

theorem Silent.mailboxesOf_tearDown (hc : c.Silent) (hs : f.hub.Sound) (g : Nat) :
    (c.tearDown f).2.hub.mailboxesOf g = f.hub.mailboxesOf g := by
  have hrelease (f : Feed) : c.release f = (c, f) := by simp only [release, hc.attached_eq]
  unfold Channel.tearDown
  split
  · simp only [hrelease]
    split
    · exact hs.mailboxesOf_get false g
    · rfl
  · rfl

end PushFeed.Channel
