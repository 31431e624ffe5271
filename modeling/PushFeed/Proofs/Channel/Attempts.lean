import PushFeed.Proofs.Channel.Effect
/-!
# The attempts of a channel

A channel judges a connection it has forced only at its next attempt, so nothing judges
the connection of the last one: when a channel gives up, the newest connection is still
on its way. It need not be the channel's own, as the last attempt may have given time to
one that somebody else made.

`Outlook` says how far the connections a channel has forced reach, between its turns,
and `Attempting` the same within a turn, with what is known about the newest connection
once the attempts are used up.
-/

namespace PushFeed.Channel

variable {c c' : Channel} {p q : Channel × Feed} {h h' : Hub} {f : Feed} {F : List Nat}
  {g k n x : Nat} {e : Episode}

/-! ## The attempts that remain -/

theorem phase_attach (c : Channel) (f : Feed) (g : Nat) : (c.attach f g).1.phase = c.phase := by
  obtain ⟨a, ha⟩ := (c.attach_eq f g).1
  rw [ha]

theorem phase_subscribe (c : Channel) (f : Feed) (g : Nat) :
    (c.subscribe f g).1.phase = c.phase := by
  unfold subscribe
  split
  · rw [publish_eq]
  · split
    · rfl
    · split
      · rfl
      · split
        · rfl
        · simp only [publish_eq, phase_attach]

/-- An attempt that gives the newest connection time changes no connection. -/
theorem attemptOnce_of_connecting (c : Channel) (k : Nat)
    (h : f.hub.stateOf f.hub.generation = .connecting ∧ e.lastChecked ≠ f.hub.generation) :
    (c.attemptOnce f k e).1.hub = f.hub ∧ (c.attemptOnce f k e).1.now = f.now ∧
      (c.attemptOnce f k e).2 = ⟨e.closedAt, f.hub.generation, f.hub.generation⟩ := by
  unfold attemptOnce
  dsimp only
  rw [if_pos h]
  exact ⟨rfl, rfl, rfl⟩

/-- Any other forces the next connection. -/
theorem attemptOnce_of_not (c : Channel) (k : Nat)
    (h : ¬(f.hub.stateOf f.hub.generation = .connecting ∧ e.lastChecked ≠ f.hub.generation)) :
    (c.attemptOnce f k e).1.hub = (f.hub.get true).1 ∧ (c.attemptOnce f k e).1.now = f.now ∧
      (c.attemptOnce f k e).2 =
        ⟨e.closedAt, f.hub.generation + 1, f.hub.generation + 1⟩ := by
  have hgen : (f.hub.get true).1.generation = f.hub.generation + 1 := Hub.generation_get_true ..
  unfold attemptOnce
  dsimp only
  rw [if_neg h, Feed.hub_getConnection, Feed.hub_report, hgen]
  exact ⟨rfl, rfl, rfl⟩

/-- A channel that goes on waiting for an attempt has not made all of them. -/
theorem le_limit_of_attempts {e' : Episode} {k' : Nat} (hn : n + k = c.limit + 1)
    (hp : (attempts n k c f e).1.phase = .retrying k' e') : k' ≤ c.limit := by
  -- the attempts that remain and those made so far always add up to the limit
  induction n generalizing k c f e with
  | zero => cases hp
  | succ n ih =>
    rw [attempts] at hp
    generalize hc : c.publish (.reconnecting k) = d at hp
    have hlim : d.limit = c.limit := by
      rw [← hc, publish_eq]
      rfl
    rw [← hlim] at hn ⊢
    dsimp only at hp
    split at hp
    · cases hp
    · split at hp
      · split at hp
        · simp only [resume, phase_subscribe] at hp
          cases hp
        · exact ih (by omega) hp
      · cases hp
        omega

theorem le_limit_of_look {e' : Episode} {k' : Nat}
    (hp : (c.look f g).1.phase = .retrying k' e') : k' ≤ c.limit := by
  have hlim : (c.detach f).1.limit = c.limit := by
    rw [(c.detach_eq f).1]
    rfl
  have hlose (hp : (c.reconnect f g).1.phase = .retrying k' e') : k' ≤ c.limit := by
    unfold reconnect at hp
    refine Nat.le_trans (le_limit_of_attempts ?_ hp) (Nat.le_of_eq hlim)
    rfl
  simp only [look] at hp
  split at hp
  · simp only [publish_eq] at hp
    cases hp
  · rw [phase_subscribe] at hp
    cases hp
  · exact hlose hp
  · exact hlose hp

/-- **After a turn a channel that is retrying has an attempt left.** -/
theorem le_limit_of_turn (first : Precedence) (hc : ∀ k e, c.phase = .retrying k e → k ≤ c.limit)
    {e' : Episode} {k' : Nat} (hp : (c.turn f first).1.phase = .retrying k' e') :
    k' ≤ c.limit := by
  simp only [turn] at hp
  split at hp
  · exact le_limit_of_look hp
  · rename_i g seen hfollow
    split at hp
    · rw [handleAll, phase_handleMany, hfollow] at hp
      cases hp
    · rw [handleAll, phase_handleMany] at hp
      split at hp
      · have halike := (handleNext_moves c f).alike
        rw [limit, ← halike.options_eq]
        exact le_limit_of_look hp
      · exact le_limit_of_look hp
  · rename_i k e hretry
    have hk := hc k e hretry
    exact le_limit_of_attempts (by simp only [limit] at hk ⊢; omega) hp
  · rename_i hdone
    rw [hdone] at hp
    cases hp
  · rename_i hdone
    rw [hdone] at hp
    cases hp
  · rename_i hdone
    rw [hdone] at hp
    cases hp

/-- The first connection of all is on its way when somebody has asked for it. -/
theorem getConnection_of_empty (hz : f.hub.generation = 0) :
    (f.getConnection false).hub.generation = 1 ∧
      (f.getConnection false).hub.stateOf 1 = .connecting := by
  constructor
  · rw [Feed.hub_getConnection, Hub.generation_get_false, hz]
    rfl
  · rw [Feed.hub_getConnection, Hub.get_false_of_empty hz, Hub.stateOf, Hub.find?_connect, hz]
    rfl

/-- And so it is when the channel that has asked for it first looks at it. -/
theorem turn_of_empty (hp : c.phase = .starting) (hz : f.hub.generation = 0)
    (first : Precedence) :
    (c.turn f first).1.phase = .following 1 .connecting ∧
      (c.turn f first).2.hub.generation = 1 := by
  obtain ⟨hone, hstate⟩ := getConnection_of_empty hz
  simp only [turn, hp, hone, look, hstate, publish_eq, and_self]

/-- A channel that has given up, or is done, does nothing in its turns. -/
theorem turn_of_idle (hp : c.phase = .stalled ∨ c.phase = .ended ∨ c.phase = .broken)
    (first : Precedence) : c.turn f first = (c, f) := by
  rcases hp with hp | hp | hp <;> simp only [turn, hp]

/-! ## How far forced connections reach -/

/-- Of the connections a channel has forced none is newer than the one it has looked at
last. -/
structure Covers (F : List Nat) (h : Hub) (x : Nat) : Prop where
  /-- There is such a connection. -/
  pos : 0 < x
  /-- It has been made. -/
  le : x ≤ h.generation
  /-- The forced ones are as old. -/
  forced_le : ∀ g ∈ F, g ≤ x

theorem Covers.evolves (hx : Covers F h x) (he : h.Evolves h') : Covers F h' x :=
  ⟨hx.pos, Nat.le_trans hx.le he.generation_le, hx.forced_le⟩

/-- What is known of a channel between its turns, `F` being what it has forced. -/
structure Outlook (F : List Nat) (c : Channel) (h : Hub) : Prop where
  starting : c.phase = .starting → F = []
  following : ∀ {g seen}, c.phase = .following g seen → Covers F h g
  retrying : ∀ {k e}, c.phase = .retrying k e → Covers F h e.lastChecked ∧ k ≤ c.limit

/-- A channel that is new has forced nothing, and of one that has ended nothing is known. -/
theorem Outlook.of_idle (hp : c.phase = .starting ∧ F = [] ∨ c.phase = .ended) :
    Outlook F c h := by
  rcases hp with ⟨hp, hnil⟩ | hp
  · refine ⟨fun _ => hnil, fun hf => ?_, fun hr => ?_⟩
    · cases hp.symm.trans hf
    · cases hp.symm.trans hr
  · refine ⟨fun hs => ?_, fun hf => ?_, fun hr => ?_⟩
    · cases hp.symm.trans hs
    · cases hp.symm.trans hf
    · cases hp.symm.trans hr

theorem Outlook.evolves (ho : Outlook F c h) (he : h.Evolves h') : Outlook F c h' where
  starting := ho.starting
  following hp := (ho.following hp).evolves he
  retrying hp := ⟨(ho.retrying hp).1.evolves he, (ho.retrying hp).2⟩

/-- The newest connection is on its way, and unless one was made since there were `n` of
them, it is not among those forced before. -/
def Pending (F : List Nat) (n : Nat) (h : Hub) : Prop :=
  h.stateOf h.generation = .connecting ∧ (h.generation = n → h.generation ∉ F)

/-- What is known of a channel within a turn that began with `n` connections, `F` being
what it had forced before. -/
structure Attempting (F : List Nat) (n : Nat) (c : Channel) (h : Hub) : Prop where
  le : n ≤ h.generation
  starting : c.phase = .starting → F = [] ∧ h.generation = n
  following : ∀ {g seen}, c.phase = .following g seen →
    Covers F h g ∧ (n < h.generation → g = h.generation)
  retrying : ∀ {k e}, c.phase = .retrying k e →
    Covers F h e.lastChecked ∧ (n < h.generation → e.lastChecked = h.generation) ∧
      (c.limit < k → Pending F n h)
  stalled : c.phase = .stalled → Pending F n h

/-- A turn of a channel that has not given up begins so. -/
theorem Outlook.attempting (ho : Outlook F c h) (hp : c.phase ≠ .stalled) :
    Attempting F h.generation c h where
  le := Nat.le_refl _
  starting hs := ⟨ho.starting hs, rfl⟩
  following hf := ⟨ho.following hf, fun hlt => absurd hlt (Nat.lt_irrefl _)⟩
  retrying hr := ⟨(ho.retrying hr).1, fun hlt => absurd hlt (Nat.lt_irrefl _),
    fun hlt => absurd hlt (Nat.not_lt.2 (ho.retrying hr).2)⟩
  stalled hs := absurd hs hp

/-- Nothing changes but mailboxes and queues. -/
theorem Attempting.congr (ha : Attempting F n c h) (hphase : c'.phase = c.phase)
    (hlimit : c'.limit = c.limit) (hgen : h'.generation = h.generation)
    (hstate : h'.stateOf h.generation = h.stateOf h.generation) : Attempting F n c' h' := by
  have hpending (hp : Pending F n h) : Pending F n h' := by
    rw [Pending, hgen, hstate]
    exact hp
  have hcovers {x : Nat} (hx : Covers F h x) : Covers F h' x :=
    ⟨hx.pos, hgen ▸ hx.le, hx.forced_le⟩
  refine ⟨hgen ▸ ha.le, ?_, ?_, ?_, ?_⟩ <;> rw [hphase]
  · rw [hgen]
    exact ha.starting
  · intro g seen hp
    rw [hgen]
    exact ⟨hcovers (ha.following hp).1, (ha.following hp).2⟩
  · intro k e hp
    obtain ⟨hx, hlast, hlt⟩ := ha.retrying hp
    rw [hgen, hlimit]
    exact ⟨hcovers hx, hlast, fun hk => hpending (hlt hk)⟩
  · exact fun hp => hpending (ha.stalled hp)

/-- What a channel looks at covers what it has forced. -/
theorem Attempting.covers_of_looksAt (ha : Attempting F n c f.hub) (hl : c.LooksAt f g) :
    Covers F f.hub g ∧ (n < f.hub.generation → g = f.hub.generation) := by
  rcases hl with ⟨hp, rfl, hpos⟩ | ⟨seen, hp⟩
  · obtain ⟨rfl, -⟩ := ha.starting hp
    exact ⟨⟨hpos, Nat.le_refl _, fun _ hg => nomatch hg⟩, fun _ => rfl⟩
  · exact ha.following hp

/-- The channel follows a connection it has looked at. -/
theorem Attempting.follow (ha : Attempting F n c h) {seen : ReadyState} (hp : c'.phase = .following g seen)
    (hx : Covers F h g ∧ (n < h.generation → g = h.generation)) : Attempting F n c' h where
  le := ha.le
  starting hs := nomatch hp.symm.trans hs
  following hf := by
    cases hp.symm.trans hf
    exact hx
  retrying hr := nomatch hp.symm.trans hr
  stalled hs := nomatch hp.symm.trans hs

/-- The channel goes on to its next attempt. -/
theorem Attempting.retry (hle : n ≤ h.generation) (hp : c'.phase = .retrying k e)
    (hx : Covers F h e.lastChecked) (hlast : n < h.generation → e.lastChecked = h.generation)
    (hk : c'.limit < k → Pending F n h) : Attempting F n c' h where
  le := hle
  starting hs := nomatch hp.symm.trans hs
  following hf := nomatch hp.symm.trans hf
  retrying hr := by
    cases hp.symm.trans hr
    exact ⟨hx, hlast, hk⟩
  stalled hs := nomatch hp.symm.trans hs

/-- The channel breaks down. -/
theorem Attempting.break (hle : n ≤ h.generation) (hp : c'.phase = .broken) :
    Attempting F n c' h where
  le := hle
  starting hs := nomatch hp.symm.trans hs
  following hf := nomatch hp.symm.trans hf
  retrying hr := nomatch hp.symm.trans hr
  stalled hs := nomatch hp.symm.trans hs

/-- The channel gives up. -/
theorem Attempting.giveUp (hle : n ≤ h.generation) (hp : c'.phase = .stalled)
    (hpending : Pending F n h) : Attempting F n c' h where
  le := hle
  starting hs := nomatch hp.symm.trans hs
  following hf := nomatch hp.symm.trans hf
  retrying hr := nomatch hp.symm.trans hr
  stalled _ := hpending

/-- **Within a turn every move keeps what is known of the attempts**, for a channel that
makes any. -/
theorem Move.attempting (m : Move p q) (hs : p.2.hub.Sound) (hn : 0 < n) (hlim : 1 ≤ p.1.limit)
    (ha : Attempting F n p.1 p.2.hub) : Attempting F n q.1 q.2.hub := by
  have hget {h : Hub} (hle : n ≤ h.generation) : (h.get false).1 = h := by
    rw [Hub.get_false_of_pos (Nat.lt_of_lt_of_le hn hle)]
  cases m with
  | report | reject => exact ha.congr rfl rfl rfl rfl
  | ask =>
    rw [Feed.hub_getConnection, hget ha.le]
    exact ha
  | await hp => exact ha.follow (by rw [publish_eq]) (ha.covers_of_looksAt hp)
  | notice hp => exact ha.follow rfl (ha.covers_of_looksAt hp)
  | again | announce => exact ha.congr (by rw [publish_eq]) (by rw [publish_eq]; rfl) rfl rfl
  | @send c f f' g text hp hsent ht hf =>
    have hq := (send_eq (c := c) hf).1
    refine ha.congr ?_ ?_ ?_ ?_
    · rw [publish_eq]
      exact phase_attach _ f' g
    · exact limit_congr (Move.send hp hsent ht hf).alike.options_eq
    · exact hq.generation_eq.trans (Hub.generation_modify ..)
    · exact (hq.stateOf_eq _).trans Hub.stateOf_queue
  | @lose c f g hp hterminal =>
    obtain ⟨hc, hq, -⟩ := detach_eq c f
    have hle := hq.generation_eq ▸ ha.le
    obtain ⟨hx, hlast⟩ := ha.covers_of_looksAt hp
    rw [Feed.hub_getConnection, hget hle]
    refine .retry hle rfl ⟨hx.pos, hq.generation_eq ▸ hx.le, hx.forced_le⟩ ?_ ?_
    · rw [hq.generation_eq]
      exact hlast
    · intro hk
      -- the first attempt is one of those it makes
      rw [show limit _ = c.limit by rw [hc]; rfl] at hk
      exact absurd hk (Nat.not_lt.2 hlim)
  | breakDown => exact .break ha.le rfl
  | @resume c f k e hp hk hd hstate =>
    obtain ⟨hx, -, -⟩ := ha.retrying hp
    -- it goes over to the newest connection, and none is newer than that
    refine ha.follow rfl ⟨⟨Nat.lt_of_lt_of_le hn ha.le, Nat.le_refl _, ?_⟩, fun _ => rfl⟩
    exact fun g hg => Nat.le_trans (hx.forced_le g hg) hx.le
  | @giveTime c f k e hp hk hd hstate hl =>
    obtain ⟨hx, -, -⟩ := ha.retrying hp
    have hlt : e.lastChecked < f.hub.generation := Nat.lt_of_le_of_ne hx.le hl
    refine .retry ha.le rfl ⟨Nat.lt_of_lt_of_le hn ha.le, Nat.le_refl _, ?_⟩ (fun _ => rfl) ?_
    · exact fun g hg => Nat.le_trans (hx.forced_le g hg) hx.le
    · intro _
      refine ⟨hstate, fun _ hg => ?_⟩
      -- it has not looked at the newest connection before, so it did not force it
      exact absurd (hx.forced_le _ hg) (Nat.not_le.2 hlt)
  | @force c f k e hp hk hd hopen hl =>
    obtain ⟨hx, -, -⟩ := ha.retrying hp
    have hgen : (f.getConnection true).hub.generation = f.hub.generation + 1 :=
      f.hub.generation_get_true
    have hbefore : n ≤ f.hub.generation := ha.le
    have hpos : 0 < (f.getConnection true).hub.generation := by
      rw [hgen]
      exact Nat.succ_pos _
    refine .retry (by rw [hgen]; omega) rfl ⟨hpos, Nat.le_refl _, fun g hg => ?_⟩ (fun _ => rfl)
      fun _ => ⟨?_, ?_⟩
    · show g ≤ (f.getConnection true).hub.generation
      rw [hgen]
      exact Nat.le_succ_of_le (Nat.le_trans (hx.forced_le g hg) hx.le)
    · rw [hgen, Feed.hub_getConnection, Hub.stateOf, hs.find?_get_true, if_pos rfl]
      rfl
    · -- the turn has made a connection, so there is nothing left to show
      intro heq
      rw [hgen] at heq
      omega
  | stall hp hk =>
    obtain ⟨-, -, hpending⟩ := ha.retrying hp
    exact .giveUp ha.le rfl (hpending hk)
  | wait _ hc | letGo _ hc =>
    have hq := (received_eq hc).1
    exact ha.congr rfl rfl hq.generation_eq (hq.stateOf_eq _)
  | take _ hc =>
    have hq := (received_eq hc).1
    obtain ⟨_, _, _, _, heq⟩ := handleFrame_eq _ _ _
    rw [hub_handleFrame, heq]
    exact ha.congr rfl rfl hq.generation_eq (hq.stateOf_eq _)

theorem Moves.attempting (ms : Moves p q) (hs : p.2.hub.Sound) (hn : 0 < n) (hlim : 1 ≤ p.1.limit)
    (ha : Attempting F n p.1 p.2.hub) : Attempting F n q.1 q.2.hub := by
  induction ms with
  | refl => exact ha
  | tail hto m ih =>
    refine m.attempting ((Moves.evolves hto).sound hs) hn ?_ ih
    rwa [limit, (Moves.alike hto).options_eq]

/-- A turn ends with the connections it made among those the channel has forced. -/
theorem Attempting.outlook (ha : Attempting F n c h)
    (hk : ∀ k e, c.phase = .retrying k e → k ≤ c.limit) :
    Outlook (F ++ List.range' (n + 1) (h.generation - n)) c h := by
  have hcovers {x : Nat} (hx : Covers F h x) (hlast : n < h.generation → x = h.generation) :
      Covers (F ++ List.range' (n + 1) (h.generation - n)) h x := by
    refine ⟨hx.pos, hx.le, fun g hg => ?_⟩
    rcases List.mem_append.1 hg with hg | hg
    · exact hx.forced_le g hg
    · rw [List.mem_range'_1] at hg
      rw [hlast (by omega)]
      omega
  refine ⟨fun hp => ?_, fun hp => ?_, fun hp => ?_⟩
  · obtain ⟨rfl, hgen⟩ := ha.starting hp
    simp [hgen]
  · obtain ⟨hx, hlast⟩ := ha.following hp
    exact hcovers hx hlast
  · obtain ⟨hx, hlast, -⟩ := ha.retrying hp
    exact ⟨hcovers hx hlast, hk _ _ hp⟩

/-- The connections made since there were `n`, where there was one. -/
def madeSince (n : Nat) (h : Hub) : List Nat :=
  if n = 0 then [] else List.range' (n + 1) (h.generation - n)

/-- Where the newest connection is on its way, all that was forced has failed if and only
if no connection was made. -/
theorem Pending.forced_terminal_iff (hp : Pending F n h) (hs : h.Sound) (hn : n ≠ 0)
    (hle : n ≤ h.generation) :
    (∀ g ∈ F ++ madeSince n h, (h.stateOf g).isTerminal = true) ↔ h.generation = n := by
  obtain ⟨hconnecting, hnew⟩ := hp
  constructor
  · intro hall
    refine Decidable.byContradiction fun hne => ?_
    -- the newest is among those that were made
    have hforced : h.generation ∈ F ++ madeSince n h := by
      rw [madeSince, if_neg hn]
      refine List.mem_append_right _ (List.mem_range'_1.2 ?_)
      omega
    have hterminal := hall _ hforced
    rw [hconnecting] at hterminal
    cases hterminal
  · intro hsame g hg
    rw [madeSince, if_neg hn, hsame, Nat.sub_self, List.range'_zero, List.append_nil] at hg
    refine hs.isTerminal_of_ne fun heq => hnew hsame ?_
    rwa [← heq]

/-- **What is known of a channel's attempts stands after its turns**, and when it gives
up in one, the newest connection is on its way. -/
theorem Outlook.turn (ho : Outlook F c f.hub) (hs : f.hub.Sound) (hlim : 1 ≤ c.limit)
    (first : Precedence) :
    Outlook (F ++ madeSince f.hub.generation (c.turn f first).2.hub) (c.turn f first).1
        (c.turn f first).2.hub ∧
      (c.phase ≠ .stalled → (c.turn f first).1.phase = .stalled →
        f.hub.generation ≠ 0 ∧ Pending F f.hub.generation (c.turn f first).2.hub) := by
  have hidle (hp : c.phase = .stalled ∨ c.phase = .ended ∨ c.phase = .broken) :
      Outlook (F ++ madeSince f.hub.generation f.hub) c f.hub := by
    refine ⟨?_, ?_, ?_⟩ <;> rcases hp with hp | hp | hp <;> rw [hp] <;> nofun
  by_cases hp : c.phase = .stalled ∨ c.phase = .ended ∨ c.phase = .broken
  · rw [turn_of_idle hp]
    exact ⟨hidle hp, fun hne heq => absurd heq hne⟩
  · have hne : c.phase ≠ .stalled := fun h => hp (.inl h)
    rcases Nat.eq_zero_or_pos f.hub.generation with hz | hpos
    · -- without a connection there has been no turn; the one it asks for now is not forced
      have hstart : c.phase = .starting := by
        cases hphase : c.phase with
        | starting => rfl
        | following g seen =>
          have hx := ho.following hphase
          exact absurd (Nat.lt_of_lt_of_le hx.pos hx.le) (by omega)
        | retrying k e =>
          have hx := (ho.retrying hphase).1
          exact absurd (Nat.lt_of_lt_of_le hx.pos hx.le) (by omega)
        | stalled | ended | broken => simp [hphase] at hp
      obtain ⟨hfollow, hone⟩ := turn_of_empty hstart hz first
      obtain rfl := ho.starting hstart
      refine ⟨⟨?_, ?_, ?_⟩, ?_⟩ <;> rw [hfollow]
      · nofun
      · intro g seen heq
        cases heq
        refine ⟨Nat.one_pos, Nat.le_of_eq hone.symm, fun g hg => ?_⟩
        simp [madeSince, hz] at hg
      · nofun
      · nofun
    · have ha := (turn_moves c f first).attempting hs hpos hlim (ho.attempting hne)
      refine ⟨?_, fun _ hstalled => ⟨Nat.ne_of_gt hpos, ha.stalled hstalled⟩⟩
      rw [madeSince, if_neg (Nat.ne_of_gt hpos)]
      refine ha.outlook fun k e hretry => ?_
      rw [limit, (turn_moves c f first).alike.options_eq]
      exact le_limit_of_turn first (fun k e h => (ho.retrying h).2) hretry

/-! ## Giving up -/

/-- A channel that has published that it gave up has done so, and does nothing more. -/
def Truthful (c : Channel) : Prop :=
  .stalled ∈ c.states → c.phase = .stalled ∨ c.phase = .ended

/-- How often a channel that has given up tells its opener. -/
def callsWhenStalled (c : Channel) : Nat := if c.options.onExhausted then 1 else 0

theorem mem_states_publish {s t : ChannelState} (ht : t ∈ (c.publish s).states) :
    t = s ∨ t ∈ c.states := by
  rw [publish_eq] at ht
  dsimp only at ht
  split at ht
  · exact .inr ht
  · simpa using ht

/-- A channel at work has not published that it gave up. -/
theorem Truthful.not_mem (hc : c.Truthful) (hs : c.phase ≠ .stalled) (he : c.phase ≠ .ended) :
    .stalled ∉ c.states :=
  fun hmem => (hc hmem).elim hs he

theorem Truthful.publish (hmem : .stalled ∉ c.states) {s : ChannelState} (hs : s ≠ .stalled) :
    (c.publish s).Truthful :=
  fun ht => ((mem_states_publish ht).elim (fun heq => hs heq.symm) hmem).elim

theorem LooksAt.phase_ne (hl : c.LooksAt f g) : c.phase ≠ .stalled ∧ c.phase ≠ .ended := by
  rcases hl with ⟨hp, -⟩ | ⟨seen, hp⟩ <;> rw [hp] <;> exact ⟨nofun, nofun⟩

theorem Move.truthful (m : Move p q) (hc : p.1.Truthful) : q.1.Truthful := by
  cases m with
  | report | ask | reject | wait | letGo => exact hc
  | await hp =>
    refine Truthful.publish ?_ ?_
    · exact hc.not_mem hp.phase_ne.1 hp.phase_ne.2
    · nofun
  | notice hp => exact fun hmem => absurd hmem (hc.not_mem hp.phase_ne.1 hp.phase_ne.2)
  | again hp =>
    exact Truthful.publish (hc.not_mem (by rw [hp]; nofun) (by rw [hp]; nofun)) nofun
  | send hp =>
    refine Truthful.publish ?_ nofun
    obtain ⟨a, ha⟩ := (attach_eq _ _ _).1
    rw [ha]
    exact hc.not_mem (by rw [hp]; nofun) (by rw [hp]; nofun)
  | lose hp =>
    intro hmem
    rw [(detach_eq _ _).1] at hmem
    exact absurd hmem (hc.not_mem hp.phase_ne.1 hp.phase_ne.2)
  | announce hp =>
    exact Truthful.publish (hc.not_mem (by rw [hp]; nofun) (by rw [hp]; nofun)) nofun
  | breakDown hp | resume hp | giveTime hp | force hp =>
    exact fun hmem => absurd hmem (hc.not_mem (by rw [hp]; nofun) (by rw [hp]; nofun))
  | stall => exact fun _ => .inl rfl
  | take =>
    obtain ⟨_, _, _, _, heq⟩ := handleFrame_eq _ _ _
    rw [heq]
    exact hc

/-- No channel ends in a turn. -/
theorem Move.phase_ne_ended (m : Move p q) (hp : p.1.phase ≠ .ended) : q.1.phase ≠ .ended := by
  cases m with
  | report | ask | reject | wait | letGo => exact hp
  | again | announce =>
    rw [publish_eq]
    exact hp
  | await =>
    rw [publish_eq]
    nofun
  | notice | lose | breakDown | resume | giveTime | force | stall => nofun
  | send =>
    rw [publish_eq, phase_attach]
    exact hp
  | take =>
    rw [phase_handleFrame]
    exact hp

/-- A turn in which a channel publishes that it gave up is one in which it does. -/
theorem phase_of_turn_stalled {first : Precedence} (hc : c.Truthful) (hbefore : c.state ≠ .stalled)
    (hafter : (c.turn f first).1.state = .stalled) :
    c.phase ≠ .stalled ∧ (c.turn f first).1.phase = .stalled := by
  have hactive : ¬(c.phase = .stalled ∨ c.phase = .ended ∨ c.phase = .broken) := by
    intro hp
    rw [turn_of_idle hp] at hafter
    exact hbefore hafter
  have hms := turn_moves c f first
  refine ⟨fun hp => hactive (.inl hp), ?_⟩
  -- a channel's state is the last of those it has published
  have hmem : .stalled ∈ (c.turn f first).1.states := by
    cases hstates : (c.turn f first).1.states with
    | nil => simp [state, hstates] at hafter
    | cons t rest =>
      have ht : t = .stalled := by simpa [state, hstates] using hafter
      simp [ht]
  have hlives : (c.turn f first).1.phase ≠ .ended :=
    hms.keep (P := fun c => c.phase ≠ .ended) Move.phase_ne_ended
      fun hp => hactive (.inr (.inl hp))
  exact (hms.keep Move.truthful hc hmem).resolve_right hlives

/-- A channel tells its opener when it gives up and at no other time. -/
theorem Move.exhaustedCalls (m : Move p q) :
    q.1.phase = .stalled ∧ p.1.phase ≠ .stalled ∧
        q.1.exhaustedCalls = p.1.exhaustedCalls + p.1.callsWhenStalled ∨
      (q.1.phase = .stalled → p.1.phase = .stalled) ∧
        (p.1.phase = .stalled → q.1.phase = .stalled) ∧
          q.1.exhaustedCalls = p.1.exhaustedCalls := by
  cases m with
  | report | ask | reject | wait | letGo => exact .inr ⟨id, id, rfl⟩
  | await hp =>
    refine .inr ⟨?_, fun h => absurd h hp.phase_ne.1, by rw [publish_eq]⟩
    rw [publish_eq]
    exact nofun
  | notice hp => exact .inr ⟨nofun, fun h => absurd h hp.phase_ne.1, rfl⟩
  | again | announce =>
    simp only [publish_eq]
    exact .inr ⟨id, id, trivial⟩
  | send hp =>
    obtain ⟨a, ha⟩ := (attach_eq _ _ _).1
    rw [publish_eq, ha]
    exact .inr ⟨id, id, rfl⟩
  | lose hp =>
    rw [(detach_eq _ _).1]
    exact .inr ⟨nofun, fun h => absurd h hp.phase_ne.1, rfl⟩
  | breakDown hp | resume hp | giveTime hp | force hp =>
    exact .inr ⟨nofun, fun h => absurd (hp.symm.trans h) nofun, rfl⟩
  | stall hp =>
    refine .inl ⟨rfl, fun h => absurd (hp.symm.trans h) nofun, ?_⟩
    rw [Channel.stall, publish_eq]
    rfl
  | take =>
    obtain ⟨_, _, _, _, heq⟩ := handleFrame_eq _ _ _
    rw [heq]
    exact .inr ⟨id, id, rfl⟩

/-- A turn in which a channel gives up tells its opener, once if it wants to know. -/
theorem Moves.exhaustedCalls (ms : Moves p q) (hp : p.1.phase ≠ .stalled) :
    q.1.exhaustedCalls =
      p.1.exhaustedCalls + if q.1.phase = .stalled then p.1.callsWhenStalled else 0 := by
  induction ms with
  | refl => rw [if_neg hp, Nat.add_zero]
  | @tail q r hto m ih =>
    have hcalls : q.1.callsWhenStalled = p.1.callsWhenStalled := by
      rw [callsWhenStalled, (Moves.alike hto).options_eq]
      rfl
    -- the move gives up, or it leaves both the count and whether the channel has
    rcases m.exhaustedCalls with ⟨hr, hq, heq⟩ | ⟨hback, hforth, heq⟩
    · rw [heq, ih, if_neg hq, if_pos hr, hcalls, Nat.add_zero]
    · rw [heq, ih]
      by_cases hq : q.1.phase = .stalled
      · rw [if_pos hq, if_pos (hforth hq)]
      · rw [if_neg hq, if_neg fun hr => hq (hback hr)]

end PushFeed.Channel
