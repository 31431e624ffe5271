import PushFeed.Proofs.Channel.Timing
import PushFeed.Proofs.Channel.Waiting
/-!
# Attempts that have a deadline

A deadline is a start and a number of delays, and there may be none: the count is one of 32
bits, and the clock ends. How far the clock is from its end is all that the delay is up
against, since an attempt is come to only when the one before it is over: by then all delays
but one have gone by (`ComesTo.deadline?_eq`). So while the clock has room for two delays
(`Delay.HasRoom`), the one attempt without a deadline is the one numbered `2 ^ 32 - 1`, whose
deadline would be counted with the number `2 ^ 32`. A channel comes to it only if its limit
is as high and the clock lets as many delays go by (`Countable`, `ComesTo.lt_last`).

In any other channel a turn about a close leaves the channel waiting for a later moment, or it
ends the matter (`about_cases`): the channel follows an open connection, or it gives up. A
channel that is not `Countable` breaks down once as many delays have gone by and nothing has
opened (`phase_attempts_of_overdue`).
-/

namespace PushFeed

namespace Delay

variable {d : Delay} {now later start count : Nat}

/-- Two delays from now are within reach of the clock. -/
def HasRoom (d : Delay) (now : Nat) : Prop :=
  (now + d.milliseconds.toNat * 2) / 1000 < twoTo 63

instance (d : Delay) (now : Nat) : Decidable (d.HasRoom now) :=
  inferInstanceAs (Decidable (_ < _))

theorem HasRoom.of_le (h : d.HasRoom later) (hle : now ≤ later) : d.HasRoom now :=
  Nat.lt_of_le_of_lt (Nat.div_le_div_right (Nat.add_le_add_right hle _)) h

theorem count_lt_of_deadline? {t : Nat} (h : d.deadline? start count = some t) : count < twoTo 32 := by
  simp only [deadline?] at h
  split at h
  · rename_i hspan
    exact hspan.1
  · cases h

/-- What lies no further ahead than two delays is a deadline. -/
theorem HasRoom.deadline?_eq (h : d.HasRoom now) (hcount : count < twoTo 32)
    (hle : start + d.milliseconds.toNat * count ≤ now + d.milliseconds.toNat * 2) :
    d.deadline? start count = some (start + d.milliseconds.toNat * count) := by
  have hfar : (start + d.milliseconds.toNat * count) / 1000 < twoTo 63 :=
    Nat.lt_of_le_of_lt (Nat.div_le_div_right hle) h
  have hlong : d.milliseconds.toNat * count / 1000 < twoTo 64 := by
    have hspan : d.milliseconds.toNat * count / 1000 ≤
        (start + d.milliseconds.toNat * count) / 1000 :=
      Nat.div_le_div_right (Nat.le_add_left _ _)
    have hbits : twoTo 63 < twoTo 64 := by decide
    omega
  simp only [deadline?]
  rw [if_pos ⟨hcount, hlong, hfar⟩]

end Delay

namespace Channel

variable {c c' : Channel} {f : Feed} {k k' limit now t : Nat} {d : Delay} {h : Hub} {p : Phase}
  {a : Attempt} {log : List Attempt} {first : Precedence}

/-! ## What a turn comes to -/

/-- The attempts that a turn comes to: the one it begins with, if there is one to make, and
the next one after each that finds no open connection. -/
inductive ComesTo (c : Channel) (f : Feed) (first : Precedence) : Nat → Nat → Prop
  /-- It goes on with an attempt, or begins with the first. -/
  | begins {t k : Nat} (hab : About c f t k) (hk : k ≤ c.limit) : ComesTo c f first t k
  /-- It goes on to the next. -/
  | goesOn {a : Attempt} (ha : a ∈ (c.turnLogged f first).1) (hopen : a.state ≠ .open)
      (hk : a.number < c.limit) : ComesTo c f first a.closedAt (a.number + 1)

theorem limit_lt (c : Channel) : c.limit < twoTo 32 := UInt32.toNat_lt c.options.maxAttempts

/-- No turn comes to more attempts than there are to make. -/
theorem ComesTo.le_limit (hc : c.ComesTo f first t k) : k ≤ c.limit := by
  cases hc with
  | begins hab hk => exact hk
  | goesOn ha hopen hk => exact hk

/-- The number that comes next after a log is one that the turn comes to. -/
theorem Reaches.comesTo (hr : Reaches t k log k') (hlog : log = (c.turnLogged f first).1)
    (hab : About c f t k) (hk : k' ≤ c.limit) : c.ComesTo f first t k' := by
  rcases hr with ⟨-, rfl⟩ | ⟨a, ha, hopen, rfl, rfl⟩
  · exact .begins hab hk
  · refine .goesOn ?_ hopen hk
    rw [← hlog]
    exact List.mem_of_mem_getLast? ha

/-- An attempt that is made is the first of the turn or the next after another. -/
theorem Tries.number_cases (hp : Tries d limit t now k log p h) :
    ∀ a ∈ log, a.number = k ∨ ∃ b ∈ log, b.state ≠ .open ∧ b.number + 1 = a.number := by
  induction hp with
  | wait | breakDown | giveUp => exact nofun
  | resume => exact List.forall_mem_singleton.2 (.inl rfl)
  | @next b _ _ _ _ _ hopen _ _ _ ih =>
    refine List.forall_mem_cons.2 ⟨.inl rfl, fun a ha => .inr ?_⟩
    rcases ih a ha with hnext | ⟨b', hb', hlater⟩
    · exact ⟨b, List.mem_cons_self, hopen, hnext.symm⟩
    · exact ⟨b', List.mem_cons_of_mem _ hb', hlater⟩

/-- **What a turn does about a close, it has come to**: the attempts it makes, and the one it
waits for. -/
theorem Pursues.comesTo (hp : Pursues c f (c.turnLogged f first)) (hab : About c f t k) :
    (∀ a ∈ (c.turnLogged f first).1, c.ComesTo f first a.closedAt a.number) ∧
      ∀ k' e, (c.turnLogged f first).2.1.phase = .retrying k' e →
        c.ComesTo f first e.closedAt k' := by
  rcases hp with ⟨t', k', hab', htries⟩ | ⟨hnone, -⟩
  · have htimely := htries.timely
    refine ⟨fun a ha => ?_, fun k'' e hwait => ?_⟩
    · obtain ⟨hclosed, hdone⟩ := htimely a ha
      rcases htries.number_cases a ha with hnumber | ⟨b, hb, hopen, hnumber⟩
      · rw [hclosed, hnumber]
        exact .begins hab' (hnumber ▸ hdone.number_le)
      · have hle := hdone.number_le
        rw [hclosed, ← (htimely b hb).1, ← hnumber]
        exact .goesOn hb hopen (by omega)
    · obtain ⟨hle, hclosed, hreaches⟩ := htries.reaches.1 k'' e hwait
      rw [hclosed]
      exact hreaches.comesTo rfl hab' hle
  · exact absurd ⟨t, k, hab⟩ hnone

/-! ## Their deadlines -/

/-- A channel that is retrying waits for a moment there is. -/
def Awaits (c : Channel) : Prop :=
  ∀ k e, c.phase = .retrying k e →
    ∃ deadline, c.options.reconnectDelay.deadline? e.closedAt (k + 1) = some deadline

theorem Rests.awaits (hr : c.Rests f) : c.Awaits := by
  intro k e hp
  obtain ⟨deadline, hdeadline, -⟩ := hr.retrying k e hp
  exact ⟨deadline, hdeadline⟩

/-- The attempts of a channel can be counted: its limit is not the last number of 32 bits, or
the clock ends before an attempt of that number. -/
def Countable (c : Channel) : Prop :=
  c.limit = twoTo 32 - 1 → ¬c.options.reconnectDelay.HasRoom
    (c.options.reconnectDelay.milliseconds.toNat * (twoTo 32 - 1))

theorem countable_congr (ho : c'.options = c.options) : c'.Countable ↔ c.Countable := by
  rw [Countable, Countable, limit_congr ho, ho]

/-- An attempt that a turn comes to after another one is due later than that one, which is
over. -/
theorem Pursues.due_le (hp : Pursues c f (c.turnLogged f first))
    (ha : a ∈ (c.turnLogged f first).1) (hopen : a.state ≠ .open) :
    a.due c.options.reconnectDelay ≤ f.now := by
  rcases hp with ⟨t, k, -, htries⟩ | ⟨-, hnil, -⟩
  · exact (htries.timely a ha).2.due.resolve_left hopen
  · rw [hnil] at ha
    cases ha

/-- **Every attempt that a turn comes to has its deadline**, while the clock has room, except
for the one that is counted with more than 32 bits. -/
theorem ComesTo.deadline?_eq (hc : c.ComesTo f first t k)
    (hp : Pursues c f (c.turnLogged f first)) (hwaits : c.Awaits)
    (hroom : c.options.reconnectDelay.HasRoom f.now) (hk : k < twoTo 32 - 1) :
    c.options.reconnectDelay.deadline? t (k + 1) =
      some (t + c.options.reconnectDelay.milliseconds.toNat * (k + 1)) := by
  have hcount : k + 1 < twoTo 32 := by omega
  cases hc with
  | begins hab =>
    cases hab with
    | before hretry =>
      -- the turn that has come to wait for it has found its deadline
      obtain ⟨deadline, hdeadline⟩ := hwaits k _ hretry
      rw [hdeadline, Delay.eq_add_of_deadline? hdeadline]
    | now => exact hroom.deadline?_eq hcount (Nat.le_refl _)
  | @goesOn a ha hopen =>
    -- the attempt before is over, so all delays but the last have gone by
    have hdue := hp.due_le ha hopen
    refine hroom.deadline?_eq hcount ?_
    rw [Attempt.due] at hdue
    rw [Nat.mul_succ]
    omega

/-- **No other attempt is come to where they can be counted.** -/
theorem ComesTo.lt_last (hc : c.ComesTo f first t k) (hp : Pursues c f (c.turnLogged f first))
    (hwaits : c.Awaits) (hroom : c.options.reconnectDelay.HasRoom f.now) (hcount : c.Countable) :
    k < twoTo 32 - 1 := by
  have hlt := c.limit_lt
  have hle := hc.le_limit
  by_contra hlast
  have hlimit : c.limit = twoTo 32 - 1 := by omega
  cases hc with
  | begins hab =>
    cases hab with
    | before hretry =>
      obtain ⟨deadline, hdeadline⟩ := hwaits k _ hretry
      have hfew := Delay.count_lt_of_deadline? hdeadline
      omega
    | now =>
      have hmany : 1 < twoTo 32 - 1 := by decide
      omega
  | @goesOn a ha hopen =>
    -- all delays but one have gone by, and the clock has not ended
    have hdue := hp.due_le ha hopen
    have hnumber : a.number + 1 = twoTo 32 - 1 := by omega
    rw [Attempt.due, hnumber] at hdue
    exact hcount hlimit (hroom.of_le (by omega))

/-- An attempt without a deadline has the last number of 32 bits. -/
theorem ComesTo.eq_of_none (hc : c.ComesTo f first t k)
    (hp : Pursues c f (c.turnLogged f first)) (hwaits : c.Awaits)
    (hroom : c.options.reconnectDelay.HasRoom f.now)
    (hnone : c.options.reconnectDelay.deadline? t (k + 1) = none) : k = twoTo 32 - 1 := by
  by_contra hne
  have hlt := c.limit_lt
  have hle := hc.le_limit
  rw [hc.deadline?_eq hp hwaits hroom (by omega)] at hnone
  cases hnone

/-! ## How a turn ends the matter -/

/-- A turn that ends the attempts about a close. -/
inductive Settles (c : Channel) (f : Feed) (first : Precedence) : Prop
  /-- The newest connection is open, and the channel follows it. -/
  | resumes (hphase : (c.turn f first).1.phase =
        .following (c.turn f first).2.hub.generation .open)
      (hopen : (c.turn f first).2.hub.stateOf (c.turn f first).2.hub.generation = .open)
  /-- The channel gives up, and tells its opener if that one wants to know. -/
  | givesUp (hphase : (c.turn f first).1.phase = .stalled)
      (hcalls : (c.turn f first).1.exhaustedCalls =
        c.exhaustedCalls + if c.options.onExhausted then 1 else 0)

/-- How attempts can leave a channel. -/
theorem Tries.phase_cases (hp : Tries d limit t now k log p h) :
    (∃ k' e, p = .retrying k' e ∧ e.closedAt = t) ∨
      (p = .following h.generation .open ∧ h.stateOf h.generation = .open) ∨ p = .stalled ∨
      ∃ k' ≤ limit, Reaches t k log k' ∧ d.deadline? t (k' + 1) = none := by
  induction hp with
  | wait hk hclosed => exact .inl ⟨_, _, rfl, hclosed⟩
  | breakDown hk hnever => exact .inr (.inr (.inr ⟨_, hk, .inl ⟨rfl, rfl⟩, hnever⟩))
  | giveUp => exact .inr (.inr (.inl rfl))
  | resume hk hopen => exact .inr (.inl ⟨rfl, hopen⟩)
  | next hk hclosed hopen hdue hleft hrest ih =>
    refine ih.imp_right (Or.imp_right (Or.imp_right ?_))
    rintro ⟨k', hle, hreaches, hnone⟩
    exact ⟨k', hle, hreaches.cons hopen hclosed, hnone⟩

/-- **A turn about a close leaves the channel waiting, or it ends the matter**, where the
attempts can be counted. -/
theorem about_cases (hp : Pursues c f (c.turnLogged f first)) (hwaits : c.Awaits)
    (hroom : c.options.reconnectDelay.HasRoom f.now) (hcount : c.Countable)
    (hab : About c f t k) :
    (∃ k' e, (c.turn f first).1.phase = .retrying k' e ∧ e.closedAt = t) ∨ c.Settles f first := by
  rcases id hp with ⟨t', k', hab', htries⟩ | ⟨hnone, -⟩
  · obtain rfl := hab'.unique hab
    have hcases := htries.phase_cases
    rw [turnLogged_snd] at hcases
    rcases hcases with hwait | ⟨hphase, hopen⟩ | hphase | ⟨last, hle, hreaches, hnever⟩
    · exact .inl hwait
    · exact .inr (.resumes hphase hopen)
    · refine .inr (.givesUp hphase ?_)
      have hbefore : c.phase ≠ .stalled := by
        cases hab with
        | before hretry =>
          rw [hretry]
          nofun
        | now hl => exact hl.phase_ne.1
      rw [(c.turn_moves f first).exhaustedCalls hbefore, if_pos hphase]
      rfl
    · have hcomes := hreaches.comesTo rfl hab' hle
      have hlt := hcomes.lt_last hp hwaits hroom hcount
      rw [hcomes.deadline?_eq hp hwaits hroom hlt] at hnever
      cases hnever
  · exact absurd ⟨t, k, hab⟩ hnone

/-- A turn that breaks the channel down has come to an attempt without a deadline. -/
theorem comesTo_of_broken (hp : Pursues c f (c.turnLogged f first)) (hwhole : c.phase ≠ .broken)
    (hbroken : (c.turn f first).1.phase = .broken) :
    ∃ t k, c.ComesTo f first t k ∧ c.options.reconnectDelay.deadline? t (k + 1) = none := by
  rcases hp with ⟨t, k, hab, htries⟩ | ⟨-, -, hsame⟩
  · have hcases := htries.phase_cases
    rw [turnLogged_snd, hbroken] at hcases
    rcases hcases with ⟨k', e, hwait, -⟩ | ⟨hfollows, -⟩ | hstalled | ⟨last, hle, hreaches, hnever⟩
    · cases hwait
    · cases hfollows
    · cases hstalled
    · exact ⟨t, last, hreaches.comesTo rfl hab hle, hnever⟩
  · rw [turnLogged_snd, hbroken] at hsame
    rcases hsame with hsame | ⟨g, seen, hfollows⟩
    · exact absurd hsame.symm hwhole
    · cases hfollows

/-- A channel that waits has not come to the moment at which it gives up. -/
theorem Rests.lt_of_retrying (hr : c.Rests f) {e : Episode} (hp : c.phase = .retrying k e)
    (hk : k ≤ c.limit) :
    f.now < e.closedAt + c.options.reconnectDelay.milliseconds.toNat * (c.limit + 1) := by
  obtain ⟨deadline, hdeadline, hdue⟩ := hr.retrying k e hp
  simp only [isDue, Bool.or_eq_false_iff, decide_eq_false_iff_not, Nat.not_le] at hdue
  rw [Delay.eq_add_of_deadline? hdeadline] at hdue
  have hle := Nat.mul_le_mul_left c.options.reconnectDelay.milliseconds.toNat
    (Nat.add_le_add_right hk 1)
  omega

/-! ## Channels without end -/

/-- An attempt that finds no open connection leaves one that is on its way. -/
theorem attemptOnce_connecting (c : Channel) (k : Nat) (e : Episode) (hs : f.hub.Sound) :
    (c.attemptOnce f k e).1.hub.stateOf (c.attemptOnce f k e).1.hub.generation = .connecting := by
  by_cases hnext : f.hub.stateOf f.hub.generation = .connecting ∧ e.lastChecked ≠ f.hub.generation
  · rw [(c.attemptOnce_of_connecting k hnext).1]
    exact hnext.1
  · rw [(c.attemptOnce_of_not k hnext).1, Hub.generation_get_true, Hub.stateOf,
      hs.find?_get_true, if_pos rfl]
    rfl

/-- A channel for which as many attempts are due as 32 bits can count comes to the one whose
deadline they cannot count, if nothing has opened. -/
theorem phase_attempts_of_overdue {n : Nat} {e : Episode} (hn : n + 1 + k = twoTo 32)
    (hs : f.hub.Sound) (hpos : 0 < f.hub.generation)
    (hopen : f.hub.stateOf f.hub.generation ≠ .open)
    (hdue : e.closedAt + c.options.reconnectDelay.milliseconds.toNat * (twoTo 32 - 1) ≤ f.now)
    (hroom : c.options.reconnectDelay.HasRoom f.now) :
    (attempts (n + 1) k c f e).1.phase = .broken := by
  -- each attempt leaves a connection on its way, which the next one finds no more open
  induction n generalizing k c f e with
  | zero =>
    have hnone : c.options.reconnectDelay.deadline? e.closedAt (k + 1) = none := by
      simp only [Delay.deadline?]
      rw [if_neg (by omega)]
    rw [attempts]
    simp only [publish_eq, hnone]
  | succ n ih =>
    have hmoment : e.closedAt + c.options.reconnectDelay.milliseconds.toNat * (k + 1) ≤ f.now := by
      have hspan := Nat.mul_le_mul_left c.options.reconnectDelay.milliseconds.toNat
        (show k + 1 ≤ twoTo 32 - 1 by omega)
      omega
    have hdeadline : c.options.reconnectDelay.deadline? e.closedAt (k + 1) = some _ :=
      hroom.deadline?_eq (by omega) (by omega)
    obtain ⟨c', f', hoptions, -, -, -, hhub, hnow, heq⟩ :=
      attempts_of_due (n := n + 1) hpos hdeadline (isDue_of_le hmoment e)
    rw [heq, if_neg fun h => hopen ((ReadyState.isOpen_iff _).1 h)]
    rw [← hhub] at hs hpos
    rw [← hnow, ← hoptions] at hdue hroom
    obtain ⟨hs', hnow', hclosed', hleft⟩ := c'.attemptOnce_spec k e hs
    have hconnecting := c'.attemptOnce_connecting k e hs
    refine ih (by omega) hs' (by omega) ?_ ?_ ?_
    · rw [hconnecting]
      decide
    · rw [hclosed', hnow']
      exact hdue
    · rw [hnow']
      exact hroom

/-- A channel follows a connection that has closed since it looked at it. -/
structure SeesClose (c : Channel) (f : Feed) (g : Nat) : Prop where
  /-- It has not seen the state. -/
  follows : ∃ seen, c.phase = .following g seen ∧ f.hub.stateOf g ≠ seen
  /-- The connection is one of the hub's. -/
  pos : 0 < g
  /-- It is the newest, or an older one. -/
  le : g ≤ f.hub.generation
  /-- The state is one without a way back. -/
  closed : (f.hub.stateOf g).isTerminal = true

/-- The turn in which a channel sees that its connection has closed comes to its attempts. -/
theorem SeesClose.turn_eq {g : Nat} (hsees : c.SeesClose f g) (hs : f.hub.Sound)
    (first : Precedence) :
    ∃ c' f', c'.options = c.options ∧ f'.now = f.now ∧ f'.hub.Sound ∧ f.hub.Quiet f'.hub ∧
      c.turn f first =
        let p := attempts c.limit 1 c' f' ⟨f.now, f.hub.generation, g⟩
        p.1.handleAll p.2 := by
  obtain ⟨⟨seen, hp, hne⟩, hpos, hle, ht⟩ := hsees
  have hms := handleMany_moves (ahead first) c f
  have hq := quiet_handleMany (ahead first) c f
  have hoptions := hms.alike.options_eq
  have hnow := hms.now
  have hs' := hms.evolves.sound hs
  generalize htaken : handleMany (ahead first) c f = r at hq hoptions hnow hs'
  rw [turn_of_ne hp hne htaken]
  rw [← hq.stateOf_eq] at ht
  rw [look_of_isTerminal ht, reconnect]
  obtain ⟨hc, hq', he⟩ := r.1.detach_eq r.2
  have hnow' := r.1.now_detach r.2
  have hoptions' : (r.1.detach r.2).1.options = c.options := by
    rw [hc]
    exact hoptions
  generalize r.1.detach r.2 = r' at hq' he hnow' hoptions'
  obtain ⟨c', f'⟩ := r'
  dsimp only at hq' he hnow' hoptions' ⊢
  have hgen : f'.hub.generation = f.hub.generation := hq'.generation_eq.trans hq.generation_eq
  have hget : (f'.getConnection false).hub = f'.hub := by
    rw [Feed.hub_getConnection, Hub.get_false_of_pos (by omega)]
  have hlimit : c'.options.maxAttempts.toNat = c.limit := limit_congr hoptions'
  have hepisode : (⟨(f'.getConnection false).now, (f'.getConnection false).hub.generation, g⟩ :
      Episode) = ⟨f.now, f.hub.generation, g⟩ := by
    rw [hget, hgen, ← hnow, ← hnow']
    rfl
  rw [hlimit, hepisode]
  refine ⟨_, _, ?_, ?_, ?_, ?_, rfl⟩
  · exact hoptions'
  · exact hnow'.trans hnow
  · show (f'.getConnection false).hub.Sound
    rw [hget]
    exact he.sound hs'
  · show f.hub.Quiet (f'.getConnection false).hub
    rw [hget]
    exact hq.trans hq'

/-- Before the first attempt is due the channel waits for it, if nothing is open. -/
theorem SeesClose.turn_early {g : Nat} (hsees : c.SeesClose f g) (hs : f.hub.Sound)
    (hopen : f.hub.stateOf f.hub.generation ≠ .open) (hlimit : 0 < c.limit)
    (hdelay : 0 < c.options.reconnectDelay.milliseconds.toNat)
    (hroom : c.options.reconnectDelay.HasRoom f.now) (first : Precedence) :
    (c.turn f first).1.phase = .retrying 1 ⟨f.now, f.hub.generation, g⟩ ∧
      f.hub.Quiet (c.turn f first).2.hub := by
  obtain ⟨c', f', hoptions, hnow, -, hquiet, heq⟩ := hsees.turn_eq hs first
  obtain ⟨n, hn⟩ : ∃ n, c.limit = n + 1 := ⟨c.limit - 1, by omega⟩
  have hdeadline : c.options.reconnectDelay.deadline? f.now 2 = some _ :=
    hroom.deadline?_eq (by decide) (Nat.le_refl _)
  rw [← hoptions] at hdeadline hdelay
  have hearly : isDue f' (f.now + c'.options.reconnectDelay.milliseconds.toNat * 2)
      ⟨f.now, f.hub.generation, g⟩ = false := by
    rw [isDue, hquiet.stateOf_eq, Bool.or_eq_false_iff, decide_eq_false_iff_not,
      ← Bool.not_eq_true, ReadyState.isOpen_iff]
    exact ⟨by omega, hopen⟩
  have hwaits : attempts c.limit 1 c' f' ⟨f.now, f.hub.generation, g⟩ =
      ({ c'.publish (.reconnecting 1) with
          phase := .retrying 1 ⟨f.now, f.hub.generation, g⟩ }, f') := by
    rw [hn, attempts]
    simp only [publish_eq, hdeadline, hearly, Bool.false_eq_true, if_false]
  rw [heq, hwaits]
  dsimp only
  rw [handleAll, phase_handleMany]
  exact ⟨rfl, hquiet.trans (quiet_handleMany _ _ _)⟩

end Channel

end PushFeed
