import PushFeed.Schedule
import PushFeed.Proofs.Channel.Replacing
/-!
# Attempts side by side

What one attempt does depends on what it finds, and on nothing else: the first channel
whose attempt falls due forces a new connection (`turn_of_due`), and those whose attempts
fall due after it find that connection on its way and give it time (`turn_of_late`).
Either way the channel then waits for its next attempt, or has none left
(`phaseAfter`). One that finds the connection it waits for open follows it
(`turn_of_open`).
-/

namespace PushFeed

namespace Delay

variable {d : Delay} {start m n t : Nat}

/-- Where there is a later deadline there is an earlier one, and it is no later. -/
theorem exists_deadline?_le (h : d.deadline? start n = some t) (hle : m ≤ n) :
    ∃ t', d.deadline? start m = some t' ∧ t' ≤ t := by
  have hspan : d.milliseconds.toNat * m ≤ d.milliseconds.toNat * n := Nat.mul_le_mul_left _ hle
  simp only [deadline?] at h ⊢
  split at h
  · rename_i hfits
    obtain rfl := Option.some.inj h
    have hearlier : m < twoTo 32 ∧ d.milliseconds.toNat * m / 1000 < twoTo 64 ∧
        (start + d.milliseconds.toNat * m) / 1000 < twoTo 63 := by
      obtain ⟨hcount, hlong, hfar⟩ := hfits
      refine ⟨by omega, ?_, ?_⟩
      · exact Nat.lt_of_le_of_lt (Nat.div_le_div_right hspan) hlong
      · exact Nat.lt_of_le_of_lt (Nat.div_le_div_right (Nat.add_le_add_left hspan _)) hfar
    rw [if_pos hearlier]
    exact ⟨_, rfl, Nat.add_le_add_left hspan _⟩
  · cases h

/-- Nothing is due at once. -/
theorem lt_of_deadline? (h : d.deadline? start n = some t) (hd : 0 < d.milliseconds.toNat)
    (hn : 0 < n) : start < t := by
  have hpos := Nat.mul_pos hd hn
  have ht := eq_add_of_deadline? h
  omega

end Delay

theorem Feed.now_onConnection (f : Feed) (g : Nat)
    (change : Connection → Connection × List LogLine) :
    (f.onConnection g change).now = f.now := by
  unfold Feed.onConnection
  split <;> rfl

namespace Channel

variable {c c' : Channel} {f f' : Feed} {g k n t x : Nat} {e : Episode} {p q : Channel × Feed}

/-! ## Turns take no time -/

theorem now_detach (c : Channel) (f : Feed) : (c.detach f).2.now = f.now := by
  unfold detach
  split
  · rfl
  · exact Feed.now_onConnection ..

theorem now_attach (c : Channel) (f : Feed) (g : Nat) : (c.attach f g).2.now = f.now := by
  simp only [attach]
  split
  · rfl
  · split
    · exact c.now_detach f
    · rw [Feed.now_onConnection]
      exact c.now_detach f

theorem now_sendText {text : String} (hf : f.sendText g text = .ok f') : f'.now = f.now := by
  obtain ⟨-, -, rfl⟩ := Feed.sendText_eq_ok hf
  rfl

theorem now_handleFrame (c : Channel) (f : Feed) (frame : Wire.Bytes) :
    (c.handleFrame f frame).2.now = f.now := by
  have hd : (f.decodeAs (Message.ofJson c.kind) c.topic.source c.topic.typeName frame).2.now =
      f.now := rfl
  unfold handleFrame
  split
  · rfl
  · split <;> rename_i heq <;> rw [heq] at hd <;> exact hd

theorem Move.now (m : Move p q) : q.2.now = p.2.now := by
  cases m with
  | report | ask | await | notice | again | reject | announce | breakDown | resume | giveTime |
    force | stall | wait | letGo => rfl
  | send _ _ _ hf => exact (now_attach ..).trans (now_sendText hf)
  | lose => exact now_detach ..
  | take => exact now_handleFrame ..

theorem Moves.now (ms : Moves p q) : q.2.now = p.2.now := by
  induction ms with
  | refl => rfl
  | tail _ m ih => exact m.now.trans ih

theorem now_turn (c : Channel) (f : Feed) (first : Precedence) :
    (c.turn f first).2.now = f.now :=
  (turn_moves c f first).now

theorem now_tearDown (c : Channel) (f : Feed) : (c.tearDown f).2.now = f.now := by
  have hrelease : ∀ f : Feed, (c.release f).2.now = f.now := by
    intro f
    unfold release
    split
    · rfl
    · rename_i a _
      have hnow := c.now_detach f
      generalize c.detach f = r at hnow
      obtain ⟨d, f'⟩ := r
      show (d.unsubscribe f' a.generation).now = f.now
      unfold unsubscribe
      split
      · split
        · rename_i f'' hf
          cases ht : (ClientMessage.unsubscribe d.topic.channel).text? with
          | error error =>
            rw [ht] at hf
            cases hf
          | ok text =>
            rw [ht] at hf
            exact (now_sendText hf).trans hnow
        · exact hnow
      · exact hnow
  unfold tearDown
  split
  · show (c.release _).2.now = f.now
    rw [hrelease]
    split <;> rfl
  · rfl

/-! ## Attempts one by one -/

/-- The attempt after the first `k` that follow a close seen at `t` is not due yet, if the
channel is to make it. -/
def Early (c : Channel) (t k now : Nat) : Prop :=
  k < c.limit → ∀ d, c.options.reconnectDelay.deadline? t (k + 2) = some d → now < d

theorem Early.congr {now : Nat} (he : c.Early t k now) (h : c'.options = c.options) :
    c'.Early t k now := by
  unfold Early
  rw [limit_congr h, h]
  exact he

/-- Where an attempt is not due, the next is not due either. -/
theorem Early.succ {now : Nat} (he : c.Early t k now) : c.Early t (k + 1) now := by
  intro hk d hd
  obtain ⟨d', hd', hle⟩ := Delay.exists_deadline?_le hd (Nat.le_succ (k + 2))
  have hlt := he (by omega) d' hd'
  omega

/-- At the moment of the close no attempt is due. -/
theorem early_self (hd : 0 < c.options.reconnectDelay.milliseconds.toNat) (t k : Nat) :
    c.Early t k t :=
  fun _ _ h => Delay.lt_of_deadline? h hd (Nat.succ_pos _)

/-- Where a channel stands that has made `k` attempts after a close it saw at `t`, the
last of which left connection `x`. -/
def phaseAfter (c : Channel) (t x k : Nat) : Phase :=
  if k < c.limit then
    if (c.options.reconnectDelay.deadline? t (k + 2)).isSome then .retrying (k + 1) ⟨t, x, x⟩
    else .broken
  else .stalled

theorem phaseAfter_congr (h : c'.options = c.options) (t x k : Nat) :
    c'.phaseAfter t x k = c.phaseAfter t x k := by
  unfold phaseAfter
  rw [limit_congr h, h]

/-- The channel still has an attempt to make just if there is one within the limit that
has a deadline. -/
theorem retrying_of_phaseAfter {j : Nat} (hp : c.phaseAfter t x k = .retrying j e) :
    k < c.limit ∧ j = k + 1 ∧ e = ⟨t, x, x⟩ ∧
      ∃ d, c.options.reconnectDelay.deadline? t (k + 2) = some d := by
  unfold phaseAfter at hp
  split at hp
  · rename_i hk
    split at hp
    · rename_i hd
      cases hp
      exact ⟨hk, rfl, rfl, Option.isSome_iff_exists.1 hd⟩
    · cases hp
  · cases hp

theorem phaseAfter_of_deadline {d : Nat} (hk : k < c.limit)
    (hd : c.options.reconnectDelay.deadline? t (k + 2) = some d) (x : Nat) :
    c.phaseAfter t x k = .retrying (k + 1) ⟨t, x, x⟩ := by
  rw [phaseAfter, if_pos hk, hd]
  rfl

/-- What the attempts come to when none is due. -/
theorem attempts_of_wait (hn : n + k = c.limit) (hnot : c.Early t k f.now)
    (hopen : f.hub.stateOf x ≠ .open) :
    (attempts n (k + 1) c f ⟨t, x, x⟩).1.phase = c.phaseAfter t x k ∧
      (attempts n (k + 1) c f ⟨t, x, x⟩).2.hub = f.hub := by
  cases n with
  | zero =>
    rw [phaseAfter, if_neg (by omega)]
    exact ⟨rfl, rfl⟩
  | succ n =>
    have hk : k < c.limit := by omega
    have hlate := hnot hk
    rw [phaseAfter, if_pos hk, attempts, publish_eq]
    dsimp only
    cases hd : c.options.reconnectDelay.deadline? t (k + 2) with
    | none => exact ⟨rfl, rfl⟩
    | some d =>
      have hdue : isDue f d ⟨t, x, x⟩ = false := by
        have hlt := hlate d hd
        have hopen : (f.hub.stateOf x).isOpen = false :=
          Bool.eq_false_iff.2 fun h => hopen ((ReadyState.isOpen_iff _).1 h)
        simp only [isDue, hopen, Bool.or_false, decide_eq_false_iff_not]
        omega
      dsimp only
      rw [hdue, if_neg (by simp)]
      exact ⟨rfl, rfl⟩

/-- What an attempt does that is due. -/
theorem attempts_of_due {d : Nat} (hpos : 0 < f.hub.generation)
    (hd : c.options.reconnectDelay.deadline? e.closedAt (k + 1) = some d)
    (hdue : isDue f d e = true) :
    ∃ c' f', c'.options = c.options ∧ c'.sentOn = c.sentOn ∧ c'.rejectedOn = c.rejectedOn ∧
      c'.request = c.request ∧ f'.hub = f.hub ∧ f'.now = f.now ∧
      attempts (n + 1) k c f e =
        if (f.hub.stateOf f.hub.generation).isOpen then c'.resume f' f.hub.generation
        else attempts n (k + 1) c' (c'.attemptOnce f' k e).1 (c'.attemptOnce f' k e).2 := by
  have hhub : (f.getConnection false).hub = f.hub := by
    rw [Feed.hub_getConnection, Hub.get_false_of_pos hpos]
  refine ⟨c.publish (.reconnecting k), f.getConnection false, ?_, ?_, ?_, ?_, hhub, rfl, ?_⟩
  · rw [publish_eq]
  · rw [publish_eq]
  · rw [publish_eq]
  · rw [publish_eq]
  · have hd' : (c.publish (.reconnecting k)).options.reconnectDelay.deadline? e.closedAt (k + 1) =
        some d := by
      rw [publish_eq]
      exact hd
    rw [attempts]
    dsimp only
    rw [hd']
    dsimp only
    rw [if_pos hdue, hhub]

theorem isDue_of_le {d : Nat} (hd : d ≤ f.now) (e : Episode) : isDue f d e = true := by
  simp only [isDue, decide_eq_true hd, Bool.true_or]

/-- An attempt that is due and finds no connection open, and none on its way that it has
not waited for yet, forces the next one. -/
theorem attempts_of_force {d : Nat} (hs : f.hub.Sound) (hn : n + (k + 1) = c.limit)
    (hgen : f.hub.generation = x) (hpos : 0 < x)
    (hd : c.options.reconnectDelay.deadline? t (k + 2) = some d) (hdue : d ≤ f.now)
    (hopen : f.hub.stateOf x ≠ .open) (hnot : c.Early t (k + 1) f.now) :
    (attempts (n + 1) (k + 1) c f ⟨t, x, x⟩).1.phase = c.phaseAfter t (x + 1) (k + 1) ∧
      (attempts (n + 1) (k + 1) c f ⟨t, x, x⟩).2.hub = (f.hub.get true).1 := by
  obtain ⟨c', f', hoptions, -, -, -, hhub, hnow, heq⟩ :=
    attempts_of_due (n := n) (e := ⟨t, x, x⟩) (by omega) hd (isDue_of_le hdue _)
  have hclosed : ¬(f.hub.stateOf f.hub.generation).isOpen = true := by
    rw [hgen]
    exact fun h => hopen ((ReadyState.isOpen_iff _).1 h)
  have hwaited : ¬(f'.hub.stateOf f'.hub.generation = .connecting ∧
      (⟨t, x, x⟩ : Episode).lastChecked ≠ f'.hub.generation) := by
    rw [hhub, hgen]
    exact fun h => h.2 rfl
  obtain ⟨hforced, hstill, he⟩ := c'.attemptOnce_of_not (k + 1) hwaited
  rw [heq, if_neg hclosed]
  rw [hhub] at hforced
  rw [hhub, hgen] at he
  have hmade : (f.hub.get true).1.stateOf (x + 1) = .connecting := by
    rw [Hub.stateOf, hs.find?_get_true, hgen, if_pos rfl]
    rfl
  generalize c'.attemptOnce f' (k + 1) ⟨t, x, x⟩ = r at hforced hstill he
  obtain ⟨f₂, e₂⟩ := r
  dsimp only at hforced hstill he ⊢
  rw [he, ← hforced, ← phaseAfter_congr hoptions]
  rw [← hnow, ← hstill] at hnot
  rw [← limit_congr hoptions] at hn
  exact attempts_of_wait hn (hnot.congr hoptions) (by rw [hforced, hmade]; decide)

/-- An attempt that is due and finds a connection on its way that it has not waited for
yet gives it time. -/
theorem attempts_of_late {d y : Nat} (hn : n + (k + 1) = c.limit)
    (hgen : f.hub.generation = x) (hpos : 0 < x)
    (hd : c.options.reconnectDelay.deadline? t (k + 2) = some d) (hdue : d ≤ f.now)
    (hstate : f.hub.stateOf x = .connecting) (hne : y ≠ x) (hnot : c.Early t (k + 1) f.now) :
    (attempts (n + 1) (k + 1) c f ⟨t, y, y⟩).1.phase = c.phaseAfter t x (k + 1) ∧
      (attempts (n + 1) (k + 1) c f ⟨t, y, y⟩).2.hub = f.hub := by
  obtain ⟨c', f', hoptions, -, -, -, hhub, hnow, heq⟩ :=
    attempts_of_due (n := n) (e := ⟨t, y, y⟩) (by omega) hd (isDue_of_le hdue _)
  have hclosed : ¬(f.hub.stateOf f.hub.generation).isOpen = true := by
    rw [hgen, hstate]
    decide
  have hnew : f'.hub.stateOf f'.hub.generation = .connecting ∧
      (⟨t, y, y⟩ : Episode).lastChecked ≠ f'.hub.generation := by
    rw [hhub, hgen]
    exact ⟨hstate, hne⟩
  obtain ⟨hkept, hstill, he⟩ := c'.attemptOnce_of_connecting (k + 1) hnew
  rw [heq, if_neg hclosed]
  rw [hhub, hgen] at he
  rw [hhub] at hkept
  generalize c'.attemptOnce f' (k + 1) ⟨t, y, y⟩ = r at hkept hstill he
  obtain ⟨f₂, e₂⟩ := r
  dsimp only at hkept hstill he ⊢
  rw [he, ← hkept, ← phaseAfter_congr hoptions]
  rw [← hnow, ← hstill] at hnot
  rw [← limit_congr hoptions] at hn
  exact attempts_of_wait hn (hnot.congr hoptions) (by rw [hkept, hstate]; decide)

/-! ## Turns -/

/-- The turn of a channel that waits for an attempt, or has none left. -/
theorem turn_of_wait (hp : c.phase = c.phaseAfter t x k) (hopen : f.hub.stateOf x ≠ .open)
    (hnot : c.Early t k f.now) (first : Precedence) :
    (c.turn f first).1.phase = c.phase ∧ (c.turn f first).2.hub = f.hub := by
  cases hphase : c.phase with
  | retrying j e =>
    obtain ⟨hk, rfl, rfl, -⟩ := retrying_of_phaseAfter (hp.symm.trans hphase)
    have hn : c.options.maxAttempts.toNat + 1 - (k + 1) + k = c.limit := by
      unfold limit at hk ⊢
      omega
    rw [← hphase, hp]
    simp only [turn, hphase]
    exact attempts_of_wait hn hnot hopen
  | stalled | broken | ended =>
    rw [turn_of_idle (by simp [hphase])]
    exact ⟨hphase, rfl⟩
  | starting | following =>
    rw [hphase, phaseAfter] at hp
    split at hp
    · split at hp <;> cases hp
    · cases hp

/-- A channel whose attempt is due forces the next connection, unless the newest is
open or one it has not waited for yet. -/
theorem turn_of_due {d : Nat} (hs : f.hub.Sound) (hp : c.phase = .retrying (k + 1) ⟨t, x, x⟩)
    (hk : k < c.limit) (hgen : f.hub.generation = x) (hpos : 0 < x)
    (hd : c.options.reconnectDelay.deadline? t (k + 2) = some d) (hdue : d ≤ f.now)
    (hopen : f.hub.stateOf x ≠ .open) (hnot : c.Early t (k + 1) f.now) (first : Precedence) :
    (c.turn f first).1.phase = c.phaseAfter t (x + 1) (k + 1) ∧
      (c.turn f first).2.hub = (f.hub.get true).1 := by
  have hn : c.options.maxAttempts.toNat + 1 - (k + 1) = (c.limit - (k + 1)) + 1 := by
    unfold limit at hk ⊢
    omega
  simp only [turn, hp, hn]
  exact attempts_of_force hs (by omega) hgen hpos hd hdue hopen hnot

/-- A channel whose attempt is due gives a connection time that it has not waited for
yet. -/
theorem turn_of_late {d y : Nat} (hp : c.phase = .retrying (k + 1) ⟨t, y, y⟩)
    (hk : k < c.limit) (hgen : f.hub.generation = x) (hpos : 0 < x)
    (hd : c.options.reconnectDelay.deadline? t (k + 2) = some d) (hdue : d ≤ f.now)
    (hstate : f.hub.stateOf x = .connecting) (hne : y ≠ x) (hnot : c.Early t (k + 1) f.now)
    (first : Precedence) :
    (c.turn f first).1.phase = c.phaseAfter t x (k + 1) ∧ (c.turn f first).2.hub = f.hub := by
  have hn : c.options.maxAttempts.toNat + 1 - (k + 1) = (c.limit - (k + 1)) + 1 := by
    unfold limit at hk ⊢
    omega
  simp only [turn, hp, hn]
  exact attempts_of_late (by omega) hgen hpos hd hdue hstate hne hnot

theorem reconnect_of_newest (hgen : f.hub.generation = g) (hpos : 0 < g)
    (ht : (f.hub.stateOf g).isTerminal = true) (hnot : c.Early f.now 0 f.now) :
    (c.reconnect f g).1.phase = c.phaseAfter f.now g 0 ∧ f.hub.Quiet (c.reconnect f g).2.hub := by
  obtain ⟨hc, hq, -⟩ := c.detach_eq f
  have hnow := c.now_detach f
  have hsame : ((c.detach f).2.getConnection false).hub = (c.detach f).2.hub := by
    have hdetached : 0 < (c.detach f).2.hub.generation := by
      rw [hq.generation_eq]
      omega
    rw [Feed.hub_getConnection, Hub.get_false_of_pos hdetached]
  have hopen : ((c.detach f).2.getConnection false).hub.stateOf g ≠ .open := by
    intro h
    rw [hsame, hq.stateOf_eq] at h
    rw [h] at ht
    cases ht
  have hnow' : ((c.detach f).2.getConnection false).now = f.now := hnow
  have hgen' : ((c.detach f).2.getConnection false).hub.generation = g := by
    rw [hsame, hq.generation_eq, hgen]
  have hnot' : c.Early f.now 0 ((c.detach f).2.getConnection false).now := by
    rw [hnow']
    exact hnot
  unfold reconnect
  dsimp only
  rw [hgen', hnow', hc]
  have hwait := attempts_of_wait
    (c := { c with attached := none, sentOn := none, rejectedOn := none }) (n := c.limit) (k := 0)
    (t := f.now) (x := g)
    (f := ((c.detach f).2.getConnection false).report
      [({ c with attached := none, sentOn := none, rejectedOn := none } : Channel).line .info
        ("Connection #" ++ toString g ++ " closed, reconnecting")])
    rfl hnot' hopen
  refine ⟨hwait.1, ?_⟩
  have hhub := hwait.2
  rw [Feed.hub_report, hsame] at hhub
  rw [← hhub] at hq
  exact hq

/-- A channel that finds the newest connection gone lets it go and waits. -/
theorem turn_of_lost (hl : c.LooksAt f g) (hc : c.Hopeful) (hgen : f.hub.generation = g)
    (hpos : 0 < g) (ht : (f.hub.stateOf g).isTerminal = true) (hnot : c.Early f.now 0 f.now)
    (first : Precedence) :
    (c.turn f first).1.phase = c.phaseAfter f.now g 0 ∧ f.hub.Quiet (c.turn f first).2.hub := by
  rcases hl with ⟨hp, -, -⟩ | ⟨seen, hp⟩
  · have hget : (f.getConnection false).hub = f.hub := by
      rw [Feed.hub_getConnection, Hub.get_false_of_pos (by omega)]
    simp only [turn, hp, hget, hgen]
    rw [look_of_isTerminal (by rw [hget]; exact ht)]
    have hlost := reconnect_of_newest (c := c) (f := f.getConnection false) (by rw [hget]; exact hgen)
      hpos (by rw [hget]; exact ht) hnot
    rw [hget] at hlost
    exact hlost
  · have hne : f.hub.stateOf g ≠ seen := by
      intro h
      have hseen := hc g seen hp
      rw [← h, ht] at hseen
      cases hseen
    have hq := quiet_handleMany (ahead first) c f
    have hms := handleMany_moves (ahead first) c f
    rw [turn_of_ne hp hne rfl]
    have hoptions := hms.alike.options_eq
    have hnow := hms.now
    generalize handleMany (ahead first) c f = q at hq hoptions hnow
    have ht' : (q.2.hub.stateOf g).isTerminal = true := by
      rw [hq.stateOf_eq]
      exact ht
    dsimp only at hoptions hnow
    have hlost := reconnect_of_newest (c := q.1) (f := q.2) (hq.generation_eq.trans hgen) hpos ht'
      (by rw [hnow]; exact hnot.congr hoptions)
    rw [hnow, phaseAfter_congr hoptions] at hlost
    rw [look_of_isTerminal ht']
    exact ⟨(phase_handleMany ..).trans hlost.1, hq.trans (hlost.2.trans (quiet_handleMany ..))⟩

end Channel

/-! ## Finding a connection open -/

namespace Channel

variable {c : Channel} {f f' : Feed} {g k t x : Nat}

/-- A channel whose request is valid asks on a connection that takes texts. -/
theorem sentOn_subscribe {text : String} (ht : c.request.text? = .ok text)
    (hr : c.rejectedOn = none) (htakes : f.hub.takesTexts g = true) :
    (c.subscribe f g).1.sentOn = some g := by
  unfold subscribe
  split
  · rename_i hsent
    rw [publish_eq]
    exact hsent
  · split
    · rename_i hrejected
      rw [hr] at hrejected
      cases hrejected
    · obtain ⟨f', hf⟩ := (Feed.exists_sendText_iff text).2 htakes
      obtain ⟨a, ha⟩ := ((c.requested g).attach_eq f' g).1
      rw [ht]
      dsimp only
      rw [hf]
      dsimp only
      rw [publish_eq]
      show ((c.requested g).attach f' g).1.sentOn = some g
      rw [ha]
      rfl

/-- A channel that waits for its next attempt follows the connection it waits for as soon
as that is open, and asks there. -/
theorem turn_of_open (hp : c.phase = .retrying (k + 1) ⟨t, x, x⟩) (hk : k < c.limit)
    (hd : (c.options.reconnectDelay.deadline? t (k + 2)).isSome = true)
    (hgen : f.hub.generation = x) (hpos : 0 < x) (htakes : f.hub.takesTexts x = true)
    (first : Precedence) :
    (c.turn f first).1.phase = .following x .open ∧ (c.turn f first).2.hub.generation = x ∧
      ∀ text, c.request.text? = .ok text → c.rejectedOn = none →
        (c.turn f first).1.sentOn = some x := by
  obtain ⟨d, hd⟩ := Option.isSome_iff_exists.1 hd
  have hopen : (f.hub.stateOf x).isOpen = true :=
    (ReadyState.isOpen_iff _).2 (Hub.stateOf_of_takesTexts htakes)
  have hn : c.options.maxAttempts.toNat + 1 - (k + 1) = (c.limit - (k + 1)) + 1 := by
    unfold limit at hk ⊢
    omega
  have hdue : isDue f d ⟨t, x, x⟩ = true := by
    simp only [isDue, hopen, Bool.or_true]
  obtain ⟨c', f', -, -, hrejected, hrequest, hhub, -, heq⟩ :=
    attempts_of_due (n := c.limit - (k + 1)) (e := ⟨t, x, x⟩) (by omega) hd hdue
  have hturn : c.turn f first = c'.resume f' x := by
    simp only [turn, hp, hn]
    rw [heq, hgen, if_pos hopen]
  have hgen' := generation_subscribe { c' with phase := .following x .open }
    (f'.report [c'.line .info ("Connection #" ++ toString x ++ " is open, resubscribing")]) x
  rw [hturn]
  refine ⟨phase_subscribe .., ?_, fun text ht hr => ?_⟩
  · rw [Feed.hub_report, hhub, hgen] at hgen'
    exact hgen'
  · have ht' : c'.request.text? = .ok text := hrequest ▸ ht
    refine sentOn_subscribe ht' (hrejected.trans hr) ?_
    rw [Feed.hub_report, hhub]
    exact htakes

theorem sentOn_handleNext (c : Channel) (f : Feed) : (c.handleNext f).1.sentOn = c.sentOn := by
  simp only [handleNext]
  split
  · rfl
  · split
    · rfl
    · split
      · rfl
      · rfl
      · obtain ⟨_, _, _, _, heq⟩ := handleFrame_eq _ _ _
        rw [heq]

theorem sentOn_handleMany (n : Nat) (c : Channel) (f : Feed) :
    (handleMany n c f).1.sentOn = c.sentOn := by
  induction n generalizing c f with
  | zero => rfl
  | succ n ih => exact (ih _ _).trans (sentOn_handleNext c f)

/-- A channel goes on following an open connection, and remembers its request there. -/
theorem turn_of_following (hp : c.phase = .following x .open) (hopen : f.hub.stateOf x = .open)
    (first : Precedence) :
    (c.turn f first).1.phase = .following x .open ∧
      (c.turn f first).2.hub.generation = f.hub.generation ∧
      (c.turn f first).1.sentOn = c.sentOn := by
  simp only [turn, hp, if_pos hopen, handleAll]
  exact ⟨(phase_handleMany ..).trans hp, (quiet_handleMany ..).generation_eq,
    sentOn_handleMany ..⟩

/-- A channel whose request is valid has never found it otherwise. -/
def Accepted (c : Channel) : Prop := ∀ text, c.request.text? = .ok text → c.rejectedOn = none

theorem Move.accepted {p q : Channel × Feed} (m : Move p q) (hc : p.1.Accepted) :
    q.1.Accepted := by
  cases m with
  | report | ask | notice | breakDown | resume | giveTime | force | wait | letGo => exact hc
  | await | again | announce =>
    rw [publish_eq]
    exact hc
  | stall =>
    rw [Channel.stall, publish_eq]
    exact hc
  | reject _ _ ht =>
    intro text ht'
    cases ht.symm.trans ht'
  | lose => exact fun _ _ => rfl
  | take =>
    obtain ⟨_, _, _, _, heq⟩ := handleFrame_eq _ _ _
    rw [heq]
    exact hc
  | send =>
    obtain ⟨a, ha⟩ := (attach_eq _ _ _).1
    rw [publish_eq, ha]
    exact hc

end Channel

end PushFeed
