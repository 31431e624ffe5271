import PushFeed.Proofs.Channel.Abreast
import PushFeed.Proofs.Channel.Course
import Mathlib.Data.List.SplitBy
/-!
# When attempts are made

An attempt is due one delay more than its number after the close. It is made before that
only if the connection the channel waits for opens; and since of all connections none but
the newest can be open, such an attempt finds the newest connection open and is the last one
(`attemptsLogged_tries`).

`Tries` says what attempts come to at one moment, and a turn comes to no other attempts
(`turnLogged_pursues`); what this means on the clock is put together in `OnTime`. From turn
to turn `Paced` carries the dated log of a channel, and `episodes` parts the log by the
closes that its attempts are about, each part of it `OnSchedule`.
-/

namespace PushFeed.Channel

variable {c c' : Channel} {f f' : Feed} {g k n limit now t : Nat} {d : Delay} {e : Episode}
  {h : Hub} {p : Phase} {a : Attempt} {log : List Attempt}

/-! ## The attempts that are due -/

/-- When an attempt is due: one delay more than its number after the close. -/
def Attempt.due (a : Attempt) (d : Delay) : Nat :=
  a.closedAt + d.milliseconds.toNat * (a.number + 1)

/-- What attempts come to at one moment, from one on, after a close: the log of those that
are made, and how the channel and the hub are left. -/
inductive Tries (d : Delay) (limit t now : Nat) : Nat → List Attempt → Phase → Hub → Prop where
  /-- The attempt is not due yet. -/
  | wait {k : Nat} {e : Episode} {h : Hub} (hk : k ≤ limit) (hclosed : e.closedAt = t) :
      Tries d limit t now k [] (.retrying k e) h
  /-- There is no such moment. -/
  | breakDown {k : Nat} {h : Hub} (hk : k ≤ limit) (hnever : d.deadline? t (k + 1) = none) :
      Tries d limit t now k [] .broken h
  /-- None is left. -/
  | giveUp {k : Nat} {h : Hub} (hk : limit < k) : Tries d limit t now k [] .stalled h
  /-- The newest connection is open, and the channel follows it. -/
  | resume {k : Nat} {h : Hub} (hk : k ≤ limit) (hopen : h.stateOf h.generation = .open) :
      Tries d limit t now k [⟨t, k, h.generation, .open, h.generation⟩]
        (.following h.generation .open) h
  /-- It is not, though the attempt is due; the next attempt follows. -/
  | next {a : Attempt} {log : List Attempt} {p : Phase} {h : Hub} (hk : a.number ≤ limit)
      (hclosed : a.closedAt = t) (hopen : a.state ≠ .open) (hdue : a.due d ≤ now)
      (hleft : a.left = a.found ∨ a.left = a.found + 1)
      (hrest : Tries d limit t now (a.number + 1) log p h) :
      Tries d limit t now a.number (a :: log) p h

/-- A connection that is waited for and open is the newest one. -/
theorem eq_generation_of_isOpen (hs : h.Sound) {g : Nat} (ho : (h.stateOf g).isOpen = true) :
    g = h.generation := by
  by_contra hne
  have ht := hs.isTerminal_of_ne hne
  rw [(ReadyState.isOpen_iff _).1 ho] at ht
  cases ht

/-- An attempt that finds none open takes no time, and leaves what it found or the next
connection. -/
theorem attemptOnce_spec (c : Channel) (k : Nat) (e : Episode) (hs : f.hub.Sound) :
    (c.attemptOnce f k e).1.hub.Sound ∧ (c.attemptOnce f k e).1.now = f.now ∧
      (c.attemptOnce f k e).2.closedAt = e.closedAt ∧
      ((c.attemptOnce f k e).1.hub.generation = f.hub.generation ∨
        (c.attemptOnce f k e).1.hub.generation = f.hub.generation + 1) := by
  by_cases hnext : f.hub.stateOf f.hub.generation = .connecting ∧ e.lastChecked ≠ f.hub.generation
  · obtain ⟨hhub, hnow, hepisode⟩ := c.attemptOnce_of_connecting k hnext
    rw [hhub, hnow, hepisode]
    exact ⟨hs, rfl, rfl, .inl rfl⟩
  · obtain ⟨hhub, hnow, hepisode⟩ := c.attemptOnce_of_not k hnext
    rw [hhub, hnow, hepisode, Hub.generation_get_true]
    exact ⟨Hub.Step.sound hs (.get true), rfl, rfl, .inr rfl⟩

/-- An attempt that finds the newest connection open. -/
theorem resume_tries (hk : k ≤ limit) (hopen : f.hub.stateOf f.hub.generation = .open) :
    Tries d limit t now k [⟨t, k, f.hub.generation, .open, f.hub.generation⟩]
      (c.resume f f.hub.generation).1.phase (c.resume f f.hub.generation).2.hub := by
  have hphase : (c.resume f f.hub.generation).1.phase = .following f.hub.generation .open :=
    phase_subscribe ..
  have hgen : (c.resume f f.hub.generation).2.hub.generation = f.hub.generation :=
    generation_subscribe ..
  have hstate : (c.resume f f.hub.generation).2.hub.stateOf f.hub.generation = .open :=
    (stateOf_subscribe ..).trans hopen
  have htries : Tries d limit t now k _ _ (c.resume f f.hub.generation).2.hub :=
    .resume hk (by rw [hgen]; exact hstate)
  rw [hgen] at htries
  rw [hphase]
  exact htries

/-- **The attempts of one moment**: none is made before it is due unless it finds the newest
connection open, for a connection that is waited for and open is the newest one. -/
theorem attemptsLogged_tries (n : Nat) (hd : c.options.reconnectDelay = d) (hlim : c.limit = limit)
    (hn : n + k = limit + 1) (hs : f.hub.Sound) (hpos : 0 < f.hub.generation) :
    Tries d limit e.closedAt f.now k (attemptsLogged n k c f e).1
      (attemptsLogged n k c f e).2.1.phase (attemptsLogged n k c f e).2.2.hub := by
  induction n generalizing k c f e with
  | zero => exact .giveUp (by omega)
  | succ n ih =>
    have hk : k ≤ limit := by omega
    have hd' : (c.publish (.reconnecting k)).options.reconnectDelay = d := by
      rw [publish_eq]
      exact hd
    have hlim' : (c.publish (.reconnecting k)).limit = limit :=
      (limit_congr (by rw [publish_eq])).trans hlim
    simp only [attemptsLogged]
    generalize c.publish (.reconnecting k) = c at hd' hlim'
    rw [hd']
    cases hdeadline : d.deadline? e.closedAt (k + 1) with
    | none => exact .breakDown hk hdeadline
    | some deadline =>
      dsimp only
      split
      · rename_i hdue
        have hget : (f.getConnection false).hub = f.hub := by
          rw [Feed.hub_getConnection, Hub.get_false_of_pos hpos]
        have hnow : (f.getConnection false).now = f.now := rfl
        generalize f.getConnection false = f₁ at hget hnow
        simp only [isDue, Bool.or_eq_true, decide_eq_true_eq] at hdue
        rw [← hget, ← hnow] at hdue
        rw [← hget] at hs hpos
        rw [← hnow]
        split
        · rename_i hopen
          exact resume_tries hk ((ReadyState.isOpen_iff _).1 hopen)
        · rename_i hopen
          have hstate : f₁.hub.stateOf f₁.hub.generation ≠ .open :=
            fun h => hopen ((ReadyState.isOpen_iff _).2 h)
          have hafter := c.attemptOnce_spec k e hs
          generalize c.attemptOnce f₁ k e = r at hafter
          obtain ⟨hs', hnow', hclosed', hleft⟩ := hafter
          have hrest := ih (k := k + 1) (c := c) (f := r.1) (e := r.2) hd' hlim' (by omega) hs'
            (by omega)
          rw [hnow', hclosed'] at hrest
          refine .next (a := ⟨e.closedAt, k, f₁.hub.generation, _, r.1.hub.generation⟩) hk rfl
            hstate ?_ hleft hrest
          -- nothing but its deadline can have woken it
          have htime : deadline ≤ f₁.now := hdue.resolve_right fun ho => by
            rw [eq_generation_of_isOpen hs ho] at ho
            exact hopen ho
          rwa [Delay.eq_add_of_deadline? hdeadline] at htime
      · exact .wait hk rfl

/-! ## What they come to -/

/-- What is true of an attempt that has been made by some moment: there are no more of them
than the limit, it has found an open connection or ends no earlier than it is due, and only
then does it put another connection in the place of what it found. -/
structure Attempt.Timely (d : Delay) (limit time : Nat) (a : Attempt) : Prop where
  number_le : a.number ≤ limit
  due : a.state = .open ∨ a.due d ≤ time
  left : a.left = a.found ∨ a.left = a.found + 1 ∧ a.due d ≤ time

/-- An attempt comes right after one about the same close that found no open connection. -/
structure Attempt.Follows (p a : Attempt) : Prop where
  succeeds : a.Succeeds p
  not_open : p.state ≠ .open

/-- The number of the attempt that comes next after a log that begins with a given one. -/
def Reaches (t k : Nat) (log : List Attempt) (k' : Nat) : Prop :=
  log = [] ∧ k' = k ∨
    ∃ a ∈ log.getLast?, a.state ≠ .open ∧ a.closedAt = t ∧ a.number + 1 = k'

theorem Reaches.cons {k' : Nat} (hr : Reaches t (a.number + 1) log k') (hopen : a.state ≠ .open)
    (hclosed : a.closedAt = t) : Reaches t k (a :: log) k' := by
  rcases hr with ⟨rfl, rfl⟩ | ⟨b, hb, hlast⟩
  · exact .inr ⟨a, rfl, hopen, hclosed, rfl⟩
  · refine .inr ⟨b, ?_, hlast⟩
    rw [List.getLast?_cons, Option.mem_def.1 hb]
    rfl

namespace Tries

theorem timely (hp : Tries d limit t now k log p h) :
    ∀ a ∈ log, a.closedAt = t ∧ a.Timely d limit now := by
  induction hp with
  | wait | breakDown | giveUp => exact nofun
  | resume hk => exact List.forall_mem_singleton.2 ⟨rfl, hk, .inl rfl, .inl rfl⟩
  | next hk hclosed hopen hdue hleft _ ih =>
    exact List.forall_mem_cons.2 ⟨⟨hclosed, hk, .inr hdue, hleft.imp_right (⟨·, hdue⟩)⟩, ih⟩

/-- The attempts come right after one another, the given one first. -/
theorem isChain (hp : Tries d limit t now k log p h) :
    log.IsChain Attempt.Follows ∧ ∀ a ∈ log.head?, a.number = k := by
  induction hp with
  | wait | breakDown | giveUp => exact ⟨.nil, nofun⟩
  | resume => exact ⟨.singleton _, by simp⟩
  | next hk hclosed hopen hdue hleft hrest ih =>
    refine ⟨List.isChain_cons.2 ⟨fun b hb => ⟨⟨?_, (ih.2 b hb).symm⟩, hopen⟩, ih.1⟩, by simp⟩
    rw [hclosed, (hrest.timely b (List.mem_of_mem_head? hb)).1]

/-- A channel that waits has made the attempts before, and so has one that gives up. -/
theorem reaches (hp : Tries d limit t now k log p h) :
    (∀ k' e, p = .retrying k' e → k' ≤ limit ∧ e.closedAt = t ∧ Reaches t k log k') ∧
      (p = .stalled → ∃ k', limit < k' ∧ Reaches t k log k') := by
  induction hp with
  | wait hk hclosed =>
    refine ⟨?_, nofun⟩
    rintro k' e ⟨⟩
    exact ⟨hk, hclosed, .inl ⟨rfl, rfl⟩⟩
  | breakDown => exact ⟨nofun, nofun⟩
  | giveUp hk => exact ⟨nofun, fun _ => ⟨_, hk, .inl ⟨rfl, rfl⟩⟩⟩
  | resume => exact ⟨nofun, nofun⟩
  | next hk hclosed hopen hdue hleft _ ih =>
    refine ⟨fun k' e hwait => ?_, fun hstalled => ?_⟩
    · obtain ⟨hle, hclosed', hr⟩ := ih.1 k' e hwait
      exact ⟨hle, hclosed', hr.cons hopen hclosed⟩
    · obtain ⟨k', hlt, hr⟩ := ih.2 hstalled
      exact ⟨k', hlt, hr.cons hopen hclosed⟩

/-- An attempt that finds the newest connection open is the last, and the channel follows
that connection. -/
theorem opens (hp : Tries d limit t now k log p h) :
    ∀ a ∈ log, a.state = .open →
      p = .following a.found .open ∧ a.found = h.generation ∧ h.stateOf a.found = .open := by
  induction hp with
  | wait | breakDown | giveUp => exact nofun
  | resume _ hopen => exact List.forall_mem_singleton.2 fun _ => ⟨rfl, rfl, hopen⟩
  | next _ _ hopen _ _ _ ih => exact List.forall_mem_cons.2 ⟨fun h => absurd h hopen, ih⟩

/-- Without any attempt left the channel gives up at once. -/
theorem at_once (hp : Tries d limit t now k log p h) (hk : limit < k) : p = .stalled := by
  cases hp with
  | giveUp => rfl
  | wait hle | breakDown hle | resume hle | next hle => omega

/-- It breaks down only where there is no such moment as the one it would wait for. -/
theorem breaks (hp : Tries d limit t now k log p h) (hbroken : p = .broken) :
    ∃ k' ≤ limit, d.deadline? t (k' + 1) = none := by
  induction hp with
  | wait | giveUp | resume => cases hbroken
  | breakDown hk hnever => exact ⟨_, hk, hnever⟩
  | next _ _ _ _ _ _ ih => exact ih hbroken

end Tries

/-! ## The attempts of a turn -/

theorem Tries.congr (hp : Tries d limit t now k log p h) {h' : Hub} (hq : h.Quiet h') :
    Tries d limit t now k log p h' := by
  induction hp with
  | wait hk hclosed => exact .wait hk hclosed
  | breakDown hk hnever => exact .breakDown hk hnever
  | giveUp hk => exact .giveUp hk
  | resume hk hopen =>
    rw [← hq.generation_eq]
    exact .resume hk (by rw [hq.generation_eq, hq.stateOf_eq]; exact hopen)
  | next hk hclosed hopen hdue hleft _ ih => exact .next hk hclosed hopen hdue hleft (ih hq)

/-- A connection on its way out is what the attempts begin with, at that moment. -/
theorem lookLogged_tries (hs : f.hub.Sound) (hpos : 0 < g) (hle : g ≤ f.hub.generation)
    (ht : (f.hub.stateOf g).isTerminal = true) :
    Tries c.options.reconnectDelay c.limit f.now f.now 1 (c.lookLogged f g).1
      (c.lookLogged f g).2.1.phase (c.lookLogged f g).2.2.hub := by
  obtain ⟨hc, hq, he⟩ := c.detach_eq f
  have hnow := c.now_detach f
  have hoptions : (c.detach f).1.options = c.options := by
    rw [hc]
  unfold lookLogged
  rw [if_pos ht]
  generalize c.detach f = r at hq he hnow hoptions
  obtain ⟨c₁, f₁⟩ := r
  dsimp only at hq he hnow hoptions ⊢
  have hget : (f₁.getConnection false).hub = f₁.hub := by
    rw [Feed.hub_getConnection, Hub.get_false_of_pos (by rw [hq.generation_eq]; omega)]
  have hsound : (f₁.getConnection false).hub.Sound := by
    rw [hget]
    exact he.sound hs
  have hsome : 0 < (f₁.getConnection false).hub.generation := by
    rw [hget, hq.generation_eq]
    omega
  rw [← hnow, ← hoptions, ← limit_congr hoptions]
  exact attemptsLogged_tries (c := { c₁ with sentOn := none, rejectedOn := none })
    (f := (f₁.getConnection false).report _)
    (e := ⟨(f₁.getConnection false).now, (f₁.getConnection false).hub.generation, g⟩)
    _ rfl rfl rfl hsound hsome

/-- A look at any other connection is no attempt. -/
theorem lookLogged_of_not (ht : (f.hub.stateOf g).isTerminal = false) :
    (c.lookLogged f g).1 = [] ∧ ∃ seen, (c.lookLogged f g).2.1.phase = .following g seen := by
  unfold lookLogged
  rw [if_neg (by rw [ht]; nofun)]
  refine ⟨rfl, ?_⟩
  unfold look
  cases hstate : f.hub.stateOf g with
  | connecting =>
    dsimp only
    rw [publish_eq]
    exact ⟨.connecting, rfl⟩
  | «open» => exact ⟨.open, phase_subscribe ..⟩
  | closing | closed =>
    rw [hstate] at ht
    cases ht

/-- What the attempts of a turn are about: the close a channel that is retrying has seen
before, or one that it sees in this turn. -/
inductive About (c : Channel) (f : Feed) : Nat → Nat → Prop where
  /-- It goes on. -/
  | before {k : Nat} {e : Episode} (h : c.phase = .retrying k e) : About c f e.closedAt k
  /-- It begins. -/
  | now {g : Nat} (hl : c.LooksAt f g) (ht : (f.hub.stateOf g).isTerminal = true) :
      About c f f.now 1

/-- What a new channel looks at is the newest connection. -/
theorem About.of_starting (hp : c.phase = .starting) (hab : About c f t k) :
    0 < f.hub.generation ∧ (f.hub.stateOf f.hub.generation).isTerminal = true := by
  cases hab with
  | before h => cases hp.symm.trans h
  | now hl ht =>
    rcases hl with ⟨-, rfl, hpos⟩ | ⟨_, h⟩
    · exact ⟨hpos, ht⟩
    · cases hp.symm.trans h

/-- What a channel looks at is the connection it follows. -/
theorem About.of_following {seen : ReadyState} (hp : c.phase = .following g seen)
    (hab : About c f t k) : (f.hub.stateOf g).isTerminal = true := by
  cases hab with
  | before h => cases hp.symm.trans h
  | now hl ht =>
    rcases hl with ⟨h, -⟩ | ⟨_, h⟩
    · cases hp.symm.trans h
    · cases hp.symm.trans h
      exact ht

/-- What a turn comes to: attempts about one close, or none, and then the channel goes on as
before or follows a connection. -/
def Pursues (c : Channel) (f : Feed) (r : List Attempt × Channel × Feed) : Prop :=
  (∃ t k, About c f t k ∧
    Tries c.options.reconnectDelay c.limit t f.now k r.1 r.2.1.phase r.2.2.hub) ∨
  (¬∃ t k, About c f t k) ∧ r.1 = [] ∧
    (r.2.1.phase = c.phase ∨ ∃ g seen, r.2.1.phase = .following g seen)

/-- Taking in frames comes to nothing. -/
theorem Pursues.handleAll {r : List Attempt × Channel × Feed} (hr : Pursues c f r) :
    Pursues c f (r.1, r.2.1.handleAll r.2.2) := by
  have hq := quiet_handleMany (r.2.1.waiting r.2.2 + 1) r.2.1 r.2.2
  unfold Pursues
  rw [Channel.handleAll, phase_handleMany]
  rcases hr with ⟨t, k, hab, htries⟩ | hnone
  · exact .inl ⟨t, k, hab, htries.congr hq⟩
  · exact .inr hnone

/-- So does a look at a connection that begins attempts if it is on its way out. -/
theorem lookLogged_pursues (hs : f'.hub.Sound) (hpos : 0 < g) (hle : g ≤ f'.hub.generation)
    (hnow : f'.now = f.now) (ho : c'.options = c.options)
    (hbegins : (f'.hub.stateOf g).isTerminal = true → About c f f.now 1)
    (honly : ∀ t k, About c f t k → (f'.hub.stateOf g).isTerminal = true) :
    Pursues c f (c'.lookLogged f' g) := by
  cases ht : (f'.hub.stateOf g).isTerminal with
  | true =>
    refine .inl ⟨_, _, hbegins ht, ?_⟩
    rw [← hnow, ← ho, ← limit_congr ho]
    exact lookLogged_tries hs hpos hle ht
  | false =>
    obtain ⟨hnil, seen, hfollows⟩ := lookLogged_of_not (c := c') ht
    refine .inr ⟨?_, hnil, .inr ⟨g, seen, hfollows⟩⟩
    rintro ⟨t, k, hab⟩
    rw [honly t k hab] at ht
    cases ht

/-- **The attempts of a turn** are about one close, or the turn makes none. -/
theorem turnLogged_pursues {last? : Option Attempt} (hs : f.hub.Sound) (hr : Ready last? c f.hub)
    (hk : ∀ k e, c.phase = .retrying k e → k ≤ c.limit) (hc : c.Hopeful) (first : Precedence) :
    Pursues c f (c.turnLogged f first) := by
  cases hp : c.phase with
  | starting =>
    simp only [turnLogged, hp]
    have hs' : (f.getConnection false).hub.Sound := Hub.Step.sound hs (.get false)
    rcases Nat.eq_zero_or_pos f.hub.generation with hz | hpos
    · -- the first connection of all is on its way
      obtain ⟨hone, hconnecting⟩ := getConnection_of_empty hz
      rw [hone]
      refine lookLogged_pursues hs' Nat.one_pos (Nat.le_of_eq hone.symm) rfl rfl ?_ ?_
      · rw [hconnecting]
        intro ht
        cases ht
      · intro t k hab
        have hpos := (hab.of_starting hp).1
        omega
    · have hget : (f.getConnection false).hub = f.hub := by
        rw [Feed.hub_getConnection, Hub.get_false_of_pos hpos]
      refine lookLogged_pursues hs' ?_ (Nat.le_refl _) rfl rfl ?_ ?_ <;> rw [hget]
      · exact hpos
      · exact .now (.inl ⟨hp, rfl, hpos⟩)
      · exact fun t k hab => (hab.of_starting hp).2
  | following g seen =>
    obtain ⟨hg, hle⟩ := hr.following g seen hp
    simp only [turnLogged, hp]
    split
    · rename_i hsame
      refine Pursues.handleAll (r := ([], c, f)) (.inr ⟨?_, rfl, .inl rfl⟩)
      rintro ⟨t, k, hab⟩
      have ht := hab.of_following hp
      rw [hsame, hc g seen hp] at ht
      cases ht
    · have hq := quiet_handleMany (ahead first) c f
      have hms := handleMany_moves (ahead first) c f
      refine (lookLogged_pursues (hms.evolves.sound hs) hg ?_ hms.now hms.alike.options_eq
        ?_ ?_).handleAll
      · rw [hq.generation_eq]
        exact hle
      · rw [hq.stateOf_eq]
        exact .now (.inr ⟨seen, hp⟩)
      · intro t k hab
        rw [hq.stateOf_eq]
        exact hab.of_following hp
  | retrying k e =>
    have hle := hk k e hp
    simp only [turnLogged, hp]
    exact .inl ⟨_, _, .before hp, attemptsLogged_tries _ rfl rfl
      (by simp only [limit] at hle ⊢; omega) hs (hr.retrying k e hp).1⟩
  | stalled | ended | broken =>
    simp only [turnLogged, hp]
    refine .inr ⟨?_, rfl, .inl rfl⟩
    rintro ⟨t, k, h | ⟨⟨h, -⟩ | ⟨seen, h⟩, -⟩⟩ <;> cases hp.symm.trans h

theorem LooksAt.not_retrying (hl : c.LooksAt f g) : c.phase ≠ .retrying k e := by
  rcases hl with ⟨hp, -⟩ | ⟨seen, hp⟩ <;> rw [hp] <;> nofun

/-- A turn is about one close at most. -/
theorem About.unique {t' k' : Nat} (hab : About c f t k) (hab' : About c f t' k') : t' = t := by
  cases hab with
  | before h =>
    cases hab' with
    | before h' =>
      cases h.symm.trans h'
      rfl
    | now hl => exact absurd h hl.not_retrying
  | now hl =>
    cases hab' with
    | before h' => exact absurd h' hl.not_retrying
    | now => rfl

/-- What the clock shows of a turn. -/
structure OnTime (c : Channel) (f : Feed) (first : Precedence) : Prop where
  /-- All that it does about a close goes by when the channel has seen that close. -/
  about : ∀ t k, About c f t k → (∀ a ∈ (c.turnLogged f first).1, a.closedAt = t) ∧
    ∀ k' e, (c.turn f first).1.phase = .retrying k' e → e.closedAt = t
  /-- An attempt that finds an open connection has found the newest one, and the channel
  follows it. -/
  opens : ∀ a ∈ (c.turnLogged f first).1, a.state = .open →
    (c.turn f first).1.phase = .following a.found .open ∧
      a.found = (c.turn f first).2.hub.generation ∧
      (c.turn f first).2.hub.stateOf a.found = .open
  /-- The channel gives up after its last attempt, no earlier than one more would be due; if
  it is to make none, in the turn that sees the close. -/
  givesUp : c.phase ≠ .stalled → (c.turn f first).1.phase = .stalled → ∃ t k, About c f t k ∧
    (c.limit = 0 ∧ t = f.now ∨
      t + c.options.reconnectDelay.milliseconds.toNat * (c.limit + 1) ≤ f.now ∧
        ∃ a ∈ (c.turnLogged f first).1.getLast?, a.number = c.limit ∧ a.state ≠ .open)
  /-- If it is to make none, it gives up at once. -/
  atOnce : c.limit = 0 → ∀ t k, About c f t k → (c.turn f first).1.phase = .stalled
  /-- It breaks down only where there is no such moment as the one it would wait for. -/
  breaks : c.phase ≠ .broken → (c.turn f first).1.phase = .broken → ∃ t k, About c f t k ∧
    ∃ k' ≤ c.limit, c.options.reconnectDelay.deadline? t (k' + 1) = none

/-- **Every turn keeps to the clock.** -/
theorem turn_onTime {last? : Option Attempt} (hs : f.hub.Sound) (hr : Ready last? c f.hub)
    (hk : ∀ k e, c.phase = .retrying k e → k ≤ c.limit) (hc : c.Hopeful) (first : Precedence) :
    OnTime c f first := by
  have hturn := turnLogged_snd c f first
  rcases turnLogged_pursues hs hr hk hc first with ⟨t, k, hab, htries⟩ | ⟨hnone, hnil, hphase⟩
  · rw [hturn] at htries
    refine ⟨?_, htries.opens, fun _ hstalled => ⟨t, k, hab, ?_⟩, ?_, ?_⟩
    · intro t' k' hab'
      rw [hab.unique hab']
      exact ⟨fun a ha => (htries.timely a ha).1, fun k' e hp => (htries.reaches.1 k' e hp).2.1⟩
    · obtain ⟨k', hlt, ⟨-, rfl⟩ | ⟨a, ha, hopen, hclosed, hnumber⟩⟩ := htries.reaches.2 hstalled
      · -- no attempt was left when it saw the close
        cases hab with
        | before h => exact absurd (hk _ _ h) (Nat.not_le.2 hlt)
        | now => exact .inl ⟨by omega, rfl⟩
      · have htimely := (htries.timely a (List.mem_of_getLast? ha)).2
        have hlast : a.number = c.limit := by
          have hle := htimely.number_le
          omega
        have hdue := htimely.due.resolve_left hopen
        rw [Attempt.due, hclosed, hlast] at hdue
        exact .inr ⟨hdue, a, ha, hlast, hopen⟩
    · intro hzero _ _ _
      have hpos : 0 < k := by
        cases hab with
        | before h => exact (hr.retrying _ _ h).2.pos
        | now => exact Nat.one_pos
      exact htries.at_once (by omega)
    · exact fun _ hbroken => ⟨t, k, hab, htries.breaks hbroken⟩
  · rw [hturn] at hphase
    -- without attempts the channel does not come to stand still
    have hstill {q : Phase} (hq : ∀ g seen, q ≠ .following g seen) (hne : c.phase ≠ q) :
        (c.turn f first).1.phase ≠ q := by
      rintro rfl
      rcases hphase with h | ⟨g, seen, h⟩
      · exact hne h.symm
      · exact hq g seen h
    refine ⟨fun t k hab => absurd ⟨t, k, hab⟩ hnone, ?_, fun hne h => ?_,
      fun _ t k hab => absurd ⟨t, k, hab⟩ hnone, fun hne h => ?_⟩
    · rw [hnil]
      exact nofun
    · exact absurd h (hstill nofun hne)
    · exact absurd h (hstill nofun hne)

/-! ## Logs with dates -/

/-- What is known of the dated attempts of a channel between its turns. -/
structure Paced (log : List (Nat × Attempt)) (c : Channel) : Prop where
  /-- Each has come when it may. -/
  timely : ∀ x ∈ log, x.2.Timely c.options.reconnectDelay c.limit x.1
  /-- Each is the first about a close or comes right after another. -/
  numbered : (log.map (·.2)).IsChain fun p a => a.number = 1 ∨ p.Follows a
  /-- So is the first of all. -/
  first : ∀ a ∈ (log.map (·.2)).head?, a.number = 1
  /-- A channel that is retrying has made the attempts before. -/
  retrying : ∀ k e, c.phase = .retrying k e → k ≤ c.limit ∧
    (k = 1 ∨ ∃ a ∈ (log.map (·.2)).getLast?,
      a.state ≠ .open ∧ a.closedAt = e.closedAt ∧ a.number + 1 = k)

/-- **A turn keeps what is known of the attempts.** -/
theorem Paced.turn {log : List (Nat × Attempt)} {r : List Attempt × Channel × Feed}
    (hl : Paced log c) (hr : Pursues c f r) (ho : r.2.1.options = c.options) :
    Paced (log ++ r.1.map (f.now, ·)) r.2.1 := by
  have hmap : (log ++ r.1.map (f.now, ·)).map (·.2) = log.map (·.2) ++ r.1 := by
    simp [Function.comp_def]
  rcases hr with ⟨t, k, hab, htries⟩ | ⟨-, hnil, hphase⟩
  · obtain ⟨hchain, hhead⟩ := htries.isChain
    have hlink : k = 1 ∨ ∃ a ∈ (log.map (·.2)).getLast?,
        a.state ≠ .open ∧ a.closedAt = t ∧ a.number + 1 = k := by
      cases hab with
      | before h => exact (hl.retrying _ _ h).2
      | now => exact .inl rfl
    refine ⟨?_, ?_, ?_, ?_⟩
    · rw [ho, limit_congr ho]
      refine List.forall_mem_append.2 ⟨hl.timely, List.forall_mem_map.2 fun a ha => ?_⟩
      exact (htries.timely a ha).2
    · rw [hmap]
      refine List.isChain_append.2 ⟨hl.numbered, hchain.imp fun _ _ => .inr, fun p hp a ha => ?_⟩
      rcases hlink with hk | ⟨last, hlast, hopen, hclosed, hnumber⟩
      · exact .inl ((hhead a ha).trans hk)
      · obtain rfl := Option.mem_unique hp hlast
        have hclosed' := (htries.timely a (List.mem_of_mem_head? ha)).1
        exact .inr ⟨⟨hclosed.trans hclosed'.symm, hnumber.trans (hhead a ha).symm⟩, hopen⟩
    · rw [hmap]
      intro a ha
      cases hbefore : log.map (·.2) with
      | nil =>
        rw [hbefore] at ha hlink
        rcases hlink with hk | ⟨last, hlast, -⟩
        · exact (hhead a ha).trans hk
        · cases hlast
      | cons b rest =>
        rw [hbefore] at ha
        refine hl.first a ?_
        rw [hbefore]
        exact ha
    · rw [hmap, limit_congr ho]
      intro k' e hp
      obtain ⟨hle, hclosed, hreaches⟩ := htries.reaches.1 k' e hp
      refine ⟨hle, ?_⟩
      rw [hclosed]
      rcases hreaches with ⟨hnil, rfl⟩ | ⟨last, hlast, hother⟩
      · rw [hnil, List.append_nil]
        exact hlink
      · refine .inr ⟨last, ?_, hother⟩
        rw [List.getLast?_append, Option.mem_def.1 hlast]
        rfl
  · rw [hnil, List.map_nil, List.append_nil]
    refine ⟨?_, hl.numbered, hl.first, ?_⟩
    · rw [ho, limit_congr ho]
      exact hl.timely
    · rw [limit_congr ho]
      intro k e hp
      rcases hphase with h | ⟨g, seen, h⟩
      · exact hl.retrying k e (h ▸ hp)
      · cases h.symm.trans hp

theorem Paced.nil (hp : ∀ k e, c.phase ≠ .retrying k e) : Paced [] c where
  timely := nofun
  numbered := .nil
  first := nofun
  retrying k e h := absurd h (hp k e)

theorem Paced.congr {log : List (Nat × Attempt)} (hl : Paced log c) (ho : c'.options = c.options)
    (hp : c'.phase = c.phase ∨ ¬c'.IsRetrying) : Paced log c' := by
  refine ⟨?_, hl.numbered, hl.first, fun k e hretry => ?_⟩
  · rw [ho, limit_congr ho]
    exact hl.timely
  · rw [limit_congr ho]
    rcases hp with hp | hp
    · exact hl.retrying k e (hp ▸ hretry)
    · exact absurd ⟨k, e, hretry⟩ hp

/-! ## Episodes -/

/-- The attempts of a log, one list for each close: an attempt that is the first of its kind
begins a new one. -/
def episodes (log : List (Nat × Attempt)) : List (List (Nat × Attempt)) :=
  log.splitBy fun _ x => x.2.number != 1

/-- What the attempts about one close have in common, with the moments they ended at. -/
structure OnSchedule (d : Delay) (limit closedAt : Nat) (episode : List (Nat × Attempt)) :
    Prop where
  /-- They are about that close. -/
  closedAt_eq : ∀ x ∈ episode, x.2.closedAt = closedAt
  /-- They are numbered from one on. -/
  numbers_eq : episode.map (·.2.number) = List.range' 1 episode.length
  /-- There are no more of them than the limit. -/
  length_le : episode.length ≤ limit
  /-- Each has found an open connection, or it ends no earlier than it is due. -/
  due : ∀ x ∈ episode, x.2.state = .open ∨
    closedAt + d.milliseconds.toNat * (x.2.number + 1) ≤ x.1
  /-- Only the last one can have found an open connection. -/
  not_open : ∀ x ∈ episode.dropLast, x.2.state ≠ .open
  /-- Each forces one connection at most, none of them earlier than two delays after the
  close. -/
  left : ∀ x ∈ episode, x.2.left = x.2.found ∨
    x.2.left = x.2.found + 1 ∧ closedAt + d.milliseconds.toNat * 2 ≤ x.1
  /-- So they force no more connections than the limit. -/
  made_le : (madeIn (episode.map (·.2))).length ≤ limit

/-- Attempts that come right after one another are numbered in a row, are about one close,
and but for the last find no open connection. -/
theorem isChain_follows {a : Attempt} {rest : List Attempt}
    (hc : (a :: rest).IsChain Attempt.Follows) :
    (a :: rest).map (·.number) = List.range' a.number (rest.length + 1) ∧
      (∀ b ∈ a :: rest, b.closedAt = a.closedAt) ∧
      ∀ b ∈ (a :: rest).dropLast, b.state ≠ .open := by
  induction rest generalizing a with
  | nil => simp
  | cons b rest ih =>
    obtain ⟨hf, hc⟩ := List.isChain_cons_cons.1 hc
    obtain ⟨hnumbers, hclosed, hopen⟩ := ih hc
    refine ⟨?_, List.forall_mem_cons.2 ⟨rfl, fun x hx => ?_⟩, ?_⟩
    · rw [List.map_cons, hnumbers, ← hf.succeeds.number_eq]
      rfl
    · exact (hclosed x hx).trans hf.succeeds.closedAt_eq.symm
    · rw [List.dropLast_cons_cons]
      exact List.forall_mem_cons.2 ⟨hf.not_open, hopen⟩

/-- So if the first is numbered one, the last number is how many they are. -/
theorem isChain_follows_of_head {as : List Attempt} (hc : as.IsChain Attempt.Follows)
    (hfirst : ∀ a ∈ as.head?, a.number = 1) :
    ∃ closedAt, as.map (·.number) = List.range' 1 as.length ∧
      (∀ b ∈ as, b.closedAt = closedAt) ∧ ∀ b ∈ as.dropLast, b.state ≠ .open := by
  cases as with
  | nil => exact ⟨0, rfl, nofun, nofun⟩
  | cons a rest =>
    obtain ⟨hnumbers, hrest⟩ := isChain_follows hc
    rw [hfirst a rfl] at hnumbers
    exact ⟨a.closedAt, hnumbers, hrest⟩

/-- An episode begins with the first attempt about its close. -/
theorem number_of_mem_episodes {log : List (Nat × Attempt)}
    (hfirst : ∀ a ∈ (log.map (·.2)).head?, a.number = 1) :
    ∀ episode ∈ episodes log, ∀ a ∈ (episode.map (·.2)).head?, a.number = 1 := by
  refine (List.isChain_getLast_head_splitBy _ log).induction
    (fun episode => ∀ a ∈ (episode.map (·.2)).head?, a.number = 1) _ ?_ ?_
  · rintro _ episode ⟨-, hne, hnumber⟩ - a ha
    rw [List.head?_map, List.head?_eq_some_head hne] at ha
    cases ha
    simpa using hnumber
  · intro hne a ha
    have hlog := List.splitBy_ne_nil.1 hne
    rw [List.head?_map,
      List.head?_eq_some_head (List.ne_nil_of_mem_splitBy (List.head_mem hne)),
      List.head_head_splitBy _ hlog] at ha
    refine hfirst a ?_
    rw [List.head?_map, List.head?_eq_some_head hlog]
    exact ha

/-- **Every episode is on schedule.** -/
theorem Paced.onSchedule {log : List (Nat × Attempt)} (hl : Paced log c) :
    ∀ episode ∈ episodes log, ∃ closedAt,
      OnSchedule c.options.reconnectDelay c.limit closedAt episode := by
  intro episode hmem
  have hpart : episode <:+: log := by
    rw [← List.flatten_splitBy (fun _ x => x.2.number != 1) log]
    exact List.infix_of_mem_flatten hmem
  have hfollows : (episode.map (·.2)).IsChain Attempt.Follows := by
    have hnumbered := hl.numbered.infix (hpart.map _)
    have hsame := List.isChain_of_mem_splitBy hmem
    rw [List.isChain_map, List.isChain_iff_getElem] at hnumbered ⊢
    rw [List.isChain_iff_getElem] at hsame
    exact fun i hi => (hnumbered i hi).resolve_left (by simpa using hsame i hi)
  obtain ⟨closedAt, hnumbers, hclosed, hopen⟩ :=
    isChain_follows_of_head hfollows (number_of_mem_episodes hl.first episode hmem)
  replace hnumbers : episode.map (·.2.number) = List.range' 1 episode.length := by
    rwa [List.map_map, List.length_map] at hnumbers
  rw [List.forall_mem_map] at hclosed
  rw [← List.map_dropLast, List.forall_mem_map] at hopen
  have htimely := fun x hx => hl.timely x (hpart.subset hx)
  have hdue : ∀ x ∈ episode, x.2.due c.options.reconnectDelay =
      closedAt + c.options.reconnectDelay.milliseconds.toNat * (x.2.number + 1) := by
    intro x hx
    rw [Attempt.due, hclosed x hx]
  have hpos : ∀ x ∈ episode, 1 ≤ x.2.number := by
    intro x hx
    have hmem := List.mem_map_of_mem (f := (·.2.number)) hx
    rw [hnumbers, List.mem_range'_1] at hmem
    exact hmem.1
  have hlength : episode.length ≤ c.limit := by
    rcases Nat.eq_zero_or_pos episode.length with hnil | hsome
    · omega
    · -- the last of them has their number
      have hlast : episode.length ∈ episode.map (·.2.number) := by
        rw [hnumbers, List.mem_range'_1]
        omega
      obtain ⟨x, hx, heq⟩ := List.mem_map.1 hlast
      rw [← heq]
      exact (htimely x hx).number_le
  refine ⟨closedAt, hclosed, hnumbers, hlength, fun x hx => ?_, hopen, fun x hx => ?_, ?_⟩
  · rw [← hdue x hx]
    exact (htimely x hx).due
  · refine (htimely x hx).left.imp_right (And.imp_right fun h => ?_)
    rw [hdue x hx] at h
    have hle := Nat.mul_le_mul_left c.options.reconnectDelay.milliseconds.toNat
      (Nat.add_le_add_right (hpos x hx) 1)
    omega
  · have hmade := List.length_filter_le Attempt.replaces (episode.map (·.2))
    rw [List.length_map] at hmade
    rw [madeIn, List.length_map]
    exact Nat.le_trans hmade hlength

end PushFeed.Channel
