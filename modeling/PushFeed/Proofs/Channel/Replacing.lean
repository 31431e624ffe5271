import Mathlib.Data.List.Basic
import PushFeed.Proofs.Channel.Attempts
import PushFeed.Proofs.Channel.Closing
import PushFeed.Proofs.Connection.Succession
/-!
# What an attempt replaces

A turn may make many attempts, so what each of them finds and leaves is put down in a
log beside the turn (`turnLogged`), which is the same turn (`turnLogged_snd`). In the log
of a channel an attempt is the first after a close or the next after the one before it,
and it is `Attempt.Fair`: it replaces no open connection, one on its way only if the
attempt before it left that very connection, and as the first only one that is on its
way out. What carries this from turn to turn is `Prepared`: a channel that is retrying
knows the connection which its last attempt left.
-/

namespace PushFeed

namespace Channel

/-- What an attempt found and left. -/
structure Attempt where
  /-- When the channel saw the close the attempt is about. -/
  closedAt : Nat
  /-- Which of the attempts after that close it is. -/
  number : Nat
  /-- The newest connection when it was made. -/
  found : Nat
  /-- The state of that connection. -/
  state : ReadyState
  /-- The newest connection after it. -/
  left : Nat
  deriving DecidableEq, Repr

namespace Attempt

/-- Whether the attempt put another connection in the place of what it found. -/
def replaces (a : Attempt) : Bool := a.left != a.found

/-- The attempt is the next after another one about the same close. -/
structure Succeeds (a p : Attempt) : Prop where
  closedAt_eq : p.closedAt = a.closedAt
  number_eq : p.number + 1 = a.number

/-- What an attempt may do, given the one before it. -/
structure Fair (last? : Option Attempt) (a : Attempt) : Prop where
  /-- It is the first about a close or the next after the one before. -/
  numbered : a.number = 1 ∨ ∃ p, last? = some p ∧ a.Succeeds p
  /-- What it puts in place of what it found is the next connection. -/
  left_eq : a.replaces = true → a.left = a.found + 1
  /-- It replaces no open connection. -/
  not_open : a.replaces = true → a.state ≠ .open
  /-- As the first it replaces only what is on its way out. -/
  first : a.replaces = true → a.number = 1 → a.state.isTerminal = true
  /-- It replaces a connection on its way only if the attempt before left that one. -/
  connecting : a.replaces = true → a.state = .connecting →
    ∃ p, last? = some p ∧ a.Succeeds p ∧ p.left = a.found

end Attempt

/-! ## Turns with a log -/

/-- The attempts that are due, with what each of them found and left. -/
def attemptsLogged : Nat → Nat → Channel → Feed → Episode → List Attempt × Channel × Feed
  | 0, _, c, f, _ => ([], c.stall f)
  | remaining + 1, k, c, f, e =>
    let c := c.publish (.reconnecting k)
    match c.options.reconnectDelay.deadline? e.closedAt (k + 1) with
    | none => ([], { c with phase := .broken }, f)
    | some deadline =>
      if isDue f deadline e then
        let f := f.getConnection false
        let found := f.hub.generation
        if (f.hub.stateOf found).isOpen then
          ([⟨e.closedAt, k, found, .open, found⟩], c.resume f found)
        else
          let (f', e') := c.attemptOnce f k e
          let (log, after) := attemptsLogged remaining (k + 1) c f' e'
          (⟨e.closedAt, k, found, f.hub.stateOf found, f'.hub.generation⟩ :: log, after)
      else ([], { c with phase := .retrying k e }, f)

/-- A look at a connection, with the attempts it leads to. -/
def lookLogged (c : Channel) (f : Feed) (g : Nat) : List Attempt × Channel × Feed :=
  if (f.hub.stateOf g).isTerminal then
    let (c, f) := c.detach f
    let c := { c with sentOn := none, rejectedOn := none }
    let f := f.getConnection false
    let closed := "Connection #" ++ toString g ++ " closed, reconnecting"
    attemptsLogged c.options.maxAttempts.toNat 1 c (f.report [c.line .info closed])
      ⟨f.now, f.hub.generation, g⟩
  else ([], c.look f g)

/-- A turn, with the attempts it makes. -/
def turnLogged (c : Channel) (f : Feed) (first : Precedence) : List Attempt × Channel × Feed :=
  match c.phase with
  | .starting =>
    let f := f.getConnection false
    c.lookLogged f f.hub.generation
  | .following g seen =>
    if f.hub.stateOf g = seen then ([], c.handleAll f)
    else
      let (c, f) := handleMany (ahead first) c f
      let (log, c, f) := c.lookLogged f g
      (log, c.handleAll f)
  | .retrying k e => attemptsLogged (c.options.maxAttempts.toNat + 1 - k) k c f e
  | .stalled | .ended | .broken => ([], c, f)

variable {c c' : Channel} {f f' : Feed} {g k n : Nat} {e : Episode} {h h' : Hub}

theorem attemptsLogged_snd (n k : Nat) (c : Channel) (f : Feed) (e : Episode) :
    (attemptsLogged n k c f e).2 = attempts n k c f e := by
  induction n generalizing k c f e with
  | zero => rfl
  | succ n ih =>
    simp only [attemptsLogged, attempts]
    generalize c.publish (.reconnecting k) = d
    cases d.options.reconnectDelay.deadline? e.closedAt (k + 1) with
    | none => rfl
    | some deadline =>
      dsimp only
      split
      · split
        · rfl
        · exact ih ..
      · rfl

theorem lookLogged_snd (c : Channel) (f : Feed) (g : Nat) :
    (c.lookLogged f g).2 = c.look f g := by
  unfold lookLogged
  split
  · rename_i ht
    rw [look_of_isTerminal ht, reconnect]
    exact attemptsLogged_snd ..
  · rfl

/-- **The log leaves the turn as it is.** -/
theorem turnLogged_snd (c : Channel) (f : Feed) (first : Precedence) :
    (c.turnLogged f first).2 = c.turn f first := by
  unfold turnLogged
  split <;> rename_i hp
  · simp only [turn, hp]
    exact lookLogged_snd ..
  · split
    · rename_i hsame
      simp only [turn, hp, if_pos hsame]
    · rename_i hne
      rw [turn_of_ne hp hne rfl]
      simp only [← lookLogged_snd]
  · simp only [turn, hp]
    exact attemptsLogged_snd ..
  · simp only [turn, hp]
  · simp only [turn, hp]
  · simp only [turn, hp]

/-! ## Logs -/

variable {log : List Attempt} {a : Attempt}

/-- Every attempt of a log is fair, given the one before it. -/
def Disciplined (log : List Attempt) : Prop :=
  ∀ before a after, log = before ++ a :: after → a.Fair before.getLast?

theorem Disciplined.nil : Disciplined [] := by
  intro before a after h
  exact absurd h (by simp)

/-- A log goes on with an attempt that is fair. -/
theorem Disciplined.concat (hd : Disciplined log) (ha : a.Fair log.getLast?) :
    Disciplined (log ++ [a]) := by
  intro before b after h
  rcases List.eq_nil_or_concat after with rfl | ⟨rest, x, rfl⟩
  · obtain ⟨rfl, hb⟩ := List.append_inj' h rfl
    cases hb
    exact ha
  · rw [List.concat_eq_append, ← List.cons_append, ← List.append_assoc] at h
    obtain ⟨rfl, -⟩ := List.append_inj' h rfl
    exact hd before b rest rfl

/-- The connections that the attempts of a log put in the place of others. -/
def madeIn (log : List Attempt) : List Nat := (log.filter (·.replaces)).map (·.left)

/-- A channel that is retrying knows the connection which its last attempt left. Before
its first attempt that is the one it has seen on its way out. -/
def Prepared (last? : Option Attempt) (k : Nat) (e : Episode) (h : Hub) : Prop :=
  (k = 1 ∧ e.lastChecked ≤ h.generation ∧ (h.stateOf e.lastChecked).isTerminal = true) ∨
    1 < k ∧ ∃ p, last? = some p ∧ p.closedAt = e.closedAt ∧ p.number + 1 = k ∧
      p.left = e.lastChecked

theorem Prepared.evolves {last? : Option Attempt} (hp : Prepared last? k e h) (hs : h.Sound)
    (he : h.Evolves h') : Prepared last? k e h' := by
  rcases hp with ⟨hk, hle, ht⟩ | hlast
  · exact .inl ⟨hk, Nat.le_trans hle he.generation_le, he.isTerminal hs hle ht⟩
  · exact .inr hlast

/-- What is known of a channel between its turns. -/
structure Ready (last? : Option Attempt) (c : Channel) (h : Hub) : Prop where
  following : ∀ g seen, c.phase = .following g seen → 0 < g ∧ g ≤ h.generation
  retrying : ∀ k e, c.phase = .retrying k e → 0 < h.generation ∧ Prepared last? k e h

theorem Ready.evolves {last? : Option Attempt} (hr : Ready last? c h) (hs : h.Sound)
    (he : h.Evolves h') : Ready last? c h' where
  following g seen hp :=
    ⟨(hr.following g seen hp).1, Nat.le_trans (hr.following g seen hp).2 he.generation_le⟩
  retrying k e hp :=
    ⟨Nat.lt_of_lt_of_le (hr.retrying k e hp).1 he.generation_le,
      (hr.retrying k e hp).2.evolves hs he⟩

theorem Ready.congr {last? : Option Attempt} (hr : Ready last? c h)
    (hp : c'.phase = c.phase) : Ready last? c' h where
  following g seen h := hr.following g seen (hp ▸ h)
  retrying k e h := hr.retrying k e (hp ▸ h)

theorem Ready.of_idle {last? : Option Attempt} (hp : c.phase = .starting ∨ c.phase = .ended) :
    Ready last? c h := by
  refine ⟨fun g seen hf => ?_, fun k e hr => ?_⟩
  · rw [hf] at hp
    simp at hp
  · rw [hr] at hp
    simp at hp

theorem Ready.of_following {last? : Option Attempt} {seen : ReadyState}
    (hp : c.phase = .following g seen) (hpos : 0 < g) (hle : g ≤ h.generation) :
    Ready last? c h := by
  refine ⟨fun g' seen' hp' => ?_, fun k e hp' => ?_⟩
  · rw [hp] at hp'
    cases hp'
    exact ⟨hpos, hle⟩
  · rw [hp] at hp'
    cases hp'

/-! ## What attempts replace -/

theorem generation_subscribe (c : Channel) (f : Feed) (g : Nat) :
    (c.subscribe f g).2.hub.generation = f.hub.generation := by
  unfold subscribe
  split
  · rfl
  · split
    · rfl
    · split
      · rfl
      · split
        · rfl
        · rename_i f' hf
          have hq := (send_eq (c := c) hf).1.generation_eq
          exact hq.trans (Hub.generation_modify ..)

/-- An attempt that gives the newest connection time is fair, and so is one that forces
the next. -/
theorem Prepared.fair {last? : Option Attempt} (hp : Prepared last? k e f.hub)
    (hopen : f.hub.stateOf f.hub.generation ≠ .open)
    (hnext : ¬(f.hub.stateOf f.hub.generation = .connecting ∧ e.lastChecked ≠ f.hub.generation))
    {left : Nat} (hleft : left = f.hub.generation + 1) :
    Attempt.Fair last?
      ⟨e.closedAt, k, f.hub.generation, f.hub.stateOf f.hub.generation, left⟩ := by
  -- what is on its way and is replaced all the same, the channel knows already
  have hknown : f.hub.stateOf f.hub.generation = .connecting →
      1 < k ∧ ∃ p, last? = some p ∧ p.closedAt = e.closedAt ∧ p.number + 1 = k ∧
        p.left = f.hub.generation := by
    intro hconnecting
    have hlast : e.lastChecked = f.hub.generation := by
      by_contra hne
      exact hnext ⟨hconnecting, hne⟩
    rcases hp with ⟨-, -, ht⟩ | hlater
    · rw [hlast, hconnecting] at ht
      cases ht
    · rwa [← hlast]
  refine ⟨?_, fun _ => hleft, fun _ => hopen, fun _ hfirst => ?_, fun _ hconnecting => ?_⟩
  · rcases hp with ⟨hk, -⟩ | ⟨-, p, hlast, hclosed, hnumber, -⟩
    · exact .inl hk
    · exact .inr ⟨p, hlast, hclosed, hnumber⟩
  · cases hs : f.hub.stateOf f.hub.generation with
    | connecting =>
      have hk := (hknown hs).1
      have hfirst : k = 1 := hfirst
      omega
    | «open» => exact absurd hs hopen
    | closing | closed => rfl
  · obtain ⟨-, p, hlast, hclosed, hnumber, hfound⟩ := hknown hconnecting
    exact ⟨p, hlast, ⟨hclosed, hnumber⟩, hfound⟩

/-- An attempt that replaces nothing is fair. -/
theorem Prepared.fair_of_left {last? : Option Attempt} (hp : Prepared last? k e h)
    (found : Nat) (s : ReadyState) : Attempt.Fair last? ⟨e.closedAt, k, found, s, found⟩ := by
  have hno : Attempt.replaces ⟨e.closedAt, k, found, s, found⟩ ≠ true := by
    simp [Attempt.replaces]
  refine ⟨?_, fun h => absurd h hno, fun h => absurd h hno, fun h => absurd h hno,
    fun h => absurd h hno⟩
  rcases hp with ⟨hk, -⟩ | ⟨-, p, hlast, hclosed, hnumber, -⟩
  · exact .inl hk
  · exact .inr ⟨p, hlast, hclosed, hnumber⟩

/-- After an attempt the channel knows what that one left. -/
theorem prepared_next {e' : Episode} (hk : 0 < k) (hclosed : e'.closedAt = e.closedAt)
    {found left : Nat} {s : ReadyState} (hleft : left = e'.lastChecked) :
    Prepared (log ++ [Attempt.mk e.closedAt k found s left]).getLast? (k + 1) e' h := by
  exact .inr ⟨by omega, _, List.getLast?_concat .., hclosed.symm, rfl, hleft⟩

theorem Prepared.pos {last? : Option Attempt} (hp : Prepared last? k e h) : 0 < k := by
  rcases hp with ⟨hk, -⟩ | ⟨hk, -⟩ <;> omega

/-- What a stretch of a turn adds to the log of a channel: it stays disciplined, the
connections made are those that replaced others, and the channel is ready for more. -/
structure Extends (log : List Attempt) (h : Hub) (r : List Attempt × Channel × Feed) : Prop where
  disciplined : Disciplined (log ++ r.1)
  le : h.generation ≤ r.2.2.hub.generation
  made : madeIn r.1 = h.madeBetween r.2.2.hub
  ready : Ready (log ++ r.1).getLast? r.2.1 r.2.2.hub

/-- Where no attempt is made. -/
theorem Extends.nil (hd : Disciplined log) (hg : f.hub.generation = h.generation)
    (hr : Ready log.getLast? c f.hub) : Extends log h ([], c, f) where
  disciplined := by rwa [List.append_nil]
  le := Nat.le_of_eq hg.symm
  made := (Hub.madeBetween_of_eq hg).symm
  ready := by rwa [List.append_nil]

/-- Of the hub it begins with only the number of connections counts. -/
theorem Extends.congr {r : List Attempt × Channel × Feed} (hr : Extends log h' r)
    (hg : h'.generation = h.generation) : Extends log h r where
  disciplined := hr.disciplined
  le := hg ▸ hr.le
  made := by rw [hr.made, Hub.madeBetween, Hub.madeBetween, hg]
  ready := hr.ready

/-- Taking in frames comes to nothing. -/
theorem Extends.handleAll {r : List Attempt × Channel × Feed} (hr : Extends log h r)
    (hs : r.2.2.hub.Sound) : Extends log h (r.1, r.2.1.handleAll r.2.2) := by
  have hgen := (quiet_handleMany (r.2.1.waiting r.2.2 + 1) r.2.1 r.2.2).generation_eq
  have he := (handleMany_moves (r.2.1.waiting r.2.2 + 1) r.2.1 r.2.2).evolves
  refine ⟨hr.disciplined, ?_, ?_, ?_⟩
  · exact Nat.le_trans hr.le (Nat.le_of_eq hgen.symm)
  · rw [hr.made]
    unfold Hub.madeBetween
    rw [Channel.handleAll, hgen]
  · exact (hr.ready.evolves hs he).congr (phase_handleMany ..)

/-- One attempt, and then the rest of the stretch. -/
theorem Extends.cons {b : Hub} {r : List Attempt × Channel × Feed} (hr : Extends (log ++ [a]) b r)
    (hmade : madeIn [a] = h.madeBetween b) (hle : h.generation ≤ b.generation) :
    Extends log h (a :: r.1, r.2) := by
  have happend : log ++ a :: r.1 = log ++ [a] ++ r.1 := by simp
  refine ⟨?_, Nat.le_trans hle hr.le, ?_, ?_⟩
  · rw [happend]
    exact hr.disciplined
  · have hsplit : madeIn (a :: r.1) = madeIn [a] ++ madeIn r.1 := by
      unfold madeIn
      rw [← List.map_append, ← List.filter_append, List.singleton_append]
    rw [hsplit, hmade, hr.made]
    exact Hub.madeBetween_trans hle hr.le
  · rw [happend]
    exact hr.ready

/-- An attempt that finds the newest connection open is the last. -/
theorem extends_resume (hpos : 0 < f.hub.generation) (hd : Disciplined log)
    (hp : Prepared log.getLast? k e f.hub) (found : ReadyState) :
    Extends log f.hub ([⟨e.closedAt, k, f.hub.generation, found, f.hub.generation⟩],
      c.resume f f.hub.generation) := by
  have hgen : (c.resume f f.hub.generation).2.hub.generation = f.hub.generation :=
    generation_subscribe ..
  have hfollows : ∀ {last? : Option Attempt},
      Ready last? (c.resume f f.hub.generation).1 (c.resume f f.hub.generation).2.hub :=
    .of_following (phase_subscribe ..) hpos (Nat.le_of_eq hgen.symm)
  refine Extends.cons (b := f.hub) (r := ([], c.resume f f.hub.generation))
    (.nil (hd.concat (hp.fair_of_left _ _)) hgen hfollows) ?_ (Nat.le_refl _)
  rw [Hub.madeBetween_of_eq rfl]
  simp [madeIn, Attempt.replaces]

/-- **One attempt that finds the newest connection not open is fair**, whether it gives
that one time or forces the next, and the channel is prepared for another. -/
theorem attemptOnce_extends (c : Channel) (hs : f.hub.Sound) (hd : Disciplined log)
    (hp : Prepared log.getLast? k e f.hub) (hopen : f.hub.stateOf f.hub.generation ≠ .open) :
    ∃ a : Attempt, a = ⟨e.closedAt, k, f.hub.generation, f.hub.stateOf f.hub.generation,
        (c.attemptOnce f k e).1.hub.generation⟩ ∧
      (c.attemptOnce f k e).1.hub.Sound ∧
      f.hub.generation ≤ (c.attemptOnce f k e).1.hub.generation ∧ Disciplined (log ++ [a]) ∧
      Prepared (log ++ [a]).getLast? (k + 1) (c.attemptOnce f k e).2
        (c.attemptOnce f k e).1.hub ∧
      madeIn [a] = f.hub.madeBetween (c.attemptOnce f k e).1.hub := by
  refine ⟨_, rfl, ?_⟩
  by_cases hnext : f.hub.stateOf f.hub.generation = .connecting ∧ e.lastChecked ≠ f.hub.generation
  · -- it gives the newest connection time
    obtain ⟨hhub, -, hep⟩ := c.attemptOnce_of_connecting k hnext
    rw [hhub]
    refine ⟨hs, Nat.le_refl _, hd.concat (hp.fair_of_left _ _), prepared_next hp.pos ?_ ?_, ?_⟩
    · rw [hep]
    · rw [hep]
    · rw [Hub.madeBetween_of_eq rfl]
      simp [madeIn, Attempt.replaces]
  · -- it forces the next
    obtain ⟨hhub, -, hep⟩ := c.attemptOnce_of_not k hnext
    have hgen : (c.attemptOnce f k e).1.hub.generation = f.hub.generation + 1 := by
      rw [hhub, Hub.generation_get_true]
    refine ⟨?_, by omega, hd.concat (hp.fair hopen hnext hgen), prepared_next hp.pos ?_ ?_, ?_⟩
    · rw [hhub]
      exact Hub.Step.sound hs (.get true)
    · rw [hep]
    · rw [hep, hgen]
    · simp [madeIn, Attempt.replaces, Hub.madeBetween, hgen]

/-- **All attempts that are due are fair.** -/
theorem attemptsLogged_extends (n : Nat) (hs : f.hub.Sound) (hpos : 0 < f.hub.generation)
    (hd : Disciplined log) (hp : Prepared log.getLast? k e f.hub) :
    Extends log f.hub (attemptsLogged n k c f e) := by
  induction n generalizing k c f e log with
  | zero => exact .nil hd rfl ⟨nofun, nofun⟩
  | succ n ih =>
    have hkept : Extends log f.hub
        ([], { c.publish (.reconnecting k) with phase := .retrying k e }, f) := by
      refine .nil hd rfl ⟨nofun, fun k' e' hp' => ?_⟩
      cases hp'
      exact ⟨hpos, hp⟩
    simp only [attemptsLogged]
    generalize c.publish (.reconnecting k) = d at hkept
    split
    · exact .nil hd rfl ⟨nofun, nofun⟩
    · split
      · have hget : (f.getConnection false).hub = f.hub := by
          rw [Feed.hub_getConnection, Hub.get_false_of_pos hpos]
        generalize f.getConnection false = f₁ at hget
        rw [← hget] at hs hpos hp ⊢
        split
        · exact extends_resume hpos hd hp _
        · rename_i hopen
          have hopen : f₁.hub.stateOf f₁.hub.generation ≠ .open :=
            fun h => hopen ((ReadyState.isOpen_iff _).2 h)
          obtain ⟨a, ha, hs', hle, hd', hp', hmade⟩ := d.attemptOnce_extends hs hd hp hopen
          rw [← ha]
          exact (ih hs' (Nat.lt_of_lt_of_le hpos hle) hd' hp').cons hmade hle
      · exact hkept

/-- **A look at a connection leads to fair attempts only.** -/
theorem lookLogged_extends (hs : f.hub.Sound) (hpos : 0 < g) (hle : g ≤ f.hub.generation)
    (hd : Disciplined log) : Extends log f.hub (c.lookLogged f g) := by
  unfold lookLogged
  split
  · rename_i ht
    obtain ⟨-, hq, he⟩ := c.detach_eq f
    have hsame : ((c.detach f).2.getConnection false).hub = (c.detach f).2.hub := by
      have hdetached : 0 < (c.detach f).2.hub.generation := by
        rw [hq.generation_eq]
        omega
      rw [Feed.hub_getConnection, Hub.get_false_of_pos hdetached]
    have hs' := he.sound hs
    have hgen := hq.generation_eq
    have hlost := hq.stateOf_eq g
    rw [← hsame] at hs' hgen hlost
    rw [← hlost] at ht
    rw [← hgen] at hle
    refine Extends.congr ?_ hgen
    have hpos' : 0 < ((c.detach f).2.getConnection false).hub.generation := by omega
    -- the log line about the close is all that comes between
    dsimp only
    generalize (c.detach f).2.getConnection false = f₁ at hs' hle ht hpos' ⊢
    exact attemptsLogged_extends (f := f₁.report _) (e := ⟨f₁.now, f₁.hub.generation, g⟩) _
      hs' hpos' hd (.inl ⟨rfl, hle, ht⟩)
  · rename_i ht
    unfold look
    cases hstate : f.hub.stateOf g with
    | connecting =>
      dsimp only
      rw [publish_eq]
      exact .nil hd rfl (.of_following rfl hpos hle)
    | «open» =>
      have hgen := generation_subscribe { c with phase := .following g .open } f g
      exact .nil hd hgen (.of_following (phase_subscribe ..) hpos (hgen ▸ hle))
    | closing | closed =>
      rw [hstate] at ht
      exact absurd rfl ht

/-- **All attempts of a turn are fair**, and the connections a turn makes are those that
its attempts put in the place of others. -/
theorem turnLogged_extends (hs : f.hub.Sound) (hd : Disciplined log)
    (hr : Ready log.getLast? c f.hub) (first : Precedence) :
    Disciplined (log ++ (c.turnLogged f first).1) ∧
      madeIn (c.turnLogged f first).1 =
        madeSince f.hub.generation (c.turnLogged f first).2.2.hub ∧
      Ready (log ++ (c.turnLogged f first).1).getLast? (c.turnLogged f first).2.1
        (c.turnLogged f first).2.2.hub := by
  -- where there is a connection, what is made since is what is made between
  have hmade : 0 < f.hub.generation → Extends log f.hub (c.turnLogged f first) →
      Disciplined (log ++ (c.turnLogged f first).1) ∧
        madeIn (c.turnLogged f first).1 =
          madeSince f.hub.generation (c.turnLogged f first).2.2.hub ∧
        Ready (log ++ (c.turnLogged f first).1).getLast? (c.turnLogged f first).2.1
          (c.turnLogged f first).2.2.hub := by
    intro hpos hextends
    refine ⟨hextends.disciplined, ?_, hextends.ready⟩
    rw [hextends.made, madeSince, if_neg (by omega), Hub.madeBetween]
  cases hp : c.phase with
  | starting =>
    rcases Nat.eq_zero_or_pos f.hub.generation with hz | hpos
    · -- the first connection of all is on its way, so there is nothing to attempt
      obtain ⟨hone, hconnecting⟩ := getConnection_of_empty hz
      have hlog : c.turnLogged f first = ([], c.turn f first) := by
        refine Prod.ext ?_ (turnLogged_snd ..)
        simp only [turnLogged, hp, lookLogged, hone, hconnecting]
        rfl
      obtain ⟨hfollow, hgen⟩ := turn_of_empty hp hz first
      rw [hlog, List.append_nil, hz]
      exact ⟨hd, rfl, .of_following hfollow Nat.one_pos (Nat.le_of_eq hgen.symm)⟩
    · refine hmade hpos ?_
      have hget : (f.getConnection false).hub = f.hub := by
        rw [Feed.hub_getConnection, Hub.get_false_of_pos hpos]
      simp only [turnLogged, hp]
      rw [← hget] at hs hpos ⊢
      exact lookLogged_extends hs hpos (Nat.le_refl _) hd
  | following g seen =>
    obtain ⟨hg, hle⟩ := hr.following g seen hp
    refine hmade (by omega) ?_
    simp only [turnLogged, hp]
    split
    · exact (Extends.nil hd rfl hr).handleAll hs
    · have hq := quiet_handleMany (ahead first) c f
      have hs' := (handleMany_moves (ahead first) c f).evolves.sound hs
      have hphase := (phase_handleMany (ahead first) c f).trans hp
      generalize handleMany (ahead first) c f = q at hq hs' hphase
      rw [← hq.generation_eq] at hle
      refine ((lookLogged_extends hs' hg hle hd).congr hq.generation_eq).handleAll ?_
      rw [lookLogged_snd]
      exact (look_moves (.inr ⟨seen, hphase⟩)).evolves.sound hs'
  | retrying k e =>
    obtain ⟨hpos, hprepared⟩ := hr.retrying k e hp
    refine hmade hpos ?_
    simp only [turnLogged, hp]
    exact attemptsLogged_extends _ hs hpos hd hprepared
  | stalled | ended | broken =>
    simp only [turnLogged, hp, List.append_nil]
    refine ⟨hd, ?_, hr⟩
    simp [madeIn, madeSince]

end Channel

end PushFeed
