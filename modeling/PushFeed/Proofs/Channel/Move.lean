import Mathlib.Logic.Relation
import PushFeed.Channel.Turn
import PushFeed.Proofs.Connection.Evolution
/-!
# What a turn is made of

A turn runs until the channel waits, so it may do a great deal at once. `Channel.Move`
lists the single things a channel does on the way, each with the condition under which
it does it, and `turn_moves` says that a turn is a chain of them. What every move
keeps, a turn keeps.

While a channel makes its attempts the phase on the way is that of the attempt it is
about to make; the attempts themselves do not look at the phase (`attempts_phase`).
-/

namespace PushFeed

namespace Channel

/-- Whether the channel is about to look at a connection: at the newest one if it has
had no turn yet, otherwise at the one it follows. -/
def LooksAt (c : Channel) (f : Feed) (g : Nat) : Prop :=
  (c.phase = .starting ∧ f.hub.generation = g ∧ 0 < g) ∨ ∃ seen, c.phase = .following g seen

/-- Whether the channel makes attempts to reconnect. -/
def IsRetrying (c : Channel) : Prop := ∃ k e, c.phase = .retrying k e

/-- The most attempts the channel makes. -/
def limit (c : Channel) : Nat := c.options.maxAttempts.toNat

theorem limit_congr {c c' : Channel} (h : c'.options = c.options) : c'.limit = c.limit := by
  rw [limit, limit, h]

/-- Whether an attempt of the channel is due. -/
def Due (c : Channel) (f : Feed) (k : Nat) (e : Episode) : Prop :=
  ∃ deadline, c.options.reconnectDelay.deadline? e.closedAt (k + 1) = some deadline ∧
    isDue f deadline e = true

/-- The channel with its request gone out on a connection. -/
def requested (c : Channel) (g : Nat) : Channel :=
  { c with sentOn := some g, subscribes := c.subscribes + 1 }

/-- The feed once a listener has been asked for its next frame. -/
def received (f : Feed) (a : Attachment) (connection : Connection) : Feed :=
  { f with hub := f.hub.modify a.generation fun _ => (connection.receive a.listener).2 }

/-- One thing a channel does in a turn. -/
inductive Move : Channel × Feed → Channel × Feed → Prop
  /-- It writes to the log. -/
  | report {c f} (lines : List LogLine) : Move (c, f) (c, f.report lines)
  /-- It asks for a connection, content with the one there is. -/
  | ask {c f} (hp : c.phase = .starting ∨ c.IsRetrying) : Move (c, f) (c, f.getConnection false)
  /-- It finds its connection on the way. -/
  | await {c f g} (hp : c.LooksAt f g) (hs : f.hub.stateOf g = .connecting) :
      Move (c, f) ({ c with phase := .following g .connecting }.publish .awaitingOpen, f)
  /-- It finds its connection open. -/
  | notice {c f g} (hp : c.LooksAt f g) (hs : f.hub.stateOf g = .open) :
      Move (c, f) ({ c with phase := .following g .open }, f)
  /-- It has asked on this connection already. -/
  | again {c f g} (hp : c.phase = .following g .open) (hsent : c.sentOn = some g) :
      Move (c, f) (c.publish .subscribed, f)
  /-- It finds its request invalid. -/
  | reject {c f g error} (hp : c.phase = .following g .open) (hsent : c.sentOn ≠ some g)
      (ht : c.request.text? = .error error) : Move (c, f) ({ c with rejectedOn := some g }, f)
  /-- It sends its request and attaches a listener. -/
  | send {c f f' g text} (hp : c.phase = .following g .open) (hsent : c.sentOn ≠ some g)
      (ht : c.request.text? = .ok text) (hf : f.sendText g text = .ok f') :
      Move (c, f)
        (((c.requested g).attach f' g).1.publish .subscribed, ((c.requested g).attach f' g).2)
  /-- It lets a closed connection go. -/
  | lose {c f g} (hp : c.LooksAt f g) (hs : (f.hub.stateOf g).isTerminal = true) :
      Move (c, f)
        ({ (c.detach f).1 with
            sentOn := none
            rejectedOn := none
            phase := .retrying 1
              ⟨f.now, ((c.detach f).2.getConnection false).hub.generation, g⟩ },
          (c.detach f).2.getConnection false)
  /-- It publishes which attempt it is about to make. -/
  | announce {c f k e} (hp : c.phase = .retrying k e) (hk : k ≤ c.limit) :
      Move (c, f) (c.publish (.reconnecting k), f)
  /-- Its attempt has no deadline. -/
  | breakDown {c f k e} (hp : c.phase = .retrying k e)
      (hd : c.options.reconnectDelay.deadline? e.closedAt (k + 1) = none) :
      Move (c, f) ({ c with phase := .broken }, f)
  /-- Its attempt finds the newest connection open. -/
  | resume {c f k e} (hp : c.phase = .retrying k e) (hk : k ≤ c.limit) (hd : c.Due f k e)
      (hs : f.hub.stateOf f.hub.generation = .open) :
      Move (c, f) ({ c with phase := .following f.hub.generation .open }, f)
  /-- Its attempt gives the newest connection, made by somebody else, time to open. -/
  | giveTime {c f k e} (hp : c.phase = .retrying k e) (hk : k ≤ c.limit) (hd : c.Due f k e)
      (hs : f.hub.stateOf f.hub.generation = .connecting) (hl : e.lastChecked ≠ f.hub.generation) :
      Move (c, f)
        ({ c with phase := .retrying (k + 1) { e with
            tracked := f.hub.generation
            lastChecked := f.hub.generation } }, f)
  /-- Its attempt forces a new connection. -/
  | force {c f k e} (hp : c.phase = .retrying k e) (hk : k ≤ c.limit) (hd : c.Due f k e)
      (hs : f.hub.stateOf f.hub.generation ≠ .open)
      (hl : f.hub.stateOf f.hub.generation = .connecting → e.lastChecked = f.hub.generation) :
      Move (c, f)
        ({ c with phase := .retrying (k + 1) { e with
            tracked := (f.getConnection true).hub.generation
            lastChecked := (f.getConnection true).hub.generation } }, f.getConnection true)
  /-- It has made all its attempts and gives up. -/
  | stall {c f k e} (hp : c.phase = .retrying k e) (hk : c.limit < k) : Move (c, f) (c.stall f)
  /-- It looks into its mailbox and finds nothing. -/
  | wait {c f a connection} (ha : c.attached = some a) (hc : f.hub.find? a.generation = some connection)
      (hr : (connection.receive a.listener).1 = .pending) : Move (c, f) (c, received f a connection)
  /-- It finds that its listener has been taken off and lets it go. -/
  | letGo {c f a connection} (ha : c.attached = some a) (hc : f.hub.find? a.generation = some connection)
      (hr : (connection.receive a.listener).1 = .ready none) :
      Move (c, f) ({ c with attached := none }, received f a connection)
  /-- It takes a frame from its mailbox. -/
  | take {c f a connection frame} (ha : c.attached = some a)
      (hc : f.hub.find? a.generation = some connection)
      (hr : (connection.receive a.listener).1 = .ready (some frame)) :
      Move (c, f) (c.handleFrame (received f a connection) frame)

/-- Any number of moves. -/
abbrev Moves : Channel × Feed → Channel × Feed → Prop := Relation.ReflTransGen Move

/-! ## What does not look at the phase -/

/-- Publishing changes the published states only. -/
theorem publish_eq (c : Channel) (s : ChannelState) :
    c.publish s = { c with states := if c.state = s then c.states else s :: c.states } := by
  unfold publish
  split <;> rfl

variable {c : Channel} {f f' : Feed} {g k : Nat} {e : Episode}

theorem publish_phase (c : Channel) (p : Phase) (s : ChannelState) :
    { c with phase := p }.publish s = { c.publish s with phase := p } := by
  rw [publish_eq, publish_eq]
  rfl

/-- The attempts look at all of the channel but its phase. -/
theorem attempts_phase (n k : Nat) (c : Channel) (f : Feed) (e : Episode) (p : Phase) :
    attempts n k { c with phase := p } f e = attempts n k c f e := by
  induction n generalizing k c f e with
  | zero => simp only [attempts, stall, publish_phase]; rfl
  | succ n ih =>
    simp only [attempts, publish_phase, ih]
    rfl

/-! ## Turns as chains of moves -/

/-- Nothing that is due stops being so because somebody asked for a connection. -/
theorem Due.getConnection (hd : c.Due f k e) : c.Due (f.getConnection false) k e := by
  obtain ⟨deadline, hdeadline, hdue⟩ := hd
  refine ⟨deadline, hdeadline, ?_⟩
  rcases Nat.eq_zero_or_pos f.hub.generation with hz | hpos
  · have hclosed : f.hub.stateOf e.tracked = .closed := by
      have hnil : f.hub.connections = [] := List.length_eq_zero_iff.1 hz
      cases ht : e.tracked <;> simp [Hub.stateOf, Hub.find?, hnil]
    simp only [isDue, hclosed, ReadyState.isOpen, Bool.or_false] at hdue
    simp only [isDue, show (f.getConnection false).now = f.now from rfl, hdue, Bool.true_or]
  · have hne : f.hub.connections ≠ [] := List.ne_nil_of_length_pos hpos
    simpa [isDue, Feed.getConnection, Feed.report, Hub.get, hne] using hdue

theorem subscribe_moves (hp : c.phase = .following g .open) : Moves (c, f) (c.subscribe f g) := by
  unfold subscribe
  split
  · rename_i hsent
    exact .single (.again hp hsent)
  · rename_i hsent
    split
    · exact .refl
    · split
      · rename_i error ht
        exact (Relation.ReflTransGen.single (.reject hp hsent ht)).tail (.report _)
      · rename_i text ht
        split
        · exact .single (.report _)
        · rename_i f' hf
          exact (Relation.ReflTransGen.single (.send hp hsent ht hf)).tail (.report _)

/-- Making the attempts that are due, from one of them on, is a chain of moves. -/
theorem attempts_moves (n : Nat) (hp : c.phase = .retrying k e) (hn : n = c.limit + 1 - k) :
    Moves (c, f) (attempts n k c f e) := by
  induction n generalizing k c f e with
  | zero => exact .single (.stall hp (by omega))
  | succ n ih =>
    have hk : k ≤ c.limit := by omega
    refine .head (.announce hp hk) ?_
    rw [attempts]
    generalize hc : c.publish (.reconnecting k) = c'
    have hp' : c'.phase = .retrying k e := by rw [← hc, publish_eq, ← hp]
    have hlim : c'.limit = c.limit := by rw [← hc, publish_eq]; rfl
    rw [← hlim] at hk hn
    dsimp only
    split
    · rename_i hd
      exact .single (.breakDown hp' hd)
    · rename_i deadline hd
      split
      · rename_i hdue
        have hdue' : c'.Due (f.getConnection false) k e :=
          Due.getConnection ⟨deadline, hd, hdue⟩
        refine .head (.ask (.inr ⟨k, e, hp'⟩)) ?_
        generalize f.getConnection false = f at hdue'
        split
        · rename_i hopen
          have hopen := (ReadyState.isOpen_iff _).1 hopen
          unfold resume
          exact .head (.resume hp' hk hdue' hopen) (.head (.report _) (subscribe_moves rfl))
        · rename_i hopen
          have hn' (p : Phase) : n = limit { c' with phase := p } + 1 - (k + 1) := by
            simp only [limit] at hn ⊢
            omega
          simp only [attemptOnce]
          split
          · rename_i hs
            rw [← attempts_phase n (k + 1) c' _ _ (.retrying (k + 1) _)]
            exact .head (.giveTime hp' hk hdue' hs.1 hs.2) (.head (.report _) (ih rfl (hn' _)))
          · rename_i hs
            have hl (h : f.hub.stateOf f.hub.generation = .connecting) :
                e.lastChecked = f.hub.generation := Decidable.byContradiction fun hl => hs ⟨h, hl⟩
            have hopen := fun h => hopen ((ReadyState.isOpen_iff _).2 h)
            rw [← attempts_phase n (k + 1) c' _ _ (.retrying (k + 1) _)]
            exact .head (.report _) (.head (.force hp' hk hdue' hopen hl) (ih rfl (hn' _)))
      · have : { c' with phase := .retrying k e } = c' := by rw [← hp']
        rw [this]

theorem lose_moves (hp : c.LooksAt f g) (hs : (f.hub.stateOf g).isTerminal = true) :
    Moves (c, f) (c.reconnect f g) := by
  have hnow : ((c.detach f).2.getConnection false).now = f.now := by
    simp only [detach, Feed.getConnection, Feed.report, Feed.onConnection]
    split
    · rfl
    · split <;> rfl
  have hlim : (c.detach f).1.options = c.options := by
    unfold detach
    split <;> rfl
  -- the attempts do not look at the phase, so it may be set before they begin
  refine .head (.lose hp hs) ?_
  simp only [reconnect]
  rw [hnow]
  generalize Episode.mk f.now _ g = e
  rw [← attempts_phase _ 1 _ _ _ (.retrying 1 e)]
  exact .head (.report _) (attempts_moves _ rfl (by simp only [limit, hlim]; rfl))

theorem look_moves (hp : c.LooksAt f g) : Moves (c, f) (c.look f g) := by
  simp only [look]
  split <;> rename_i hs
  · rw [hs]
    exact .single (.await hp hs)
  · rw [hs]
    exact .head (.notice hp hs) (subscribe_moves rfl)
  · exact lose_moves hp (by rw [hs]; rfl)
  · exact lose_moves hp (by rw [hs]; rfl)

@[simp] theorem phase_handleFrame (c : Channel) (f : Feed) (frame : Wire.Bytes) :
    (c.handleFrame f frame).1.phase = c.phase := by
  unfold handleFrame
  split
  · rfl
  · split <;> rfl

@[simp] theorem phase_handleNext (c : Channel) (f : Feed) : (c.handleNext f).1.phase = c.phase := by
  simp only [handleNext]
  split
  · rfl
  · split
    · rfl
    · split
      · rfl
      · rfl
      · exact phase_handleFrame ..

@[simp] theorem phase_handleMany (n : Nat) (c : Channel) (f : Feed) :
    (handleMany n c f).1.phase = c.phase := by
  induction n generalizing c f with
  | zero => rfl
  | succ n ih => exact (ih _ _).trans (phase_handleNext c f)

theorem handleNext_moves (c : Channel) (f : Feed) : Moves (c, f) (c.handleNext f) := by
  simp only [handleNext]
  split
  · exact .refl
  · rename_i a ha
    split
    · exact .refl
    · rename_i connection hc
      split <;> rename_i hr
      · exact .single (.wait ha hc hr)
      · exact .single (.letGo ha hc hr)
      · exact .single (.take ha hc hr)

theorem handleMany_moves (n : Nat) (c : Channel) (f : Feed) : Moves (c, f) (handleMany n c f) := by
  induction n generalizing c f with
  | zero => exact .refl
  | succ n ih => exact (handleNext_moves c f).trans (ih _ _)

/-- **A turn is a chain of moves.** -/
theorem turn_moves (c : Channel) (f : Feed) (first : Precedence) :
    Moves (c, f) (c.turn f first) := by
  simp only [turn]
  split
  · rename_i hp
    refine .head (.ask (.inl hp)) (look_moves (.inl ⟨hp, rfl, ?_⟩))
    rw [show (f.getConnection false).hub = (f.hub.get false).1 from rfl, Hub.generation_get_false]
    omega
  · rename_i g seen hp
    split
    · exact handleMany_moves _ c f
    · split
      · refine (handleNext_moves c f).trans ((look_moves ?_).trans (handleMany_moves ..))
        exact .inr ⟨seen, (phase_handleNext c f).trans hp⟩
      · exact (look_moves (.inr ⟨seen, hp⟩)).trans (handleMany_moves ..)
  · rename_i k e hp
    exact attempts_moves _ hp rfl
  · exact .refl
  · exact .refl
  · exact .refl

end Channel

end PushFeed
