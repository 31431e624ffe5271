import Mathlib.Data.List.Induction
import PushFeed.Session
import PushFeed.Proofs.Channel.Effect
/-!
# Runs of a session

Every event of a session is an evolution of the hub (`step_evolves`), so the hub stays
sound along a run. A channel changes by its own events only: `step_cases_at` says what
an event can have to do with the channel of a given number.
-/

namespace PushFeed

namespace SessionEvent

/-- Whether the event is a turn of the channel. -/
def isTurnOf (i : Nat) : SessionEvent → Bool
  | .turn channel _ => channel == i
  | _ => false

/-- Whether the event is the channel's end. -/
def isTearDownOf (i : Nat) : SessionEvent → Bool
  | .tearDown channel => channel == i
  | _ => false

/-- Whether the channel itself does something. -/
def isOf (i : Nat) (e : SessionEvent) : Bool := e.isTurnOf i || e.isTearDownOf i

theorem isTurnOf_of_isOf {i : Nat} {e : SessionEvent} (h : e.isOf i = false) :
    e.isTurnOf i = false := by
  rw [isOf, Bool.or_eq_false_iff] at h
  exact h.1

@[simp] theorem isOf_turn (i j : Nat) (first : Precedence) :
    (turn j first).isOf i = (j == i) := by
  simp [isOf, isTurnOf, isTearDownOf]

@[simp] theorem isOf_tearDown (i j : Nat) : (tearDown j).isOf i = (j == i) := by
  simp [isOf, isTurnOf, isTearDownOf]

end SessionEvent

namespace Session

variable {s : Session} {e : SessionEvent} {i : Nat} {c c' : Channel}

theorem run_append (s : Session) (events more : List SessionEvent) :
    s.run (events ++ more) = (s.run events).run more :=
  List.foldl_append ..

theorem run_concat (s : Session) (events : List SessionEvent) (e : SessionEvent) :
    s.run (events ++ [e]) = (s.run events).step e :=
  run_append s events [e]

theorem run_cons (s : Session) (e : SessionEvent) (events : List SessionEvent) :
    s.run (e :: events) = (s.step e).run events := rfl

/-- What the events of a run leave behind, put together in their order. -/
def collect {α : Type} (s : Session) (of : Session → SessionEvent → List α) :
    List SessionEvent → List α
  | [] => []
  | e :: rest => of s e ++ (s.step e).collect of rest

theorem collect_append {α : Type} (s : Session) (of : Session → SessionEvent → List α)
    (events more : List SessionEvent) :
    s.collect of (events ++ more) = s.collect of events ++ (s.run events).collect of more := by
  induction events generalizing s with
  | nil => rfl
  | cons e events ih => simp only [List.cons_append, collect, ih, run_cons, List.append_assoc]

theorem collect_concat {α : Type} (s : Session) (of : Session → SessionEvent → List α)
    (events : List SessionEvent) (e : SessionEvent) :
    s.collect of (events ++ [e]) = s.collect of events ++ of (s.run events) e := by
  rw [collect_append]
  simp only [collect, List.append_nil]

/-- What a channel does to itself and the feed. -/
theorem onChannel_eq (hc : s.channels[i]? = some c) (work : Channel → Feed → Channel × Feed) :
    s.onChannel i work =
      { s with feed := (work c s.feed).2, channels := s.channels.set i (work c s.feed).1 } := by
  simp only [onChannel, hc]

/-- Nobody does anything in the name of a channel that is not there. -/
theorem onChannel_of_none (hc : s.channels[i]? = none) (work : Channel → Feed → Channel × Feed) :
    s.onChannel i work = s := by
  simp only [onChannel, hc]

/-- **Every event is an evolution of the hub.** -/
theorem step_evolves (hs : s.feed.hub.Sound) (e : SessionEvent) :
    s.feed.hub.Evolves (s.step e).feed.hub := by
  cases e with
  | openChannel => exact .refl
  | turn channel first =>
    simp only [step]
    cases hc : s.channels[channel]? with
    | none => rw [onChannel_of_none hc]
    | some c =>
      rw [onChannel_eq hc]
      exact (Channel.turn_moves c s.feed first).evolves
  | tearDown channel =>
    simp only [step]
    cases hc : s.channels[channel]? with
    | none => rw [onChannel_of_none hc]
    | some c =>
      rw [onChannel_eq hc]
      cases hl : c.isLive with
      | false => rw [Channel.tearDown_of_not_isLive hl]
      | true => exact (Channel.tearDown_eq hs hl).2.1
  | getConnection force => exact .single (.get force)
  | act g action =>
    simp only [step, Feed.hub_onConnection]
    exact .single (.act g action)
  | elapse => exact .refl

theorem run_evolves (hs : s.feed.hub.Sound) (events : List SessionEvent) :
    s.feed.hub.Evolves (s.run events).feed.hub := by
  induction events generalizing s with
  | nil => exact .refl
  | cons e events ih =>
    have he := step_evolves hs e
    exact he.trans (ih (he.sound hs))

/-- The hub is sound at all times. -/
theorem sound_run (url : String) (options : ChannelOptions) (events : List SessionEvent) :
    ((start url options).run events).feed.hub.Sound :=
  (run_evolves (s := start url options) (Hub.sound_of_empty url) events).sound
    (Hub.sound_of_empty url)

/-! ## What an event has to do with a channel -/

theorem getElem?_onChannel_of_ne {j : Nat} (hne : j ≠ i)
    (work : Channel → Feed → Channel × Feed) :
    (s.onChannel j work).channels[i]? = s.channels[i]? := by
  cases hd : s.channels[j]? with
  | none => rw [onChannel_of_none hd]
  | some d => rw [onChannel_eq hd, List.getElem?_set_ne hne]

/-- What one channel does leaves all others as they are. -/
theorem onChannel_cases {j : Nat} {work : Channel → Feed → Channel × Feed}
    (hc : (s.onChannel j work).channels[i]? = some c') :
    (j = i ∧ ∃ c, s.channels[i]? = some c ∧ (c', (s.onChannel j work).feed) = work c s.feed) ∨
      j ≠ i ∧ s.channels[i]? = some c' := by
  by_cases heq : j = i
  · subst heq
    cases hd : s.channels[j]? with
    | none =>
      rw [onChannel_of_none hd, hd] at hc
      cases hc
    | some d =>
      have hlt := (List.getElem?_eq_some_iff.1 hd).1
      rw [onChannel_eq hd] at hc ⊢
      simp only [List.getElem?_set_self hlt, Option.some.injEq] at hc
      exact .inl ⟨rfl, d, rfl, by rw [← hc]⟩
  · rw [getElem?_onChannel_of_ne heq] at hc
    exact .inr ⟨heq, hc⟩

/-- **What an event has to do with a channel**: it opens the channel, it is a turn of
the channel or its end, or it leaves the channel as it is. -/
theorem step_cases_at (hc : (s.step e).channels[i]? = some c') :
    (∃ topic request options kind, e = .openChannel topic request options kind ∧
        s.channels[i]? = none ∧ c' = (Channel.opened topic request options kind).1 ∧
        (s.step e).feed.hub = s.feed.hub) ∨
      (∃ c first, e = .turn i first ∧ s.channels[i]? = some c ∧
        (c', (s.step e).feed) = c.turn s.feed first) ∨
      (∃ c, e = .tearDown i ∧ s.channels[i]? = some c ∧
        (c', (s.step e).feed) = c.tearDown s.feed) ∨
      e.isOf i = false ∧ s.channels[i]? = some c' := by
  cases e with
  | openChannel topic request options kind =>
    simp only [step, List.getElem?_append] at hc
    split at hc
    · exact .inr (.inr (.inr ⟨rfl, hc⟩))
    · rename_i hlt
      obtain ⟨_, hc⟩ := List.getElem?_eq_some_iff.1 hc
      refine .inl ⟨topic, request, options, kind, rfl, ?_, ?_, rfl⟩
      · exact List.getElem?_eq_none (Nat.le_of_not_lt hlt)
      · simpa using hc.symm
  | turn channel first =>
    rcases onChannel_cases hc with ⟨rfl, c, hd, heq⟩ | ⟨hne, hd⟩
    · exact .inr (.inl ⟨c, first, rfl, hd, heq⟩)
    · exact .inr (.inr (.inr ⟨by simpa using hne, hd⟩))
  | tearDown channel =>
    rcases onChannel_cases hc with ⟨rfl, c, hd, heq⟩ | ⟨hne, hd⟩
    · exact .inr (.inr (.inl ⟨c, rfl, hd, heq⟩))
    · exact .inr (.inr (.inr ⟨by simpa using hne, hd⟩))
  | getConnection | act | elapse => exact .inr (.inr (.inr ⟨rfl, hc⟩))

/-- No channel goes. -/
theorem length_channels_le (s : Session) (e : SessionEvent) :
    s.channels.length ≤ (s.step e).channels.length := by
  cases e with
  | openChannel => simp [step]
  | turn | tearDown =>
    simp only [step, onChannel]
    split <;> simp
  | getConnection | act | elapse => exact Nat.le_refl _

/-- What a channel was opened with is there to stay. -/
theorem exists_alike_step (hs : s.feed.hub.Sound) (hc : s.channels[i]? = some c)
    (e : SessionEvent) : ∃ c', (s.step e).channels[i]? = some c' ∧ Channel.Alike c c' := by
  have hlt : i < s.channels.length := (List.getElem?_eq_some_iff.1 hc).1
  obtain ⟨c', hc'⟩ : ∃ c', (s.step e).channels[i]? = some c' :=
    ⟨_, List.getElem?_eq_getElem (Nat.lt_of_lt_of_le hlt (length_channels_le s e))⟩
  refine ⟨c', hc', ?_⟩
  rcases step_cases_at hc' with ⟨_, _, _, _, _, hnone, _⟩ | ⟨d, first, _, hd, heq⟩ |
    ⟨d, _, hd, heq⟩ | ⟨_, hd⟩
  · rw [hc] at hnone
    cases hnone
  · cases hc.symm.trans hd
    obtain rfl := congrArg Prod.fst heq
    exact (Channel.turn_moves c s.feed first).alike
  · cases hc.symm.trans hd
    obtain rfl := congrArg Prod.fst heq
    cases hl : c.isLive with
    | false =>
      rw [Channel.tearDown_of_not_isLive hl]
      exact .refl c
    | true =>
      rw [(Channel.tearDown_eq hs hl).1]
      exact ⟨rfl, rfl, rfl, rfl⟩
  · cases hc.symm.trans hd
    exact .refl c

theorem exists_alike_run (hs : s.feed.hub.Sound) (hc : s.channels[i]? = some c)
    (events : List SessionEvent) :
    ∃ c', (s.run events).channels[i]? = some c' ∧ Channel.Alike c c' := by
  induction events generalizing s c with
  | nil => exact ⟨c, hc, .refl c⟩
  | cons e events ih =>
    obtain ⟨d, hd, hcd⟩ := exists_alike_step hs hc e
    obtain ⟨c', hc', hdc⟩ := ih ((step_evolves hs e).sound hs) hd
    exact ⟨c', hc', hcd.trans hdc⟩

/-- **What a new channel has, and every move and the end of a channel keep, every channel
has at all times.** -/
theorem channel_run {P : Channel → Prop} {url : String} {options : ChannelOptions}
    {events : List SessionEvent}
    (hopened : ∀ topic request options kind, P (Channel.opened topic request options kind).1)
    (hmove : ∀ {p q : Channel × Feed}, Channel.Move p q → P p.1 → P q.1)
    (hended : ∀ c : Channel, P c → P { c with attached := none, phase := .ended })
    (hc : ((start url options).run events).channels[i]? = some c) : P c := by
  induction events using List.reverseRecOn generalizing c with
  | nil => simp [run, start] at hc
  | append_singleton events e ih =>
    rw [run_concat] at hc
    rcases step_cases_at hc with ⟨topic, request, opts, kind, -, -, rfl, -⟩ |
      ⟨d, first, -, hd, heq⟩ | ⟨d, -, hd, heq⟩ | ⟨-, hd⟩
    · exact hopened topic request opts kind
    · obtain rfl := congrArg Prod.fst heq
      -- a turn is a chain of moves, each of which keeps it
      have hms := Channel.turn_moves d ((start url options).run events).feed first
      exact hms.keep hmove (ih hd)
    · obtain rfl := congrArg Prod.fst heq
      cases hl : d.isLive with
      | false =>
        rw [Channel.tearDown_of_not_isLive hl]
        exact ih hd
      | true =>
        rw [(Channel.tearDown_eq (sound_run url options events) hl).1]
        exact hended d (ih hd)
    · exact ih hd

/-- **What a new channel has, and its turns and its end keep, and all that happens to the
connections, every channel has at all times.** -/
theorem channel_hub_run {P : Channel → Hub → Prop} {url : String} {options : ChannelOptions}
    {events : List SessionEvent}
    (hopened : ∀ topic request options kind h,
      P (Channel.opened topic request options kind).1 h)
    (hturn : ∀ {before : List SessionEvent} {d : Channel} (first : Precedence),
      ((start url options).run before).channels[i]? = some d →
      P d ((start url options).run before).feed.hub →
      P (d.turn ((start url options).run before).feed first).1
        (d.turn ((start url options).run before).feed first).2.hub)
    (hended : ∀ (d : Channel) h, P { d with attached := none, phase := .ended } h)
    (hevolves : ∀ {before : List SessionEvent} {d : Channel} {h : Hub},
      ((start url options).run before).channels[i]? = some d →
      P d ((start url options).run before).feed.hub →
      ((start url options).run before).feed.hub.Evolves h → P d h)
    (hc : ((start url options).run events).channels[i]? = some c) :
    P c ((start url options).run events).feed.hub := by
  induction events using List.reverseRecOn generalizing c with
  | nil => simp [run, start] at hc
  | append_singleton events e ih =>
    have hs := sound_run url options events
    have he := step_evolves hs e
    rw [run_concat] at hc ⊢
    rcases step_cases_at hc with ⟨topic, request, opts, kind, -, -, rfl, -⟩ |
      ⟨d, first, -, hd, heq⟩ | ⟨d, -, hd, heq⟩ | ⟨-, hd⟩
    · exact hopened topic request opts kind _
    · have hnext := hturn first hd (ih hd)
      rwa [← heq] at hnext
    · obtain rfl := congrArg Prod.fst heq
      cases hl : d.isLive with
      | false =>
        rw [Channel.tearDown_of_not_isLive hl]
        exact hevolves hd (ih hd) he
      | true =>
        rw [(Channel.tearDown_eq hs hl).1]
        exact hended d _
    · exact hevolves hd (ih hd) he

/-- A channel that is not there after an event was not there before. -/
theorem none_of_step_none (hc : (s.step e).channels[i]? = none) : s.channels[i]? = none := by
  rw [List.getElem?_eq_none_iff] at hc ⊢
  exact Nat.le_trans (length_channels_le s e) hc

/-- A channel that is not there does nothing. -/
theorem step_of_none (hc : s.channels[i]? = none) (he : e.isOf i = true) : s.step e = s := by
  cases e with
  | turn channel first =>
    obtain rfl : channel = i := by simpa using he
    exact onChannel_of_none hc fun c feed => c.turn feed first
  | tearDown channel =>
    obtain rfl : channel = i := by simpa using he
    exact onChannel_of_none hc Channel.tearDown
  | openChannel | getConnection | act | elapse => cases he

/-- What only a channel leaves behind, nobody has left before it is there. -/
theorem collect_of_none {α : Type} {of : Session → SessionEvent → List α}
    {events : List SessionEvent} (hof : ∀ s e, s.channels[i]? = none → of s e = [])
    (hc : (s.run events).channels[i]? = none) : s.collect of events = [] := by
  induction events using List.reverseRecOn with
  | nil => rfl
  | append_singleton events e ih =>
    rw [run_concat] at hc
    have hc := none_of_step_none hc
    rw [collect_concat, ih hc, hof _ _ hc]
    rfl

end Session

end PushFeed
