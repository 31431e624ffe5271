import PushFeed.Proofs.Channel.Replacing
import PushFeed.Proofs.Session.Stalls
/-!
# What a session's channels replace

The attempts of a channel over a whole run make one log, turn after turn
(`attemptsBy`). However the attempts of other channels, requests from outside and late
openings come in between, the log is disciplined, and all that the channel forces is in
it (`replaces_fairly`).
-/

namespace PushFeed

namespace Session

variable {s : Session} {e : SessionEvent} {i : Nat} {c : Channel} {url : String}
  {options : ChannelOptions} {events : List SessionEvent}

/-- The attempts that a channel makes in an event. -/
def attemptsIn (s : Session) (i : Nat) (e : SessionEvent) : List Channel.Attempt :=
  match e, s.channels[i]? with
  | .turn j first, some c => if j = i then (c.turnLogged s.feed first).1 else []
  | _, _ => []

/-- The attempts that a channel makes in a run. -/
def attemptsBy (s : Session) (i : Nat) (events : List SessionEvent) : List Channel.Attempt :=
  s.collect (fun s e => s.attemptsIn i e) events

theorem attemptsIn_turn (hc : s.channels[i]? = some c) (first : Precedence) :
    s.attemptsIn i (.turn i first) = (c.turnLogged s.feed first).1 := by
  simp only [attemptsIn, hc, if_true]

theorem attemptsIn_of_not (he : e.isTurnOf i = false) : s.attemptsIn i e = [] := by
  unfold attemptsIn
  split
  · rename_i j first _ _
    have hne : j ≠ i := by simpa [SessionEvent.isTurnOf] using he
    rw [if_neg hne]
  · rfl

theorem attemptsBy_concat (s : Session) (i : Nat) (events : List SessionEvent)
    (e : SessionEvent) :
    s.attemptsBy i (events ++ [e]) = s.attemptsBy i events ++ (s.run events).attemptsIn i e :=
  s.collect_concat _ events e

theorem attemptsBy_of_none (hc : ((start url options).run events).channels[i]? = none) :
    (start url options).attemptsBy i events = [] := by
  refine collect_of_none (fun s e hs => ?_) hc
  unfold attemptsIn
  split
  · rename_i hsome
    rw [hs] at hsome
    cases hsome
  · rfl

/-- **The log of a channel is disciplined at all times**, and holds all the channel has
forced. -/
theorem disciplined_run (hc : ((start url options).run events).channels[i]? = some c) :
    Channel.Disciplined ((start url options).attemptsBy i events) ∧
      Channel.madeIn ((start url options).attemptsBy i events) =
        (start url options).forcedBy i events ∧
      Channel.Ready ((start url options).attemptsBy i events).getLast? c
        ((start url options).run events).feed.hub := by
  induction events using List.reverseRecOn generalizing c with
  | nil => simp [run, start] at hc
  | append_singleton events e ih =>
    have hs := sound_run url options events
    have he := step_evolves hs e
    rw [run_concat] at hc
    rw [attemptsBy_concat, forcedBy_concat, run_concat]
    rcases step_cases_at hc with ⟨topic, request, opts, kind, rfl, hnone, rfl, hhub⟩ |
      ⟨d, first, rfl, hd, heq⟩ | ⟨d, rfl, hd, heq⟩ | ⟨hno, hd⟩
    · rw [attemptsBy_of_none hnone, forcedBy_of_none hnone]
      exact ⟨.nil, rfl, .of_idle (Channel.phase_opened topic request opts kind)⟩
    · have hfeed := congrArg Prod.snd heq
      obtain rfl := congrArg Prod.fst heq
      obtain ⟨hdisciplined, hmade, hready⟩ := ih hd
      have hturn := Channel.turnLogged_extends hs hdisciplined hready first
      rw [Channel.turnLogged_snd] at hturn
      obtain ⟨hdisciplined', hmade', hready'⟩ := hturn
      dsimp only at hfeed
      rw [attemptsIn_turn hd, if_pos (by simp [SessionEvent.isTurnOf]), hfeed]
      refine ⟨hdisciplined', ?_, hready'⟩
      rw [← hmade, ← hmade']
      unfold Channel.madeIn
      rw [List.filter_append, List.map_append]
    · -- the end of a channel is no attempt
      obtain rfl := congrArg Prod.fst heq
      obtain ⟨hdisciplined, hmade, hready⟩ := ih hd
      rw [attemptsIn_of_not rfl, if_neg (by simp [SessionEvent.isTurnOf]), List.append_nil,
        List.append_nil]
      refine ⟨hdisciplined, hmade, ?_⟩
      cases hl : d.isLive with
      | false =>
        rw [Channel.tearDown_of_not_isLive hl]
        exact hready.evolves hs he
      | true =>
        rw [(Channel.tearDown_eq hs hl).1]
        exact .of_idle (.inr rfl)
    · have hturn := SessionEvent.isTurnOf_of_isOf hno
      obtain ⟨hdisciplined, hmade, hready⟩ := ih hd
      rw [attemptsIn_of_not hturn, hturn, if_neg (by simp), List.append_nil, List.append_nil]
      exact ⟨hdisciplined, hmade, hready.evolves hs he⟩

/-- **Channels replace connections fairly**, whatever happens. All that a channel forces
it forces in attempts to reconnect. None of them replaces an open connection, one that
replaces a connection on its way comes right after one about the same close that left
that very connection, and the first about a close replaces only a connection on its way
out. -/
theorem replaces_fairly (url : String) (options : ChannelOptions) (events : List SessionEvent)
    (i : Nat) :
    let log := (start url options).attemptsBy i events
    Channel.madeIn log = (start url options).forcedBy i events ∧
      ∀ before a after, log = before ++ a :: after → a.Fair before.getLast? := by
  intro log
  cases hc : ((start url options).run events).channels[i]? with
  | none =>
    have hlog : log = [] := attemptsBy_of_none hc
    rw [hlog, forcedBy_of_none hc]
    exact ⟨rfl, Channel.Disciplined.nil⟩
  | some c =>
    obtain ⟨hdisciplined, hmade, -⟩ := disciplined_run hc
    exact ⟨hmade, hdisciplined⟩

/-- Two attempts fall due in one turn: the first replaces the connection that has closed,
the second the one that the first has made. -/
example : (start "ws://localhost:4010/ws" {}).attemptsBy 0
    [.openChannel (.orderBook "mkt_1" "/proto") (.subscribe "order_book_update:mkt_1")
        { reconnectDelay := ⟨1000⟩, maxAttempts := 3 } .book,
      .turn 0 .stateFirst, .act 1 .dropDriver, .turn 0 .stateFirst, .elapse 3000,
      .turn 0 .stateFirst] =
    [⟨0, 1, 1, .closed, 2⟩, ⟨0, 2, 2, .connecting, 3⟩] := by
  decide +kernel

end Session

end PushFeed
