import PushFeed.Proofs.Connection.Succession
import PushFeed.Proofs.Session.Stalls
/-!
# One connection after the other

Connections come one after the other: each has the next number, is handed over when it
is made, and from the moment there is a newer one it is on its way out for good
(`single_live`). Only force makes a new one where there is one already, so between two
requests without force in between nothing changes hands.
-/

namespace PushFeed

namespace Channel

variable {c : Channel} {f : Feed}

/-- Letting go of listener and topic makes no connection. -/
theorem generation_release (c : Channel) (f : Feed) :
    (c.release f).2.hub.generation = f.hub.generation := by
  unfold release
  split
  · rfl
  · rename_i a _
    have hq := (c.detach_eq f).2.1.generation_eq
    generalize c.detach f = q at hq
    obtain ⟨d, f'⟩ := q
    rcases d.unsubscribe_cases f' a.generation with hhub | ⟨_, _, text, _, hf⟩
    · exact (congrArg Hub.generation hhub).trans hq
    · have hf' := (Feed.sendText_eq_ok hf).2.2
      have hsame : (d.unsubscribe f' a.generation).hub.generation = f'.hub.generation := by
        rw [hf']
        exact Hub.generation_modify ..
      exact hsame.trans hq

/-- A channel makes no connection at its end where there is one already. -/
theorem generation_tearDown (c : Channel) (hpos : 0 < f.hub.generation) :
    (c.tearDown f).2.hub.generation = f.hub.generation := by
  unfold tearDown
  split
  · simp only [Feed.hub_report, generation_release]
    split
    · exact Hub.generation_get_false_of_pos hpos
    · rfl
  · rfl

end Channel

namespace Session

variable {s : Session} {e : SessionEvent} {events : List SessionEvent} {i : Nat}

/-- A channel that has forced nothing has left the number of connections alone. -/
theorem generation_turn_of_forcedBy (hs : s.feed.hub.Sound) (hpos : 0 < s.feed.hub.generation)
    {first : Precedence} (hnone : s.forcedBy i [.turn i first] = []) :
    (s.step (.turn i first)).feed.hub.generation = s.feed.hub.generation := by
  have hle := (step_evolves hs (.turn i first)).generation_le
  simp only [forcedBy, collect, SessionEvent.isTurnOf, beq_self_eq_true, if_true,
    List.append_nil, Channel.madeSince, Nat.ne_of_gt hpos, if_false] at hnone
  have hlen := congrArg List.length hnone
  simp only [List.length_range', List.length_nil] at hlen
  omega

/-- **Only force replaces a connection.** -/
theorem generation_step (hs : s.feed.hub.Sound) (hpos : 0 < s.feed.hub.generation)
    (he : e ≠ .getConnection true) (hnone : ∀ i, s.forcedBy i [e] = []) :
    (s.step e).feed.hub.generation = s.feed.hub.generation := by
  cases e with
  | openChannel | elapse => rfl
  | turn channel first => exact generation_turn_of_forcedBy hs hpos (hnone channel)
  | tearDown channel =>
    cases hc : s.channels[channel]? with
    | none => rw [step, onChannel_of_none hc]
    | some c =>
      rw [step, onChannel_eq hc]
      exact c.generation_tearDown hpos
  | getConnection force =>
    cases force with
    | true => exact absurd rfl he
    | false => exact Hub.generation_get_false_of_pos hpos
  | act g action =>
    simp only [step, Feed.hub_onConnection]
    exact Hub.generation_modify ..

theorem forcedBy_cons (s : Session) (i : Nat) (e : SessionEvent) (events : List SessionEvent) :
    s.forcedBy i (e :: events) = s.forcedBy i [e] ++ (s.step e).forcedBy i events := by
  rw [← List.singleton_append, forcedBy, collect_append]
  rfl

theorem generation_run (hs : s.feed.hub.Sound) (hpos : 0 < s.feed.hub.generation)
    (he : .getConnection true ∉ events) (hnone : ∀ i, s.forcedBy i events = []) :
    (s.run events).feed.hub.generation = s.feed.hub.generation := by
  induction events generalizing s with
  | nil => rfl
  | cons e events ih =>
    have hsplit : ∀ i, s.forcedBy i [e] = [] ∧ (s.step e).forcedBy i events = [] := by
      intro i
      have h := hnone i
      rw [forcedBy_cons] at h
      exact List.append_eq_nil_iff.1 h
    rw [List.mem_cons, not_or] at he
    have hstep := generation_step hs hpos (Ne.symm he.1) fun i => (hsplit i).1
    rw [run_cons, ih ((step_evolves hs e).sound hs) (hstep ▸ hpos) he.2 fun i => (hsplit i).2]
    exact hstep

/-- Whoever asks for a connection gets one. -/
theorem generation_pos_of_request (hs : s.feed.hub.Sound) {force : Bool}
    (hmem : .getConnection force ∈ events) : 0 < (s.run events).feed.hub.generation := by
  obtain ⟨before, after, rfl⟩ := List.append_of_mem hmem
  have hbefore := (run_evolves hs before).sound hs
  have hone : 0 < ((s.run before).step (.getConnection force)).feed.hub.generation := by
    show 0 < ((s.run before).feed.hub.get force).1.generation
    cases force with
    | true => rw [Hub.generation_get_true]; omega
    | false => rw [Hub.generation_get_false]; omega
  have hrest := run_evolves ((step_evolves hbefore (.getConnection force)).sound hbefore) after
  rw [run_append, run_cons]
  exact Nat.lt_of_lt_of_le hone hrest.generation_le

/-- **There is one live connection.** Whatever happens, connections have the numbers from
one on, each has been handed over once, the current one is the newest, and all others
are on their way out for good. Two requests give different connections only if the
later one is forced, or a request or a channel in between forces one. -/
theorem single_live (url : String) (options : ChannelOptions) (events : List SessionEvent) :
    let hub := ((start url options).run events).feed.hub
    hub.connections.map (·.generation) = List.range' 1 hub.generation ∧
    hub.handedOver = List.range' 1 hub.generation ∧
    hub.current?.map (·.generation) =
      (if hub.generation = 0 then none else some hub.generation) ∧
    (∀ force, .getConnection force ∈ events → 0 < hub.generation) ∧
    (∀ more g, 0 < g → g < hub.generation →
      (((start url options).run (events ++ more)).feed.hub.stateOf g).isTerminal = true) ∧
    (∀ before between after force force',
      events = before ++ .getConnection force :: between ++ .getConnection force' :: after →
      let first := (start url options).run (before ++ [.getConnection force])
      let second := (start url options).run
        (before ++ .getConnection force :: between ++ [.getConnection force'])
      first.feed.hub.current?.map (·.generation) ≠ second.feed.hub.current?.map (·.generation) →
        force' = true ∨ .getConnection true ∈ between ∨
          ∃ i, first.forcedBy i between ≠ []) := by
  have hs := sound_run url options events
  have he := run_evolves (s := start url options) (Hub.sound_of_empty url) events
  refine ⟨hs.map_generation, ?_, hs.current?_eq, fun force hmem => ?_, fun more g h0 hg => ?_, ?_⟩
  · exact he.handedOver
  · exact generation_pos_of_request (Hub.sound_of_empty url) hmem
  · rw [run_append]
    exact (run_evolves hs more).isTerminal hs (Nat.le_of_lt hg) (hs.retired h0 hg)
  · intro before between after force force' _ first second hne
    have hfirst : first.feed.hub.Sound := sound_run url options _
    have hasked : .getConnection force ∈ before ++ [.getConnection force] := by simp
    have hpos : 0 < first.feed.hub.generation :=
      generation_pos_of_request (Hub.sound_of_empty url) hasked
    have hsecond : second = first.run (between ++ [.getConnection force']) := by
      rw [← run_append, List.append_assoc]
      exact congrArg _ (List.append_assoc ..)
    by_contra hcon
    simp only [not_or, not_exists, not_not] at hcon
    obtain ⟨hforce, hbetween, hnone⟩ := hcon
    have hsame := generation_run hfirst hpos hbetween hnone
    -- the later request is not forced, so it finds what the first one left
    have hlast : second.feed.hub.generation = first.feed.hub.generation := by
      rw [hsecond, run_concat, ← hsame]
      cases force' with
      | true => exact absurd rfl hforce
      | false => exact Hub.generation_get_false_of_pos (hsame ▸ hpos)
    refine hne ?_
    rw [hfirst.current?_eq, (sound_run url options _).current?_eq]
    show _ = if second.feed.hub.generation = 0 then none else some second.feed.hub.generation
    rw [hlast]

end Session

end PushFeed
