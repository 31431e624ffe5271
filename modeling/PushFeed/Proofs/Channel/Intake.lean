import PushFeed.Proofs.Channel.Closing
import PushFeed.Proofs.Channel.Stream
/-!
# The account of a channel's frames

A `Taking` is a frame that a channel takes from its listener, with the channel and the
feed as they are then. `Channel.takings` lists the frames of a turn in the order they are
taken, `Taking.readings` the messages among them: those of the frames that decode, up to
the first one whose schema cannot be loaded.

All a channel has of its frames is an account of them (`Channel.Account`). Taking a frame
adds it to the account (`Account.handleNext`), and nothing else that a channel does
touches it (`Channel.Unfed`), so the account goes on along a turn (`Account.turn`).
-/

namespace PushFeed

namespace Retention

variable {α : Type}

/-- The stream of messages that arrived in the given order. -/
def arrange (r : Retention) (ms : List α) : List α :=
  match r with
  | .newestFirst => ms.reverse
  | .arrivalOrder => ms
  | .keepLatest => ms.getLast?.toList

theorem arrange_nil (r : Retention) : r.arrange ([] : List α) = [] := by
  cases r <;> rfl

theorem apply_arrange (r : Retention) (ms : List α) (m : α) :
    r.apply (r.arrange ms) [m] = r.arrange (ms ++ [m]) := by
  cases r with
  | newestFirst =>
    rw [arrange, arrange, List.reverse_append]
    rfl
  | arrivalOrder => rfl
  | keepLatest =>
    rw [arrange, arrange, List.getLast?_concat]
    rfl

/-- The message that arrived last is the last one of the stream, as it is kept. -/
theorem latest?_arrange (r : Retention) (ms : List α) :
    r.latest? (r.arrange ms) = ms.getLast? := by
  cases r with
  | newestFirst => exact List.head?_reverse
  | arrivalOrder => rfl
  | keepLatest =>
    rw [arrange, latest?]
    cases ms.getLast? <;> rfl

end Retention

/-- A frame that a channel takes, with the channel and the feed as they are then. -/
structure Taking where
  /-- The channel. -/
  channel : Channel
  /-- The feed. -/
  feed : Feed
  /-- The frame. -/
  frame : Wire.Bytes

namespace Taking

variable {x y : Taking} {xs : List Taking}

/-- What the channel's decoder makes of the frame. -/
def outcome (x : Taking) : Except FeedError Message := x.channel.outcome x.feed x.frame

/-- Whether the frame fails because its schema cannot be loaded. -/
def failsToLoad (x : Taking) : Bool :=
  match x.outcome with
  | .ok _ => false
  | .error e => Channel.isSchemaFailure e

/-- The messages of the frames that decode. None is decoded after one whose schema cannot
be loaded. -/
def readings : List Taking → List Message
  | [] => []
  | x :: rest =>
    match x.outcome with
    | .ok m => m :: readings rest
    | .error e => if Channel.isSchemaFailure e then [] else readings rest

/-- After a schema that cannot be loaded there is nothing more to read. -/
theorem readings_append_of_any (h : xs.any failsToLoad = true) (ys : List Taking) :
    readings (xs ++ ys) = readings xs := by
  induction xs with
  | nil => cases h
  | cons x xs ih =>
    rw [List.any_cons, Bool.or_eq_true, failsToLoad] at h
    rw [List.cons_append, readings, readings]
    cases hx : x.outcome with
    | ok m =>
      rw [hx] at h
      exact congrArg (m :: ·) (ih (h.resolve_left Bool.false_ne_true))
    | error e =>
      rw [hx] at h
      dsimp only at h ⊢
      by_cases he : Channel.isSchemaFailure e = true
      · rw [if_pos he, if_pos he]
      · rw [if_neg he, if_neg he]
        exact ih (h.resolve_left he)

/-- As long as the schema can be loaded, every frame that decodes is read. -/
theorem readings_concat (h : xs.any failsToLoad = false) (x : Taking) :
    readings (xs ++ [x]) = readings xs ++ x.outcome.toOption.toList := by
  induction xs with
  | nil =>
    rw [List.nil_append, readings, readings, List.nil_append]
    cases x.outcome with
    | ok m => rfl
    | error e =>
      show (if Channel.isSchemaFailure e = true then [] else []) = []
      split <;> rfl
  | cons y xs ih =>
    rw [List.any_cons, Bool.or_eq_false_iff, failsToLoad] at h
    rw [List.cons_append, readings, readings, ih h.2]
    cases hy : y.outcome with
    | ok m => rfl
    | error e =>
      rw [hy] at h
      simp only [h.1, Bool.false_eq_true, if_false]

end Taking

namespace Channel

variable {c d : Channel} {f f' : Feed} {frame : Wire.Bytes} {rest : List Wire.Bytes}

/-! ## What takes no frame -/

/-- No frame has come to the channel: its stream is as it was, and so is all it counts. -/
structure Unfed (c d : Channel) : Prop where
  messages_eq : d.messages = c.messages
  decoded_eq : d.decoded = c.decoded
  dropped_eq : d.dropped = c.dropped
  schemaFailed_eq : d.schemaFailed = c.schemaFailed
  topic_eq : d.topic = c.topic

theorem Unfed.refl (c : Channel) : Unfed c c := ⟨rfl, rfl, rfl, rfl, rfl⟩

theorem Unfed.trans {e : Channel} (h : Unfed c d) (h' : Unfed d e) : Unfed c e :=
  ⟨h'.messages_eq.trans h.messages_eq, h'.decoded_eq.trans h.decoded_eq,
    h'.dropped_eq.trans h.dropped_eq, h'.schemaFailed_eq.trans h.schemaFailed_eq,
    h'.topic_eq.trans h.topic_eq⟩

theorem unfed_publish (c : Channel) (s : ChannelState) : Unfed c (c.publish s) := by
  rw [publish_eq]
  exact ⟨rfl, rfl, rfl, rfl, rfl⟩

theorem unfed_detach (c : Channel) (f : Feed) : Unfed c (c.detach f).1 := by
  rw [(c.detach_eq f).1]
  exact ⟨rfl, rfl, rfl, rfl, rfl⟩

theorem unfed_attach (c : Channel) (f : Feed) (g : Nat) : Unfed c (c.attach f g).1 := by
  obtain ⟨a, ha⟩ := (c.attach_eq f g).1
  rw [ha]
  exact ⟨rfl, rfl, rfl, rfl, rfl⟩

theorem unfed_subscribe (c : Channel) (f : Feed) (g : Nat) : Unfed c (c.subscribe f g).1 := by
  simp only [subscribe]
  split
  · exact unfed_publish c _
  · split
    · exact .refl c
    · split
      · exact ⟨rfl, rfl, rfl, rfl, rfl⟩
      · split
        · exact .refl c
        · refine .trans ?_ (unfed_publish _ _)
          refine .trans ?_ (unfed_attach _ _ _)
          exact ⟨rfl, rfl, rfl, rfl, rfl⟩

theorem unfed_resume (c : Channel) (f : Feed) (g : Nat) : Unfed c (c.resume f g).1 := by
  rw [resume]
  refine .trans ?_ (unfed_subscribe _ _ _)
  exact ⟨rfl, rfl, rfl, rfl, rfl⟩

theorem unfed_stall (c : Channel) (f : Feed) : Unfed c (c.stall f).1 := by
  refine .trans (unfed_publish c .stalled) ?_
  exact ⟨rfl, rfl, rfl, rfl, rfl⟩

theorem unfed_attempts (remaining attempt : Nat) (c : Channel) (f : Feed) (e : Episode) :
    Unfed c (attempts remaining attempt c f e).1 := by
  induction remaining generalizing attempt c f e with
  | zero => exact unfed_stall c f
  | succ remaining ih =>
    refine .trans (unfed_publish c (.reconnecting attempt)) ?_
    simp only [attempts]
    split
    · exact ⟨rfl, rfl, rfl, rfl, rfl⟩
    · split
      · split
        · exact unfed_resume _ _ _
        · exact ih _ _ _ _
      · exact ⟨rfl, rfl, rfl, rfl, rfl⟩

theorem unfed_reconnect (c : Channel) (f : Feed) (g : Nat) : Unfed c (c.reconnect f g).1 := by
  simp only [reconnect]
  refine .trans (unfed_detach c f) ?_
  refine .trans ?_ (unfed_attempts _ _ _ _ _)
  exact ⟨rfl, rfl, rfl, rfl, rfl⟩

/-- Looking at a connection, with all that comes of it, takes no frame. -/
theorem unfed_look (c : Channel) (f : Feed) (g : Nat) : Unfed c (c.look f g).1 := by
  simp only [look]
  split
  · refine .trans ?_ (unfed_publish _ _)
    exact ⟨rfl, rfl, rfl, rfl, rfl⟩
  · refine .trans ?_ (unfed_subscribe _ _ _)
    exact ⟨rfl, rfl, rfl, rfl, rfl⟩
  · exact unfed_reconnect c f g
  · exact unfed_reconnect c f g

/-- The end of a channel takes no frame. -/
theorem unfed_tearDown (c : Channel) (f : Feed) : Unfed c (c.tearDown f).1 := by
  simp only [tearDown]
  split
  · rw [(release_eq _ _).1]
    exact ⟨rfl, rfl, rfl, rfl, rfl⟩
  · exact .refl c

/-! ## Taking a frame -/

/-- The frame that a channel takes next, if one waits. -/
def next (c : Channel) (f : Feed) : List Taking :=
  (c.inbox f.hub).head?.toList.map fun frame => ⟨c, f, frame⟩

/-- The frames that a channel takes if it looks for one a number of times. -/
def takingsMany : Nat → Channel → Feed → List Taking
  | 0, _, _ => []
  | n + 1, c, f => c.next f ++ takingsMany n (c.handleNext f).1 (c.handleNext f).2

/-- The frames that a channel takes if it takes all that wait. -/
def takingsAll (c : Channel) (f : Feed) : List Taking := takingsMany (c.waiting f + 1) c f

/-- **The frames that a channel takes in a turn.** It takes frames only while it follows
a connection. -/
def takings (c : Channel) (f : Feed) (first : Precedence) : List Taking :=
  match c.phase with
  | .following g seen =>
    if f.hub.stateOf g = seen then c.takingsAll f
    else
      let before := handleMany (ahead first) c f
      let after := before.1.look before.2 g
      takingsMany (ahead first) c f ++ after.1.takingsAll after.2
  | _ => []

theorem moves_of_mem_takingsMany {n : Nat} {x : Taking} (hx : x ∈ takingsMany n c f) :
    Moves (c, f) (x.channel, x.feed) := by
  induction n generalizing c f with
  | zero => cases hx
  | succ n ih =>
    rw [takingsMany, List.mem_append] at hx
    rcases hx with hx | hx
    · obtain ⟨frame, -, rfl⟩ := List.mem_map.1 hx
      exact .refl
    · exact (handleNext_moves c f).trans (ih hx)

/-- Every frame of a turn is taken on the way through it. -/
theorem moves_of_mem_takings {first : Precedence} {x : Taking} (hx : x ∈ c.takings f first) :
    Moves (c, f) (x.channel, x.feed) := by
  rw [takings] at hx
  split at hx
  · rename_i g seen hp
    split at hx
    · exact moves_of_mem_takingsMany hx
    · rcases List.mem_append.1 hx with hx | hx
      · exact moves_of_mem_takingsMany hx
      · have hlook : Moves (handleMany (ahead first) c f)
            ((handleMany (ahead first) c f).1.look (handleMany (ahead first) c f).2 g) :=
          look_moves (.inr ⟨seen, (phase_handleMany _ c f).trans hp⟩)
        exact ((handleMany_moves _ c f).trans hlook).trans (moves_of_mem_takingsMany hx)
  · cases hx

/-- What a channel makes of a frame depends on the schemas only. -/
theorem outcome_congr (hloader : f'.loader = f.loader) (hcache : f'.cache = f.cache)
    (frame : Wire.Bytes) : c.outcome f' frame = c.outcome f frame := by
  simp only [outcome, Feed.decodeAs, hloader, hcache]

/-- A frame that waits is handled as it is found. -/
theorem handleNext_of_inbox (h : c.inbox f.hub = frame :: rest) :
    ∃ f', f'.loader = f.loader ∧ f'.cache = f.cache ∧
      c.handleNext f = c.handleFrame f' frame := by
  simp only [handleNext]
  split
  · rename_i ha
    rw [inbox_of_none ha] at h
    cases h
  · rename_i a ha
    split
    · rename_i hnone
      simp [inbox, ha, hnone] at h
    · rename_i d hd
      rw [inbox_of_find? ha hd] at h
      rcases d.receive_cases a.listener with ⟨frame', rest', hinbox, hr, -⟩ | ⟨hinbox, -⟩
      · rw [h] at hinbox
        cases hinbox
        split <;> rename_i heq <;> rw [hr] at heq <;> cases heq
        exact ⟨received f a d, rfl, rfl, rfl⟩
      · rw [h] at hinbox
        cases hinbox

/-- Where no frame waits, none is taken. -/
theorem unfed_handleNext (h : c.inbox f.hub = []) : Unfed c (c.handleNext f).1 := by
  simp only [handleNext]
  split
  · exact .refl c
  · rename_i a ha
    split
    · exact .refl c
    · rename_i d hd
      rw [inbox_of_find? ha hd] at h
      rcases d.receive_cases a.listener with ⟨frame, rest, hinbox, -⟩ | ⟨-, hnone, -⟩
      · rw [h] at hinbox
        cases hinbox
      · split
        · exact .refl c
        · exact ⟨rfl, rfl, rfl, rfl, rfl⟩
        · rename_i heq
          exact absurd heq (hnone _)

/-- A frame is dropped untried after a schema that could not be loaded. -/
theorem handleFrame_of_schemaFailed (hc : c.schemaFailed = true) (f : Feed)
    (frame : Wire.Bytes) : c.handleFrame f frame = (c.drop, f) := by
  rw [handleFrame, if_pos hc]

/-- **A frame that fails changes nothing but the count**, and that its schema could not be
loaded. -/
theorem handleFrame_of_error {e : FeedError} (hc : c.schemaFailed = false)
    (h : c.outcome f frame = .error e) :
    (c.handleFrame f frame).1 = { c.drop with schemaFailed := isSchemaFailure e } := by
  simp only [handleFrame, hc, Bool.false_eq_true, if_false]
  split <;> rename_i heq <;> rw [outcome, heq] at h <;> cases h
  rfl

/-- Taking a frame that fails comes to the same. -/
theorem handleNext_of_error {x : Taking} {e : FeedError} (h : x.outcome = .error e)
    (hinbox : x.channel.inbox x.feed.hub = x.frame :: rest) :
    ∃ failed, (x.channel.handleNext x.feed).1 =
      { x.channel.drop with schemaFailed := failed } := by
  obtain ⟨f', hloader, hcache, heq⟩ := handleNext_of_inbox hinbox
  rw [heq]
  cases hfailed : x.channel.schemaFailed with
  | true =>
    refine ⟨true, ?_⟩
    rw [handleFrame_of_schemaFailed hfailed, ← hfailed]
    rfl
  | false =>
    exact ⟨_, handleFrame_of_error hfailed ((outcome_congr hloader hcache _).trans h)⟩

/-! ## The account -/

/-- **What a channel has of the frames it has taken**: its stream is that of the messages
read, it counts every frame as decoded or dropped, and no frame is tried after a schema
that could not be loaded. Each frame was the oldest one that waited for the channel. -/
structure Account (c : Channel) (xs : List Taking) : Prop where
  waited : ∀ x ∈ xs, ∃ rest, x.channel.inbox x.feed.hub = x.frame :: rest
  messages_eq : c.messages = c.topic.retention.arrange (Taking.readings xs)
  decoded_eq : c.decoded = (Taking.readings xs).length
  handled_eq : c.handled = xs.length
  schemaFailed_eq : c.schemaFailed = xs.any Taking.failsToLoad
  untried : xs.Pairwise fun x y => x.failsToLoad = true → y.channel.schemaFailed = true

variable {xs : List Taking}

theorem account_opened (topic : Topic) (request : ClientMessage) (options : ChannelOptions)
    (kind : MessageKind) : Account (opened topic request options kind).1 [] := by
  have hstream : topic.retention.arrange ([] : List Message) = [] := Retention.arrange_nil _
  have hwaited (x : Taking) (hx : x ∈ []) :
      ∃ rest, x.channel.inbox x.feed.hub = x.frame :: rest := absurd hx List.not_mem_nil
  rcases opened_cases topic request options kind with h | h
  · rw [h]
    exact ⟨hwaited, hstream.symm, rfl, rfl, rfl, .nil⟩
  · rw [h]
    exact ⟨hwaited, hstream.symm, rfl, rfl, rfl, .nil⟩

/-- Where no frame is taken the account stays as it is. -/
theorem Account.unfed (hc : c.Account xs) (h : Unfed c d) : d.Account xs where
  waited := hc.waited
  messages_eq := by rw [h.messages_eq, h.topic_eq, hc.messages_eq]
  decoded_eq := h.decoded_eq.trans hc.decoded_eq
  handled_eq := by rw [handled, h.decoded_eq, h.dropped_eq, ← handled, hc.handled_eq]
  schemaFailed_eq := h.schemaFailed_eq.trans hc.schemaFailed_eq
  untried := hc.untried

section Take

variable {x : Taking} (hc : c.Account xs) (hx : x.channel = c)
  (hwaited : ∃ rest, x.channel.inbox x.feed.hub = x.frame :: rest)

include hc

theorem Account.waited_concat (hwaited : ∃ rest, x.channel.inbox x.feed.hub = x.frame :: rest) :
    ∀ y ∈ xs ++ [x], ∃ rest, y.channel.inbox y.feed.hub = y.frame :: rest := by
  intro y hy
  rcases List.mem_append.1 hy with hy | hy
  · exact hc.waited y hy
  · rw [List.mem_singleton.1 hy]
    exact hwaited

include hx

/-- A channel knows of the frames before the next one whether any failed to load. -/
theorem Account.untried_concat : (xs ++ [x]).Pairwise fun x y =>
    x.failsToLoad = true → y.channel.schemaFailed = true := by
  refine List.pairwise_append.2 ⟨hc.untried, List.pairwise_singleton _ _, ?_⟩
  intro z hz y hy hfails
  rw [List.mem_singleton.1 hy, hx]
  exact hc.schemaFailed_eq.trans (List.any_eq_true.2 ⟨z, hz, hfails⟩)

include hwaited

/-- A frame that is not tried is dropped. -/
theorem Account.skip (hfailed : c.schemaFailed = true) : c.drop.Account (xs ++ [x]) := by
  have hany : xs.any Taking.failsToLoad = true := hc.schemaFailed_eq.symm.trans hfailed
  have hsame := Taking.readings_append_of_any hany [x]
  refine ⟨hc.waited_concat hwaited, ?_, ?_, ?_, ?_, hc.untried_concat hx⟩
  · rw [hsame]
    exact hc.messages_eq
  · rw [hsame]
    exact hc.decoded_eq
  · rw [List.length_append, ← hc.handled_eq]
    exact (Nat.add_assoc c.decoded c.dropped 1).symm
  · rw [List.any_append, hany]
    exact hfailed

/-- A frame that decodes joins the stream. -/
theorem Account.accept {m : Message} (hfailed : c.schemaFailed = false)
    (hread : x.outcome = .ok m) : (c.accept m).Account (xs ++ [x]) := by
  have hnone : xs.any Taking.failsToLoad = false := hc.schemaFailed_eq.symm.trans hfailed
  have hmore : Taking.readings (xs ++ [x]) = Taking.readings xs ++ [m] := by
    rw [Taking.readings_concat hnone, hread]
    rfl
  refine ⟨hc.waited_concat hwaited, ?_, ?_, ?_, ?_, hc.untried_concat hx⟩
  · rw [hmore]
    show c.topic.retention.apply c.messages [m] = _
    rw [hc.messages_eq, Retention.apply_arrange]
    rfl
  · rw [hmore, List.length_append, ← hc.decoded_eq]
    rfl
  · rw [List.length_append, ← hc.handled_eq]
    exact Nat.add_right_comm c.decoded 1 c.dropped
  · rw [List.any_append, hnone, List.any_cons, Taking.failsToLoad, hread]
    exact hfailed

/-- A frame that fails is dropped, and it is the first one that may fail to load. -/
theorem Account.fail {e : FeedError} (hfailed : c.schemaFailed = false)
    (hread : x.outcome = .error e) :
    Account { c.drop with schemaFailed := isSchemaFailure e } (xs ++ [x]) := by
  have hnone : xs.any Taking.failsToLoad = false := hc.schemaFailed_eq.symm.trans hfailed
  have hsame : Taking.readings (xs ++ [x]) = Taking.readings xs := by
    rw [Taking.readings_concat hnone, hread]
    exact List.append_nil _
  refine ⟨hc.waited_concat hwaited, ?_, ?_, ?_, ?_, hc.untried_concat hx⟩
  · rw [hsame]
    exact hc.messages_eq
  · rw [hsame]
    exact hc.decoded_eq
  · rw [List.length_append, ← hc.handled_eq]
    exact (Nat.add_assoc c.decoded c.dropped 1).symm
  · rw [List.any_append, hnone, List.any_cons, Taking.failsToLoad, hread]
    exact (Bool.or_false _).symm

end Take

/-- **A frame that is taken joins the account.** -/
theorem Account.take (hc : c.Account xs) (h : c.inbox f.hub = frame :: rest) :
    (c.handleNext f).1.Account (xs ++ [⟨c, f, frame⟩]) := by
  obtain ⟨f', hloader, hcache, heq⟩ := handleNext_of_inbox h
  have houtcome : Taking.outcome ⟨c, f, frame⟩ = c.outcome f' frame :=
    (outcome_congr hloader hcache frame).symm
  rw [heq]
  cases hfailed : c.schemaFailed with
  | true =>
    rw [handleFrame_of_schemaFailed hfailed]
    exact hc.skip rfl ⟨rest, h⟩ hfailed
  | false =>
    cases hread : c.outcome f' frame with
    | ok m =>
      rw [handleFrame_of_ok hfailed hread]
      exact hc.accept rfl ⟨rest, h⟩ hfailed (houtcome.trans hread)
    | error e =>
      rw [handleFrame_of_error hfailed hread]
      exact hc.fail rfl ⟨rest, h⟩ hfailed (houtcome.trans hread)

theorem Account.handleNext (hc : c.Account xs) (f : Feed) :
    (c.handleNext f).1.Account (xs ++ c.next f) := by
  rw [next]
  cases hinbox : c.inbox f.hub with
  | nil =>
    rw [List.head?_nil, Option.toList_none, List.map_nil, List.append_nil]
    exact hc.unfed (unfed_handleNext hinbox)
  | cons frame rest => exact hc.take hinbox

theorem Account.handleMany (hc : c.Account xs) (n : Nat) (f : Feed) :
    (handleMany n c f).1.Account (xs ++ takingsMany n c f) := by
  induction n generalizing c f xs with
  | zero =>
    rw [takingsMany, List.append_nil]
    exact hc
  | succ n ih =>
    rw [takingsMany, ← List.append_assoc]
    exact ih (hc.handleNext f) _

/-- **The account goes on along a turn** by the frames that are taken in it. -/
theorem Account.turn (hc : c.Account xs) (f : Feed) (first : Precedence) :
    (c.turn f first).1.Account (xs ++ c.takings f first) := by
  cases hp : c.phase with
  | following g seen =>
    by_cases hseen : f.hub.stateOf g = seen
    · simp only [Channel.turn, takings, hp, if_pos hseen]
      exact hc.handleMany _ f
    · rw [turn_of_ne hp hseen rfl]
      simp only [takings, hp, if_neg hseen]
      rw [← List.append_assoc]
      exact Account.handleMany ((hc.handleMany _ f).unfed (unfed_look _ _ g)) _ _
  | starting =>
    simp only [Channel.turn, takings, hp, List.append_nil]
    exact hc.unfed (unfed_look _ _ _)
  | retrying attempt episode =>
    simp only [Channel.turn, takings, hp, List.append_nil]
    exact hc.unfed (unfed_attempts _ _ _ _ _)
  | stalled | ended | broken =>
    simp only [Channel.turn, takings, hp, List.append_nil]
    exact hc

end Channel

end PushFeed
