import PushFeed.Proofs.Connection.Listeners
import PushFeed.Proofs.Channel.Effect
import PushFeed.Proofs.Schema.Cache
/-!
# What comes into a stream

A channel's stream changes by the frames it takes and by nothing else, and a frame that
it takes has come in over a connection. `Feed.Still` is what all else leaves alone: the
schemas, and what there is in mailboxes. So a move is still, or it takes a frame that
waited (`Move.stream_cases`); and the end of a channel is still (`tearDown_still`).
-/

namespace PushFeed

namespace Feed

variable {f f' f'' : Feed}

/-- No schema has been loaded, and no frame has come into a mailbox. -/
structure Still (f f' : Feed) : Prop where
  loader_eq : f'.loader = f.loader
  cache_eq : f'.cache = f.cache
  waitingOn_subset : ∀ g, f'.hub.waitingOn g ⊆ f.hub.waitingOn g

theorem Still.refl (f : Feed) : Still f f := ⟨rfl, rfl, fun _ => List.Subset.refl _⟩

theorem Still.trans (h : Still f f') (h' : Still f' f'') : Still f f'' :=
  ⟨h'.loader_eq.trans h.loader_eq, h'.cache_eq.trans h.cache_eq,
    fun g => List.Subset.trans (h'.waitingOn_subset g) (h.waitingOn_subset g)⟩

theorem Still.faithful (h : Still f f') (hf : f.Faithful) : f'.Faithful :=
  ⟨h.loader_eq.trans hf.loader_eq, h.cache_eq ▸ hf.cache⟩

theorem Still.report (h : Still f f') (lines : List LogLine) : Still f (f'.report lines) :=
  ⟨h.loader_eq, h.cache_eq, h.waitingOn_subset⟩

theorem still_getConnection (hs : f.hub.Sound) (force : Bool) : Still f (f.getConnection force) := by
  refine ⟨rfl, rfl, fun g => ?_⟩
  rw [hub_getConnection, hs.waitingOn_get]
  exact List.Subset.refl _

/-- A change of the hub is still if it is an action that brings no frame. -/
theorem still_act {g : Nat} {a : ConnectionAction} (ha : ∀ frame, a ≠ .dispatch frame)
    (hloader : f'.loader = f.loader) (hcache : f'.cache = f.cache)
    (hhub : f'.hub = f.hub.modify g fun c => (c.apply a).1) : Still f f' := by
  refine ⟨hloader, hcache, fun g' frame hframe => ?_⟩
  rw [hhub] at hframe
  exact (Hub.mem_waitingOn_act hframe).resolve_right (ha frame)

theorem schemas_onConnection (f : Feed) (g : Nat)
    (change : Connection → Connection × List LogLine) :
    (f.onConnection g change).loader = f.loader ∧ (f.onConnection g change).cache = f.cache := by
  unfold onConnection
  split
  · exact ⟨rfl, rfl⟩
  · exact ⟨rfl, rfl⟩

theorem still_onConnection (f : Feed) (g : Nat) {a : ConnectionAction}
    (ha : ∀ frame, a ≠ .dispatch frame) : Still f (f.onConnection g fun c => c.apply a) := by
  obtain ⟨hloader, hcache⟩ := f.schemas_onConnection g fun c => c.apply a
  exact still_act ha hloader hcache (f.hub_onConnection g fun c => c.apply a)

theorem still_sendText {g : Nat} {text : String} (h : f.sendText g text = .ok f') : Still f f' := by
  unfold sendText at h
  split at h
  · cases h
  · rename_i c hc
    cases hd : c.sendText text with
    | error e => simp [hd, Except.map] at h
    | ok d =>
      simp only [hd, Except.map, Except.ok.injEq] at h
      subst h
      refine still_act (g := g) (a := .send text) (fun _ => ConnectionAction.noConfusion) rfl rfl ?_
      refine Hub.modify_congr hc ?_
      simp [Connection.apply, hd, Except.toOption]

end Feed

namespace Channel

variable {c : Channel} {f f' : Feed} {g : Nat} {p q : Channel × Feed}

/-! ## Stillness -/

theorem still_detach (c : Channel) (f : Feed) : f.Still (c.detach f).2 := by
  unfold detach
  split
  · exact .refl f
  · rename_i a _
    exact f.still_onConnection a.generation (a := .removeListener a.listener)
      fun _ => ConnectionAction.noConfusion

theorem still_attach (c : Channel) (f : Feed) (g : Nat) : f.Still (c.attach f g).2 := by
  simp only [attach]
  split
  · exact .refl f
  · split
    · exact c.still_detach f
    · refine (c.still_detach f).trans ?_
      exact Feed.still_onConnection _ g (a := .addListener) fun _ => ConnectionAction.noConfusion

theorem still_received {a : Attachment} {d : Connection} (hd : f.hub.find? a.generation = some d) :
    f.Still (received f a d) := by
  refine Feed.still_act (g := a.generation) (a := .receive a.listener)
    (fun _ => ConnectionAction.noConfusion) rfl rfl ?_
  unfold received
  exact Hub.modify_congr hd rfl

theorem still_unsubscribe (c : Channel) (f : Feed) (g : Nat) : f.Still (c.unsubscribe f g) := by
  unfold unsubscribe
  split
  · cases ht : (ClientMessage.unsubscribe c.topic.channel).text? with
    | error e => exact ⟨rfl, rfl, fun _ => List.Subset.refl _⟩
    | ok text =>
      cases hf : f.sendText g text with
      | error e =>
        simp only [Except.bind, hf]
        exact ⟨rfl, rfl, fun _ => List.Subset.refl _⟩
      | ok f' =>
        simp only [Except.bind, hf]
        exact Feed.still_sendText hf
  · exact .refl f

theorem still_release (c : Channel) (f : Feed) : f.Still (c.release f).2 := by
  unfold release
  split
  · exact .refl f
  · exact (c.still_detach f).trans (still_unsubscribe _ _ _)

/-- **The end of a channel is still.** -/
theorem still_tearDown (c : Channel) (hs : f.hub.Sound) : f.Still (c.tearDown f).2 := by
  unfold tearDown
  split
  · split
    · exact ((Feed.still_getConnection hs false).trans (still_release c _)).report _
    · exact (still_release c f).report _
  · exact .refl f

/-! ## Frames -/

/-- What the channel's decoder makes of a frame. -/
def outcome (c : Channel) (f : Feed) (frame : Wire.Bytes) : Except FeedError Message :=
  (f.decodeAs (Message.ofJson c.kind) c.topic.source c.topic.typeName frame).1

/-- Whether the channel passes over a frame as one of another topic: the decoder calls it
foreign, the channel counts it as dropped, and nothing else about the channel changes. -/
def Skips (c : Channel) (f : Feed) (frame : Wire.Bytes) : Prop :=
  ∃ reason, c.outcome f frame = .error (.foreignFrame reason) ∧
    (c.handleFrame f frame).1 = c.drop

theorem handleFrame_of_ok {frame : Wire.Bytes} {m : Message} (hc : c.schemaFailed = false)
    (h : c.outcome f frame = .ok m) : (c.handleFrame f frame).1 = c.accept m := by
  simp only [handleFrame, hc, Bool.false_eq_true, if_false]
  split
  · rename_i m' f' heq
    rw [outcome, heq] at h
    cases h
    rfl
  · rename_i e f' heq
    rw [outcome, heq] at h
    cases h

theorem skips_of_foreignFrame {frame : Wire.Bytes} {reason : String} (hc : c.schemaFailed = false)
    (h : c.outcome f frame = .error (.foreignFrame reason)) : c.Skips f frame := by
  refine ⟨reason, h, ?_⟩
  simp only [handleFrame, hc, Bool.false_eq_true, if_false]
  split
  · rename_i m f' heq
    rw [outcome, heq] at h
    cases h
  · rename_i e f' heq
    rw [outcome, heq] at h
    cases h
    show { c.drop with schemaFailed := false } = c.drop
    rw [← hc]
    rfl

/-- What a frame is decoded by stays faithful. -/
theorem faithful_handleFrame (c : Channel) (hf : f.Faithful) (frame : Wire.Bytes) :
    (c.handleFrame f frame).2.Faithful := by
  have hafter := (hf.decodeAs (Message.ofJson c.kind) c.topic.source c.topic.typeName frame).2
  unfold handleFrame
  split
  · exact hf
  · split <;> rename_i heq <;> rw [heq] at hafter
    · exact hafter
    · exact ⟨hafter.loader_eq, hafter.cache⟩

/-- **A move is still and leaves the stream alone, or it takes in a frame that waited.** -/
theorem Move.stream_cases (m : Move p q) (hs : p.2.hub.Sound) :
    (p.2.Still q.2 ∧ q.1.messages = p.1.messages ∧ q.1.schemaFailed = p.1.schemaFailed) ∨
      ∃ f g frame, p.2.Still f ∧ frame ∈ p.2.hub.waitingOn g ∧ q = p.1.handleFrame f frame := by
  cases m with
  | report | notice | reject | breakDown | resume | giveTime =>
    exact .inl ⟨⟨rfl, rfl, fun _ => List.Subset.refl _⟩, rfl, rfl⟩
  | await | again | announce =>
    rw [publish_eq]
    exact .inl ⟨.refl _, rfl, rfl⟩
  | stall =>
    rw [Channel.stall, publish_eq]
    exact .inl ⟨⟨rfl, rfl, fun _ => List.Subset.refl _⟩, rfl, rfl⟩
  | ask => exact .inl ⟨Feed.still_getConnection hs false, rfl, rfl⟩
  | force => exact .inl ⟨Feed.still_getConnection hs true, rfl, rfl⟩
  -- listeners come and go without a frame
  | lose =>
    obtain ⟨heq, -, he⟩ := detach_eq _ _
    refine .inl ⟨(still_detach _ _).trans (Feed.still_getConnection (he.sound hs) false), ?_⟩
    rw [heq]
    exact ⟨rfl, rfl⟩
  | send _ _ _ hf =>
    obtain ⟨⟨a, heq⟩, -, -⟩ := attach_eq _ _ _
    refine .inl ⟨(Feed.still_sendText hf).trans (still_attach _ _ _), ?_⟩
    rw [publish_eq, heq]
    exact ⟨rfl, rfl⟩
  | wait _ hc => exact .inl ⟨still_received hc, rfl, rfl⟩
  | letGo _ hc => exact .inl ⟨still_received hc, rfl, rfl⟩
  | @take c f a d frame _ hc hr =>
    refine .inr ⟨_, a.generation, frame, still_received hc, ?_, rfl⟩
    rw [Hub.waitingOn_of_find? hc]
    exact Connection.mem_waiting_of_receive hr

/-- A turn leaves a feed with the built-in types. -/
theorem Moves.faithful (ms : Moves p q) (hs : p.2.hub.Sound) (hf : p.2.Faithful) :
    q.2.Faithful := by
  induction ms with
  | refl => exact hf
  | tail hto m ih =>
    rcases m.stream_cases (Moves.evolves hto |>.sound hs) with
      ⟨hstill, -, -⟩ | ⟨f, g, frame, hstill, -, rfl⟩
    · exact hstill.faithful ih
    · exact faithful_handleFrame _ (hstill.faithful ih) frame

end Channel

end PushFeed
