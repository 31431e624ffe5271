import PushFeed.Proofs.Schema.Typed
import PushFeed.Proofs.Session.Stream
/-!
# Channels of a built-in type

A channel can be opened for the messages of a built-in type. Each frame it takes is then
decoded as that type, and the stream shows the messages that the frames have on the wire
(`Session.typed_as_sent`). How a message is shown depends on the kind of the channel
(`MessageKind.Shows`), but no two messages are shown alike.
-/

namespace PushFeed

open Wire

namespace MessageKind

/-- How channels of a kind show the messages of a type. -/
inductive Shows : MessageKind → (t : MessageType) → (t.layout.Content → Message) → Prop
  /-- The books of a market, by the names of their fields. -/
  | book : Shows .book .marketBook fun m => .book (.ofContent m)
  /-- The prices of a market, by the names of their fields. -/
  | price : Shows .price .pricePayload fun m => .price (.ofContent m)
  /-- The messages of any type, as they are. -/
  | ofType (t : MessageType) : Shows (.ofType t) t (.ofType t)

variable {k : MessageKind} {t : MessageType} {shown : t.layout.Content → Message}

theorem Shows.ofJson_eq (h : k.Shows t shown) (v : Json) :
    Message.ofJson k v = (t.layout.ofJson t.name v).map shown := by
  cases h <;> rfl

theorem Shows.injective (h : k.Shows t shown) : Function.Injective shown := by
  intro m m' heq
  cases h with
  | book =>
    exact Function.LeftInverse.injective MarketBook.toContent_ofContent (Message.book.inj heq)
  | price => exact congrArg PricePayload.toContent (Message.price.inj heq)
  | ofType t => exact eq_of_heq (Message.ofType.inj heq).2

end MessageKind

/-- If no frame that follows on one without a schema decodes, all that decode are read. -/
theorem Taking.readings_eq_filterMap {xs : List Taking}
    (h : ∀ x ∈ xs, x.failsToLoad = true → ∀ y ∈ xs, y.outcome.toOption = none) :
    readings xs = xs.filterMap fun x => x.outcome.toOption := by
  induction xs with
  | nil => rfl
  | cons x xs ih =>
    have hrest := ih fun y hy hfails z hz =>
      h y (List.mem_cons_of_mem x hy) hfails z (List.mem_cons_of_mem x hz)
    rw [readings, List.filterMap_cons]
    cases hx : x.outcome with
    | ok m => exact congrArg (m :: ·) hrest
    | error e =>
      by_cases he : Channel.isSchemaFailure e = true
      · have hnone := h x List.mem_cons_self (by rw [failsToLoad, hx]; exact he)
        simp only [he, if_true, Except.toOption]
        exact (List.filterMap_eq_nil_iff.2 fun y hy => hnone y (List.mem_cons_of_mem x hy)).symm
      · simpa only [he, Bool.false_eq_true, if_false, Except.toOption] using hrest

namespace Channel

variable {c : Channel} {f : Feed} {bundle : Bundle} {t : MessageType}
  {shown : t.layout.Content → Message}

/-- **A channel of a built-in type decodes a frame as the message on the wire.** -/
theorem outcome_of_shows (hf : f.Faithful) (hb : bundle ∈ Bundle.builtin) (ht : t ∈ bundle.types)
    (hname : c.topic.typeName = t.typeName) (hk : c.kind.Shows t shown) (frame : Bytes) :
    c.outcome f frame =
      (loadBuiltin c.topic.source t.typeName).bind fun _ => (t.decodeMessage frame).map shown := by
  rw [outcome, hname]
  unfold Feed.decodeAs
  rw [hf.loader_eq]
  exact hf.cache.decodeAs_eq hb ht hk.ofJson_eq c.topic.source frame

/-- A frame that is refused is not refused for want of its schema. -/
theorem isSchemaFailure_of_decodeMessage {bytes : Bytes} {e : FeedError}
    (h : t.decodeMessage bytes = .error e) : isSchemaFailure e = false := by
  rw [MessageType.decodeMessage] at h
  split at h
  · cases h
    simp only [classifyFault]
    split
    · rfl
    · split
      · rfl
      · rfl
  · split at h
    · cases h
      rfl
    · cases h

end Channel

namespace Session

variable {s : Session} {events : List SessionEvent} {i : Nat} {c : Channel}
  {bundle : Bundle} {t : MessageType} {shown : t.layout.Content → Message}

/-- A channel takes its frames as it was opened, and with the built-in types at hand. -/
theorem of_mem_takenBy {url : String} {options : ChannelOptions} {x : Taking}
    (hc : ((start url options).run events).channels[i]? = some c)
    (hx : x ∈ (start url options).takenBy i events) :
    Channel.Alike x.channel c ∧ x.feed.Faithful := by
  induction events using List.reverseRecOn generalizing c with
  | nil => cases hx
  | append_singleton events e ih =>
    have hs := sound_run url options events
    have hstep : ∀ {d}, ((start url options).run events).channels[i]? = some d →
        Channel.Alike d c := by
      intro d hd
      obtain ⟨c', hc', halike⟩ := exists_alike_step hs hd e
      rw [← run_concat] at hc'
      cases hc.symm.trans hc'
      exact halike
    rw [run_concat] at hc
    rw [takenBy_concat, List.mem_append] at hx
    rcases step_cases_at hc with ⟨_, _, _, _, rfl, hnone, -⟩ | ⟨d, first, rfl, hd, -⟩ |
      ⟨d, rfl, hd, -⟩ | ⟨he, hd⟩
    · rw [takenBy_of_none hnone, takenIn_of_not rfl] at hx
      rcases hx with hx | hx <;> cases hx
    · rw [takenIn_turn hd] at hx
      rcases hx with hx | hx
      · exact ⟨(ih hd hx).1.trans (hstep hd), (ih hd hx).2⟩
      · -- the frame is taken on the way through the turn
        have hms := Channel.moves_of_mem_takings hx
        exact ⟨hms.alike.symm.trans (hstep hd), hms.faithful hs (faithful_run url options events)⟩
    · rw [takenIn_of_not rfl] at hx
      have hx := hx.resolve_right List.not_mem_nil
      exact ⟨(ih hd hx).1.trans (hstep hd), (ih hd hx).2⟩
    · rw [takenIn_of_not (SessionEvent.isTurnOf_of_isOf he)] at hx
      have hx := hx.resolve_right List.not_mem_nil
      exact ⟨(ih hd hx).1.trans (hstep hd), (ih hd hx).2⟩

/-- The stream of a channel of a built-in type that is found. -/
theorem messages_of_shows {url : String} {options : ChannelOptions}
    (hb : bundle ∈ Bundle.builtin) (ht : t ∈ bundle.types)
    (hc : ((start url options).run events).channels[i]? = some c)
    (hname : c.topic.typeName = t.typeName) (hk : c.kind.Shows t shown) :
    c.messages = c.topic.retention.arrange
      (((start url options).takenBy i events).filterMap fun x =>
        ((loadBuiltin c.topic.source t.typeName).bind fun _ =>
          (t.decodeMessage x.frame).map shown).toOption) := by
  have houtcome : ∀ x ∈ (start url options).takenBy i events, x.outcome =
      (loadBuiltin c.topic.source t.typeName).bind fun _ =>
        (t.decodeMessage x.frame).map shown := by
    intro x hx
    obtain ⟨halike, hf⟩ := of_mem_takenBy hc hx
    rw [halike.topic_eq] at hname ⊢
    rw [halike.kind_eq] at hk
    exact Channel.outcome_of_shows hf hb ht hname hk x.frame
  have hmessages := (account_run rfl hc).messages_eq
  rw [Taking.readings_eq_filterMap] at hmessages
  · rw [hmessages]
    exact congrArg _ (List.filterMap_congr fun x hx => by rw [houtcome x hx])
  · -- only a type that is not found fails so, and it is not found for any frame
    intro x hx hfails y hy
    rw [Taking.failsToLoad, houtcome x hx] at hfails
    rw [houtcome y hy]
    cases hload : loadBuiltin c.topic.source t.typeName with
    | error e => rfl
    | ok found =>
      rw [hload] at hfails
      cases hdecode : t.decodeMessage x.frame with
      | ok m => simp [Except.bind, Except.map, hdecode] at hfails
      | error e =>
        simp [Except.bind, Except.map, hdecode, Channel.isSchemaFailure_of_decodeMessage hdecode]
          at hfails

/-- **A message of a built-in type is read as it was sent.** A cache decodes a frame as the
type exactly when the frame has a structured value, and fails otherwise with the same
error. What it decodes is the conforming message that the frame has on the wire, the very
doubles included. So a channel of that type shows the messages of exactly those frames it
takes that have one; without its schema it shows nothing. -/
theorem typed_as_sent (hb : bundle ∈ Bundle.builtin) (ht : t ∈ bundle.types) :
    (∀ (cache : SchemaCache) (source : String) (bytes : Bytes), cache.Faithful loadBuiltin →
      ((∃ m, (cache.decodeAs (t.layout.ofJson t.name) .builtin source t.typeName bytes).1 =
          .ok m) ↔
        ∃ v, (cache.decode .builtin source t.typeName bytes).1 = .ok v) ∧
      (∀ e, (cache.decodeAs (t.layout.ofJson t.name) .builtin source t.typeName bytes).1 =
          .error e ↔
        (cache.decode .builtin source t.typeName bytes).1 = .error e) ∧
      ∀ m, (cache.decodeAs (t.layout.ofJson t.name) .builtin source t.typeName bytes).1 =
          .ok m ↔
        loadBuiltin source t.typeName = .ok t ∧
          t.layout.decode t.name bytes = .ok m ∧ t.layout.verify m = .ok ()) ∧
    ∀ (url : String) (options : ChannelOptions) (events : List SessionEvent) (i : Nat)
      (c : Channel) (shown : t.layout.Content → Message),
      ((start url options).run events).channels[i]? = some c →
      c.topic.typeName = t.typeName → c.kind.Shows t shown →
        Function.Injective shown ∧
        (loadBuiltin c.topic.source t.typeName = .ok t →
          c.messages = c.topic.retention.arrange
            (((start url options).takenBy i events).filterMap fun x =>
              ((t.decodeMessage x.frame).map shown).toOption)) ∧
        (loadBuiltin c.topic.source t.typeName ≠ .ok t → c.messages = []) := by
  refine ⟨fun cache source bytes hcache => ?_, fun url options events i c shown hc hname hk => ?_⟩
  · have hplain := hcache.decode_own hb ht source bytes
    have hmessage := fun m => hcache.decodeAs_own_eq_ok_iff hb ht source bytes (m := m)
    refine ⟨?_, fun e => ?_, hmessage⟩ <;> rw [hplain]
    · constructor
      · rintro ⟨m, hm⟩
        exact ⟨t.layout.toJson m, by rw [hm]; rfl⟩
      · rintro ⟨v, hv⟩
        obtain ⟨m, hm, -⟩ := exists_of_map_eq_ok hv
        exact ⟨m, hm⟩
    · cases (cache.decodeAs (t.layout.ofJson t.name) .builtin source t.typeName bytes).1 with
      | ok m => exact ⟨nofun, nofun⟩
      | error e' => exact ⟨fun h => by cases h; rfl, fun h => by cases h; rfl⟩
  · have hmessages := messages_of_shows hb ht hc hname hk
    refine ⟨hk.injective, fun hload => ?_, fun hload => ?_⟩
    · rw [hmessages, hload]
      rfl
    · have hnone : ∀ x ∈ (start url options).takenBy i events,
          ((loadBuiltin c.topic.source t.typeName).bind fun _ =>
            (t.decodeMessage x.frame).map shown).toOption = none := by
        intro x _
        cases h : loadBuiltin c.topic.source t.typeName with
        | error e => rfl
        | ok found =>
          rw [MessageType.eq_of_loadBuiltin hb ht h] at h
          exact absurd h hload
      rw [hmessages, List.filterMap_eq_nil_iff.2 hnone, Retention.arrange_nil]

/-- A channel of price levels that takes a frame with a negative zero for a price, a frame
that is cut short and a frame with an infinite price. -/
def levels : List SessionEvent :=
  let topic : Topic :=
    ⟨"levels", Topic.orderBookSchema, "order_book.OrderLevel", .arrivalOrder⟩
  [.openChannel topic (.subscribe topic.channel) {} (.ofType .orderLevel), .turn 0 .stateFirst,
    .act 1 .markOpen, .turn 0 .stateFirst, .act 1 (.dispatch [9, 0, 0, 0, 0, 0, 0, 0, 128]),
    .act 1 (.dispatch [10, 5]), .act 1 (.dispatch [9, 0, 0, 0, 0, 0, 0, 240, 127]),
    .turn 0 .stateFirst]

theorem typed_as_sent_levels :
    (({} : SchemaCache).decodeAs (orderLevelLayout.ofJson "OrderLevel") .builtin
        Topic.orderBookSchema "order_book.OrderLevel" [9, 0, 0, 0, 0, 0, 0, 0, 128]).1 =
      .ok (⟨0x8000000000000000⟩, ⟨0⟩, 0, ()) ∧
    ∃ c, ((start "ws://localhost:4010/ws" {}).run levels).channels[0]? = some c ∧
      c.messages = [.ofType .orderLevel (⟨0x8000000000000000⟩, ⟨0⟩, 0, ())] := by
  have hb : Bundle.builtin[0] ∈ Bundle.builtin := List.mem_cons_self
  obtain ⟨hcodec, hchannel⟩ := typed_as_sent (t := .orderLevel) hb (by decide)
  obtain ⟨-, -, hmessage⟩ := hcodec {} Topic.orderBookSchema [9, 0, 0, 0, 0, 0, 0, 0, 128]
    SchemaCache.faithful_empty
  refine ⟨(hmessage _).2 ⟨by decide +kernel, rfl, rfl⟩, ?_⟩
  have hframes : ((start "ws://localhost:4010/ws" {}).takenBy 0 levels).map (·.frame) =
      [[9, 0, 0, 0, 0, 0, 0, 0, 128], [10, 5], [9, 0, 0, 0, 0, 0, 0, 240, 127]] := by
    decide +kernel
  have hopened : (((start "ws://localhost:4010/ws" {}).run levels).channels[0]?.map fun c =>
      (c.topic, c.kind)) =
        some (⟨"levels", Topic.orderBookSchema, "order_book.OrderLevel", .arrivalOrder⟩,
          .ofType .orderLevel) := by decide +kernel
  obtain ⟨c, hc, heq⟩ := Option.map_eq_some_iff.1 hopened
  obtain ⟨htopic, hkind⟩ := Prod.mk.inj heq
  obtain ⟨-, hstream, -⟩ := hchannel _ _ _ _ _ (.ofType .orderLevel) hc (by rw [htopic]; rfl)
    (by rw [hkind]; exact .ofType _)
  refine ⟨c, hc, ?_⟩
  rw [hstream (by rw [htopic]; decide +kernel), htopic]
  have hread := List.filterMap_map (f := fun x : Taking => x.frame) (g := fun frame : Bytes =>
    ((MessageType.orderLevel.decodeMessage frame).map (Message.ofType .orderLevel)).toOption)
    (l := (start "ws://localhost:4010/ws" {}).takenBy 0 levels)
  rw [hframes] at hread
  exact hread.symm

end Session

end PushFeed
