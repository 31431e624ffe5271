import PushFeed.Proofs.Channel.Stream
import PushFeed.Proofs.Schema.Crossing
import PushFeed.Proofs.Schema.Typed
/-!
# What channels are about

The subject of a channel is the books or the prices of one market. A `Post` is a
conforming message of either kind, whose frame is offered to the channels of all
subjects. What a channel makes of it is `Post.readBy`: its own kind it reads for any
market, and of the other kind it takes a bare message for an empty one of its own.
-/

namespace PushFeed

open Wire

/-- What a channel is about. -/
inductive Subject where
  /-- The books of a market. -/
  | books (market : String)
  /-- The prices of a market. -/
  | prices (market : String)
  deriving DecidableEq, Repr

namespace Subject

/-- The market it is about. -/
def market : Subject → String
  | .books market => market
  | .prices market => market

/-- The same kind of subject in another market. -/
def inMarket (t : Subject) (market : String) : Subject :=
  match t with
  | .books _ => .books market
  | .prices _ => .prices market

theorem inMarket_eq_iff {t : Subject} {market : String} :
    t.inMarket market = t ↔ market = t.market := by
  cases t <;> simp [inMarket, Subject.market]

/-- What its messages are read as. -/
def kind : Subject → MessageKind
  | .books _ => .book
  | .prices _ => .price

/-- The topic of the subject, with the schema files below the given root. -/
def topic (t : Subject) (root : String) (retention : Retention) : Topic :=
  match t with
  | .books market => { Topic.orderBook market root with retention }
  | .prices market => { Topic.marketPrice market root with retention }

/-- The type of its frames. -/
def messageType : Subject → MessageType
  | .books _ => .marketBook
  | .prices _ => .pricePayload

/-- The type of a subject's frames is found where its topic says. -/
theorem load_topic (t : Subject) (root : String) (retention : Retention) :
    loadBuiltin (t.topic root retention).source (t.topic root retention).typeName =
      .ok t.messageType := by
  cases t with
  | books =>
    exact loadBuiltin_schemaPath (b := ⟨Topic.orderBookSchema, _⟩) (t := .marketBook)
      List.mem_cons_self List.mem_cons_self root
  | prices =>
    exact loadBuiltin_schemaPath (b := ⟨Topic.marketPriceSchema, _⟩) (t := .pricePayload)
      (List.mem_cons_of_mem _ List.mem_cons_self) List.mem_cons_self root

end Subject

/-- What a message is about. -/
def Message.subject? : Message → Option Subject
  | .book b => some (.books b.marketId)
  | .price p => some (.prices p.marketId)
  | .ofType _ _ => none
  | .control _ => none
  | .value _ => none

/-- Whether a message conforms and has a frame that its length can be told of. -/
def Wire.Layout.Sendable (l : Layout) (c : l.Content) : Prop :=
  l.verify c = .ok () ∧ (l.encode c).length < twoTo 64

/-- A conforming message of one of the two kinds. -/
inductive Post where
  /-- The books of a market. -/
  | books (b : MarketBook) (sendable : marketBookLayout.Sendable b.toContent)
  /-- The prices of a market. -/
  | prices (p : PricePayload) (sendable : pricePayloadLayout.Sendable p.toContent)

namespace Post

/-- The subject of a post. -/
def subject : Post → Subject
  | .books b _ => .books b.marketId
  | .prices p _ => .prices p.marketId

/-- The bytes of a post. -/
def frame : Post → Bytes
  | .books b _ => marketBookLayout.encode b.toContent
  | .prices p _ => pricePayloadLayout.encode p.toContent

/-- Whether a post says nothing but its market. -/
def isBare : Post → Bool
  | .books b _ => b.isBare
  | .prices p _ => p.isBare

/-- Whether a channel of the subject can tell that the post is not of its own kind. -/
def IsForeignTo (p : Post) (t : Subject) : Prop := p.subject.kind ≠ t.kind ∧ p.isBare = false

/-- What a channel of a subject reads a post as, if anything. -/
def readBy (p : Post) (t : Subject) : Option Message :=
  match t, p with
  | .books _, .books b _ =>
    some (.book (.ofContent (marketBookLayout.normal b.toContent)))
  | .prices _, .prices p _ =>
    some (.price (.ofContent (pricePayloadLayout.normal p.toContent)))
  | .books _, .prices p _ => if p.isBare then some (.book (.bare p.marketId)) else none
  | .prices _, .books b _ => if b.isBare then some (.price (.bare b.marketId)) else none

variable {p : Post} {t : Subject} {m : Message}

theorem readBy_eq_none_iff : p.readBy t = none ↔ p.IsForeignTo t := by
  cases t <;> cases p <;> simp [readBy, IsForeignTo, subject, Subject.kind, isBare]

/-- What is read keeps the market of the post, and has the kind of the channel. -/
theorem subject?_of_readBy (h : p.readBy t = some m) :
    m.subject? = some (t.inMarket p.subject.market) := by
  cases t <;> cases p <;> simp only [readBy, Option.ite_none_right_eq_some] at h
  · cases h
    rfl
  · obtain ⟨-, h⟩ := h
    cases h
    rfl
  · obtain ⟨-, h⟩ := h
    cases h
    rfl
  · cases h
    rfl

/-! ## Reading a frame -/

/-- A frame of a subject's type is read as a message of the subject's kind. -/
theorem ofJson_of_decodeMessage_book {bytes : Bytes} {c : marketBookLayout.Content}
    (h : MessageType.marketBook.decodeMessage bytes = .ok c) (typeName : String) :
    (MessageType.marketBook.decode bytes).bind (typedValue typeName (Message.ofJson .book)) =
      .ok (.book (.ofContent c)) := by
  have hreader : ∀ v, Message.ofJson .book v = (marketBookLayout.ofJson "MarketBook" v).map _ :=
    fun _ => rfl
  rw [MessageType.typedValue_decode (t := .marketBook) (by decide) hreader, h]
  rfl

theorem ofJson_of_decodeMessage_price {bytes : Bytes} {c : pricePayloadLayout.Content}
    (h : MessageType.pricePayload.decodeMessage bytes = .ok c) (typeName : String) :
    (MessageType.pricePayload.decode bytes).bind (typedValue typeName (Message.ofJson .price)) =
      .ok (.price (.ofContent c)) := by
  have hreader : ∀ v,
      Message.ofJson .price v = (pricePayloadLayout.ofJson "WsParamsPayload" v).map _ :=
    fun _ => rfl
  rw [MessageType.typedValue_decode (t := .pricePayload) (by decide) hreader, h]
  rfl

/-- A frame that is refused is refused whatever its value was to be read as. -/
theorem bind_of_decodeMessage_error {α : Type} {t : MessageType} {bytes : Bytes} {e : FeedError}
    (h : t.decodeMessage bytes = .error e) (use : Json → Except FeedError α) :
    (t.decode bytes).bind use = .error e := by
  rw [MessageType.decode, h]
  rfl

end Post

namespace Channel

variable {c d : Channel} {f : Feed} {t : Subject} {p : Post} {m : Message}

/-- Whether the channel was opened for the subject, with any retention and any schema
root. -/
def Serves (c : Channel) (t : Subject) : Prop :=
  c.kind = t.kind ∧ ∃ root retention, c.topic = t.topic root retention

theorem Alike.serves_iff (h : Alike c d) : d.Serves t ↔ c.Serves t := by
  rw [Serves, Serves, h.kind_eq, h.topic_eq]

/-- A channel decodes with the built-in type of its subject. -/
theorem Serves.outcome_eq (hc : c.Serves t) (hf : f.Faithful) (frame : Bytes) :
    c.outcome f frame = (t.messageType.decode frame).bind
      (typedValue c.topic.typeName (Message.ofJson t.kind)) := by
  obtain ⟨hkind, root, retention, htopic⟩ := hc
  rw [outcome, (hf.decodeAs _ _ _ _).1, htopic, t.load_topic, hkind]
  rfl

/-- **What a channel reads a post as**, whatever has been decoded before. -/
theorem Serves.outcome_of_readBy (hc : c.Serves t) (hf : f.Faithful) (h : p.readBy t = some m) :
    c.outcome f p.frame = .ok m := by
  rw [hc.outcome_eq hf]
  -- its own kind a channel reads whole, of the other kind a bare post only
  cases t <;> cases p <;>
    simp only [Post.readBy, Option.ite_none_right_eq_some, Option.some.injEq] at h
  · rename_i market b sendable
    subst h
    exact Post.ofJson_of_decodeMessage_book (MessageType.decodeMessage_encode (t := .marketBook)
      (b := Bundle.builtin[0]) (by decide) (by decide) sendable.1 sendable.2) _
  · rename_i market p sendable
    obtain ⟨hbare, rfl⟩ := h
    exact Post.ofJson_of_decodeMessage_book
      (MessageType.decodeMessage_marketBook_of_bare sendable.2 hbare) _
  · rename_i market b sendable
    obtain ⟨hbare, rfl⟩ := h
    exact Post.ofJson_of_decodeMessage_price
      (MessageType.decodeMessage_pricePayload_of_bare sendable.2 hbare) _
  · rename_i market p sendable
    subst h
    exact Post.ofJson_of_decodeMessage_price (MessageType.decodeMessage_encode (t := .pricePayload)
      (b := Bundle.builtin[1]) (by decide) (by decide) sendable.1 sendable.2) _

/-- A post that a channel does not read it takes for one of another topic. -/
theorem Serves.outcome_of_isForeignTo (hc : c.Serves t) (hf : f.Faithful) (h : p.IsForeignTo t) :
    ∃ reason, c.outcome f p.frame = .error (.foreignFrame reason) := by
  obtain ⟨hkind, hbare⟩ := h
  rw [hc.outcome_eq hf]
  cases t <;> cases p
  · exact absurd rfl hkind
  · rename_i market p sendable
    obtain ⟨reason, hreason⟩ := MessageType.decodeMessage_marketBook_of_price sendable.2 hbare
    exact ⟨reason, Post.bind_of_decodeMessage_error hreason _⟩
  · rename_i market b sendable
    obtain ⟨reason, hreason⟩ := MessageType.decodeMessage_pricePayload_of_book sendable.2 hbare
    exact ⟨reason, Post.bind_of_decodeMessage_error hreason _⟩
  · exact absurd rfl hkind

end Channel

end PushFeed
