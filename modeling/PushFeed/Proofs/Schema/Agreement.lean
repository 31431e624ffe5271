import PushFeed.Proofs.Schema.Normal
/-!
# One conformance for both directions

Encoding refuses values that do not conform and decoding frames that do not, each by a look
at the message in between. What that look lets through is said here of the structured value
alone: `Json.Conforms` goes over whatever stands under a key, at any depth, and the check of
a built-in type passes exactly the messages whose values are so (`Layout.conforms_toJson_iff`).

So a value has a frame exactly if the frame of its message has a value, and where there is
none both directions name the same violation (`MessageType.encode_agrees`).
-/

namespace PushFeed

open Wire

/-! ## Values that conform -/

/-- What a value of a plain kind looks like in JSON if it conforms. -/
def Wire.Scalar.Fits : Scalar → Json → Prop
  | .amount, v => ∃ d : Binary64, v = .num (.double d) ∧ d.isFinite = true ∧ 0 ≤ d.orderKey
  | .moment, v => ∃ n : UInt64, v = .num (.natural n)
  | .choice choices, v => ∃ n : UInt64, v = .num (.natural n) ∧ n.toNat < choices
  | .count, _ => True
  | .text, _ => True
  | .optionalText, _ => True

/-- The plain kinds of the built-in messages, by the keys that they stand under. -/
def plainKinds : List (String × Scalar) :=
  [("price", .amount), ("shares", .amount), ("yesPrice", .amount), ("noPrice", .amount),
    ("timestamp", .moment), ("channel", .choice envelopeChannels.length),
    ("ops", .choice envelopeOperations.length), ("users", .count), ("marketId", .text),
    ("params", .text), ("id", .optionalText)]

namespace Json

/-- Whether `x` stands under a key in a value, at any depth. -/
inductive Holds : Json → String → Json → Prop where
  /-- It is an entry. -/
  | entry {entries : List (String × Json)} {key : String} {x : Json} (h : (key, x) ∈ entries) :
      Holds (.obj entries) key x
  /-- It stands inside an entry. -/
  | inEntry {entries : List (String × Json)} {k key : String} {v x : Json} (h : (k, v) ∈ entries)
      (inner : Holds v key x) : Holds (.obj entries) key x
  /-- It stands inside an item of a list. -/
  | inItem {items : List Json} {v : Json} {key : String} {x : Json} (h : v ∈ items)
      (inner : Holds v key x) : Holds (.arr items) key x

/-- Whether what stands under the key of a plain kind conforms to it, at every depth: prices
and shares are finite and not negative, moments are not negative and choices are known. -/
def Conforms (v : Json) : Prop :=
  ∀ key x, v.Holds key x → ∀ kind ∈ plainKinds.lookup key, kind.Fits x

variable {entries : List (String × Json)} {items : List Json}

@[simp] theorem conforms_null : null.Conforms := nofun

@[simp] theorem conforms_num (n : JsonNumber) : (num n).Conforms := nofun

@[simp] theorem conforms_str (s : String) : (str s).Conforms := nofun

theorem conforms_arr_iff : (arr items).Conforms ↔ ∀ v ∈ items, v.Conforms := by
  constructor
  · exact fun h v hv key x hx => h key x (.inItem hv hx)
  · intro h key x hx
    cases hx with
    | inItem hv hx => exact h _ hv key x hx

theorem conforms_obj_iff :
    (obj entries).Conforms ↔
      ∀ e ∈ entries, (∀ kind ∈ plainKinds.lookup e.1, kind.Fits e.2) ∧ e.2.Conforms := by
  constructor
  · exact fun h e he => ⟨h e.1 e.2 (.entry he), fun key x hx => h key x (.inEntry he hx)⟩
  · intro h key x hx
    cases hx with
    | entry he => exact (h _ he).1
    | inEntry he hx => exact (h _ he).2 key x hx

/-- The order in which an object is put together does not matter. -/
theorem conforms_object_iff (h : (entries.map (·.1)).Nodup) :
    (object entries).Conforms ↔
      ∀ e ∈ entries, (∀ kind ∈ plainKinds.lookup e.1, kind.Fits e.2) ∧ e.2.Conforms := by
  obtain ⟨sorted, hsorted, hperm⟩ := object_perm h
  rw [hsorted, conforms_obj_iff]
  simp only [hperm.mem_iff]

end Json

namespace Wire

/-! ## Plain kinds -/

/-- An amount that may pass is finite and no less than zero. -/
theorem amountOk_iff {d : Binary64} : amountOk d = true ↔ d.isFinite = true ∧ 0 ≤ d.orderKey := by
  unfold amountOk Binary64.orderKey Binary64.isZero
  cases d.negative <;> simp

theorem fits_ofInt64_iff {n : Int64} {choices : Nat} :
    (∃ u : UInt64, Json.ofInt64 n = .num (.natural u) ∧ u.toNat < choices) ↔
      0 ≤ n.toInt ∧ n.toInt < choices := by
  by_cases hneg : n < 0
  · have hlt := Int64.lt_iff_toInt_lt.1 hneg
    rw [Json.ofInt64, if_pos hneg]
    simp at hlt ⊢
    omega
  · have hvalue := toNat_toUInt64 hneg
    rw [Json.ofInt64, if_neg hneg]
    simp only [Json.num.injEq, JsonNumber.natural.injEq, exists_eq_left']
    omega

namespace Scalar

/-- A value conforms exactly if it looks so in JSON. -/
theorem fits_toJson_iff (s : Scalar) (x : s.Content) : s.Fits (s.toJson x) ↔ s.bad? x = none := by
  cases s with
  | amount =>
    have hbad : bad? .amount x = none ↔ amountOk x = true := by
      simp [bad?]
    rw [hbad, amountOk_iff]
    simp only [Fits, toJson, Json.ofBinary64]
    cases hfinite : Binary64.isFinite x with
    | true => simp [hfinite]
    | false => simp
  | moment =>
    simp only [Fits, toJson, Json.ofInt64, bad?]
    split <;> simp
  | choice choices =>
    have hwide : (Int32.toInt64 x).toInt = Int32.toInt x := Int32.toInt_toInt64 x
    simp only [Fits, toJson, Json.ofInt32, bad?]
    rw [fits_ofInt64_iff, hwide]
    simp
  | count | text | optionalText => simp [Fits, bad?]

/-- Nothing stands inside a plain value. -/
theorem conforms_toJson (s : Scalar) (x : s.Content) : (s.toJson x).Conforms := by
  cases s with
  | amount =>
    simp only [toJson, Json.ofBinary64]
    split
    · exact Json.conforms_num _
    · exact Json.conforms_null
  | count | moment | choice => exact Json.conforms_num _
  | text => exact Json.conforms_str _
  | optionalText =>
    cases x with
    | none => exact Json.conforms_null
    | some s => exact Json.conforms_str s

end Scalar

/-! ## Messages -/

namespace Layout

/-- Whether all plain fields are of the kind that is listed for their key, and no other field
has a key from the list. -/
def hasListedKinds : Layout → Bool
  | .done => true
  | .scalar slot kind rest => plainKinds.lookup slot.key == some kind && rest.hasListedKinds
  | .message slot _ inner rest =>
    plainKinds.lookup slot.key == none && inner.hasListedKinds && rest.hasListedKinds
  | .repeated slot _ inner rest =>
    plainKinds.lookup slot.key == none && inner.hasListedKinds && rest.hasListedKinds

/-- A message conforms as its entries do. -/
theorem conforms_object_entries_iff {l : Layout} (hkeys : l.hasOwnKeys = true) (c : l.Content) :
    (Json.object (l.entries c)).Conforms ↔
      ∀ e ∈ l.entries c, (∀ kind ∈ plainKinds.lookup e.1, kind.Fits e.2) ∧ e.2.Conforms :=
  Json.conforms_object_iff (by rw [keys_entries]; exact nodup_keys hkeys)

/-- The check of a message comes to what its entries have to be like. -/
theorem conforms_entries_iff {l : Layout} (hkeys : l.hasOwnKeys = true)
    (hkinds : l.hasListedKinds = true) (c : l.Content) :
    (∀ e ∈ l.entries c, (∀ kind ∈ plainKinds.lookup e.1, kind.Fits e.2) ∧ e.2.Conforms) ↔
      l.violation? c = none := by
  induction l with
  | done => simp [entries, violation?]
  | scalar slot kind rest ih =>
    obtain ⟨x, more⟩ := c
    obtain ⟨-, hrest⟩ := hasOwnKeys_scalar_iff.1 hkeys
    simp only [hasListedKinds, Bool.and_eq_true, beq_iff_eq] at hkinds
    rw [entries, List.forall_mem_cons, violation?_scalar_iff, ih hrest hkinds.2]
    simp [hkinds.1, Scalar.fits_toJson_iff, Scalar.conforms_toJson]
  | message slot name inner rest ihi ih =>
    obtain ⟨m, more⟩ := c
    obtain ⟨-, hinner, hrest⟩ := hasOwnKeys_message_iff.1 hkeys
    simp only [hasListedKinds, Bool.and_eq_true, beq_iff_eq] at hkinds
    rw [violation?_message_iff, ← ih hrest hkinds.2]
    cases m with
    | none => simp [entries, hkinds.1.1]
    | some i =>
      have hi := (conforms_object_entries_iff hinner i).trans (ihi hinner hkinds.1.2 i)
      simp [entries, hkinds.1.1, hi]
  | repeated slot name inner rest ihi ih =>
    obtain ⟨ms, more⟩ := c
    obtain ⟨-, hinner, hrest⟩ := hasOwnKeys_repeated_iff.1 hkeys
    simp only [hasListedKinds, Bool.and_eq_true, beq_iff_eq] at hkinds
    have hi (i : inner.Content) :=
      (conforms_object_entries_iff hinner i).trans (ihi hinner hkinds.1.2 i)
    rw [violation?_repeated_iff, ← ih hrest hkinds.2]
    simp [entries, hkinds.1.1, Json.conforms_arr_iff, hi]

/-- **A message passes the check exactly if its structured value conforms.** -/
theorem conforms_toJson_iff {l : Layout} (hkeys : l.hasOwnKeys = true)
    (hkinds : l.hasListedKinds = true) (c : l.Content) :
    (l.toJson c).Conforms ↔ l.verify c = .ok () := by
  rw [toJson, conforms_object_entries_iff hkeys, conforms_entries_iff hkeys hkinds,
    verify_eq_ok_iff]

end Layout

end Wire

/-! ## Both directions -/

namespace MessageType

variable {t : MessageType} {bundle : Bundle} {v : Json} {m : t.layout.Content}

/-- The plain fields of the built-in types are of the listed kinds. -/
theorem hasListedKinds_of_mem_builtin (hb : bundle ∈ Bundle.builtin) (ht : t ∈ bundle.types) :
    t.layout.hasListedKinds = true := by
  have h : ∀ b ∈ Bundle.builtin, ∀ t ∈ b.types, t.layout.hasListedKinds = true := by
    decide +kernel
  exact h bundle hb t ht

/-- A message of a built-in type passes the check exactly if its structured value conforms. -/
theorem conforms_toJson_iff (hb : bundle ∈ Bundle.builtin) (ht : t ∈ bundle.types)
    (m : t.layout.Content) : (t.layout.toJson m).Conforms ↔ t.layout.verify m = .ok () :=
  Layout.conforms_toJson_iff (isSound_of_mem_builtin hb ht).2
    (hasListedKinds_of_mem_builtin hb ht) m

/-- Every value of a frame conforms. -/
theorem conforms_of_decode (hb : bundle ∈ Bundle.builtin) (ht : t ∈ bundle.types) {bytes : Bytes}
    {w : Json} (h : t.decode bytes = .ok w) : w.Conforms := by
  obtain ⟨m, hm, rfl⟩ := decode_eq_ok h
  exact (conforms_toJson_iff hb ht m).2 (decodeMessage_eq_ok_iff.1 hm).2

section Between

variable (hm : t.layout.ofJson t.name v = .ok m)

include hm

/-- A value of a message that passes the check has the message's frame. -/
theorem encode_of_verify (hverify : t.layout.verify m = .ok ()) :
    t.encode v = .ok (t.layout.encode m) := by
  simp only [encode, hm, encodeMessage, hverify]

/-- A value is refused for what is wrong with its message. -/
theorem encode_of_violation {violation : Violation}
    (hverify : t.layout.verify m = .error violation) :
    t.encode v = .error (.validation (t.about violation.text)) := by
  simp only [encode, hm, encodeMessage, hverify]

end Between

/-- The frame of a message is refused for what is wrong with the message. -/
theorem decode_encode_of_violation (hb : bundle ∈ Bundle.builtin) (ht : t ∈ bundle.types)
    {violation : Violation} (hverify : t.layout.verify m = .error violation)
    (hsize : (t.layout.encode m).length < twoTo 64) :
    t.decode (t.layout.encode m) = .error (.decode (t.about violation.text)) := by
  have hsound := (isSound_of_mem_builtin hb ht).1
  rw [decode, decodeMessage, Layout.decode_encode hsound m hsize]
  simp only [Layout.verify_normal, hverify]
  rfl

/-- **Both directions enforce the same conformance.** A value that is read as a message has a
frame exactly if the message's own frame has a value, and that is if the message's structured
value conforms. If one direction fails, so does the other: encoding as a failed validation,
decoding as a malformed frame, and both with the text of one violation. What is decoded
conforms, whatever frame it came in. -/
theorem encode_agrees (hb : bundle ∈ Bundle.builtin) (ht : t ∈ bundle.types)
    (hm : t.layout.ofJson t.name v = .ok m) (hsize : (t.layout.encode m).length < twoTo 64) :
    ((∃ bytes, t.encode v = .ok bytes) ↔ ∃ w, t.decode (t.layout.encode m) = .ok w) ∧
      ((∃ bytes, t.encode v = .ok bytes) ↔ (t.layout.toJson m).Conforms) ∧
      (∀ e, t.encode v = .error e → ∃ violation, t.layout.verify m = .error violation ∧
        e = .validation (t.about violation.text) ∧
        t.decode (t.layout.encode m) = .error (.decode (t.about violation.text))) ∧
      (∀ e, t.decode (t.layout.encode m) = .error e → ∃ violation,
        t.layout.verify m = .error violation ∧ e = .decode (t.about violation.text) ∧
        t.encode v = .error (.validation (t.about violation.text))) ∧
      ∀ frame w, t.decode frame = .ok w → w.Conforms := by
  have hconforms := conforms_toJson_iff hb ht m
  have hframes : ∀ frame w, t.decode frame = .ok w → w.Conforms :=
    fun _ _ => conforms_of_decode hb ht
  -- the one check in between decides both directions
  cases hverify : t.layout.verify m with
  | ok _ =>
    have hencode := encode_of_verify hm hverify
    have hdecode := decode_encode hb ht hverify hsize
    rw [hverify] at hconforms
    rw [hencode, hdecode]
    exact ⟨⟨fun _ => ⟨_, rfl⟩, fun _ => ⟨_, rfl⟩⟩, ⟨fun _ => hconforms.2 rfl, fun _ => ⟨_, rfl⟩⟩,
      nofun, nofun, hframes⟩
  | error violation =>
    have hencode := encode_of_violation hm hverify
    have hdecode := decode_encode_of_violation hb ht hverify hsize
    rw [hverify] at hconforms
    rw [hencode, hdecode]
    refine ⟨⟨nofun, nofun⟩, ⟨nofun, fun h => nomatch hconforms.1 h⟩, ?_, ?_, hframes⟩
    · rintro e ⟨⟩
      exact ⟨violation, rfl, rfl, rfl⟩
    · rintro e ⟨⟩
      exact ⟨violation, rfl, rfl, rfl⟩

/-- A channel that is not known, three messages deep. -/
theorem encode_agrees_envelope :
    envelope.encode (.obj [("payload", .obj [("data", .obj [("channel", .num (.natural 7))])])]) =
        .error (.validation
          "ws_common_types.WsMessage: payload.data.channel: enum value expected, got 7") ∧
      envelope.decode (envelopeLayout.encode (none, some (0, some (7, "", ()), ()), ())) =
        .error (.decode
          "ws_common_types.WsMessage: payload.data.channel: enum value expected, got 7") := by
  have hencode : envelope.encode
      (.obj [("payload", .obj [("data", .obj [("channel", .num (.natural 7))])])]) =
        .error (.validation
          "ws_common_types.WsMessage: payload.data.channel: enum value expected, got 7") := by
    decide +kernel
  have hread : envelopeLayout.ofJson "WsMessage"
      (.obj [("payload", .obj [("data", .obj [("channel", .num (.natural 7))])])]) =
        .ok (none, some (0, some (7, "", ()), ()), ()) := rfl
  have hb : (⟨Topic.commonSchema, [envelope, envelopePayload, envelopeData]⟩ : Bundle) ∈
      Bundle.builtin := by decide
  obtain ⟨-, -, hfails, -⟩ := encode_agrees hb List.mem_cons_self hread (by decide)
  obtain ⟨violation, -, htext, hdecode⟩ := hfails _ hencode
  refine ⟨hencode, hdecode.trans ?_⟩
  rw [FeedError.validation.inj htext]

end MessageType

end PushFeed
