import PushFeed.Schema.Codec
import PushFeed.Proofs.Wire.Faults
/-!
# Classes of faults

A frame that cannot be read is classified by the text of its fault. The text is made of the
names of the type and of the fields around the fault, and of the text of its cause. None of
the names can be the beginning of one of the phrases that decide (`Text.isClear`), so the
names have no say in it: the class is that of the cause (`MessageType.decode_eq_errorOf`).
Missing bytes and an open end make a frame truncated, another layout makes it foreign, and
whatever else is wrong makes it malformed (`decode_classified`).
-/

namespace PushFeed

open Wire

/-! ## Occurrences in a text -/

namespace Text

/-- Whether no occurrence of a part can begin in a text, whatever stands behind the text. -/
def isClear (part : List Char) : List Char → Bool
  | [] => true
  | c :: cs => !part.isPrefixOf (c :: cs) && !(c :: cs).isPrefixOf part && isClear part cs

variable {part front : List Char}

/-- What cannot begin in the front of a text occurs in the text if it occurs in the rest. -/
theorem occursIn_append_of_isClear (h : isClear part front = true) (rest : List Char) :
    occursIn part (front ++ rest) = occursIn part rest := by
  induction front with
  | nil => rfl
  | cons c cs ih =>
    simp only [isClear, Bool.and_eq_true, Bool.not_eq_true', ← Bool.not_eq_true,
      List.isPrefixOf_iff_prefix] at h
    obtain ⟨⟨hpart, hfront⟩, hcs⟩ := h
    have hnot : part.isPrefixOf (c :: cs ++ rest) = false := by
      rw [← Bool.not_eq_true, List.isPrefixOf_iff_prefix]
      intro hprefix
      rcases List.prefix_or_prefix_of_prefix hprefix (List.prefix_append (c :: cs) rest) with
        hshort | hlong
      · exact hpart hshort
      · exact hfront hlong
    rw [List.cons_append] at hnot ⊢
    rw [occursIn, hnot, Bool.false_or, ih hcs]

/-- What begins with a character that a text does not have does not occur in the text. -/
theorem occursIn_eq_false {c : Char} {text : List Char} (h : c ∉ text) :
    occursIn (c :: part) text = false := by
  induction text with
  | nil => rfl
  | cons d ds ih =>
    obtain ⟨hne, hds⟩ := List.ne_and_not_mem_of_not_mem_cons h
    rw [occursIn, ih hds, Bool.or_false, List.isPrefixOf, beq_false_of_ne hne, Bool.false_and]

/-- The front of a text occurs in it. -/
theorem occursIn_append_left (part rest : List Char) : occursIn part (part ++ rest) = true := by
  have hprefix : part.isPrefixOf (part ++ rest) = true :=
    List.isPrefixOf_iff_prefix.2 (List.prefix_append part rest)
  cases htext : part ++ rest with
  | nil => rwa [htext] at hprefix
  | cons c cs =>
    rw [htext] at hprefix
    rw [occursIn, hprefix, Bool.true_or]

/-- What cannot begin in any piece in front of a text occurs if it occurs in the text. -/
theorem occursIn_flatMap_append {α : Type} {piece : α → List Char} {as : List α}
    (h : ∀ a ∈ as, isClear part (piece a) = true) (rest : List Char) :
    occursIn part (as.flatMap piece ++ rest) = occursIn part rest := by
  induction as with
  | nil => rfl
  | cons a as ih =>
    obtain ⟨ha, has⟩ := List.forall_mem_cons.1 h
    rw [List.flatMap_cons, List.append_assoc, occursIn_append_of_isClear ha, ih has]

end Text

open Text

/-! ## What the texts of the causes say -/

/-- The phrases that decide of which class a frame is. -/
def classPhrases : List String := ["buffer underflow", "invalid varint", "invalid wire type: "]

/-- Whether a phrase cannot begin in what the texts of all causes of one kind have in common,
nor in a number or the name of a wire type. -/
structure IsApart (part : List Char) : Prop where
  /-- It does not begin in a number. -/
  number : part.head?.any (fun c => !c.isDigit) = true
  /-- It does not begin before the number of a key. -/
  key : isClear part "invalid key value: ".toList = true
  /-- It does not begin before the code of a wire type. -/
  code : isClear part "invalid wire type value: ".toList = true
  /-- It does not begin in the name of a wire type. -/
  name : ∀ w : WireType, isClear part w.name.toList = true
  /-- It does not begin between two of them. -/
  between : isClear part " (expected ".toList = true
  /-- It is not behind them. -/
  behind : occursIn part ")".toList = false

theorem isApart_of_mem {phrase : String} (h : phrase ∈ classPhrases) : IsApart phrase.toList := by
  simp only [classPhrases, List.mem_cons, List.not_mem_nil, or_false] at h
  rcases h with rfl | rfl | rfl <;> exact
    { number := by decide +kernel
      key := by decide +kernel
      code := by decide +kernel
      name := fun w => by cases w <;> decide +kernel
      between := by decide +kernel
      behind := by decide +kernel }

namespace IsApart

variable {part : List Char}

theorem occursIn_append_toString (h : IsApart part) {front : List Char}
    (hfront : isClear part front = true) (n : Nat) :
    occursIn part (front ++ (toString n).toList) = false := by
  have hdigits : (toString n).toList = Nat.toDigits 10 n := by simp [toString, Nat.repr]
  rw [occursIn_append_of_isClear hfront, hdigits]
  cases part with
  | nil => exact absurd h.number nofun
  | cons c rest =>
    refine occursIn_eq_false fun hmem => ?_
    have hdigit : c.isDigit = true := Nat.isDigit_of_mem_toDigits (by decide) (by decide) hmem
    have hnumber : (!c.isDigit) = true := h.number
    rw [hdigit] at hnumber
    cases hnumber

theorem occursIn_invalidKey (h : IsApart part) (key : Nat) :
    occursIn part (Cause.invalidKey key).message.toList = false := by
  rw [show (Cause.invalidKey key).message = "invalid key value: " ++ toString key from rfl,
    String.toList_append]
  exact h.occursIn_append_toString h.key key

theorem occursIn_unknownWireType (h : IsApart part) (code : Nat) :
    occursIn part (Cause.unknownWireType code).message.toList = false := by
  rw [show (Cause.unknownWireType code).message = "invalid wire type value: " ++ toString code
    from rfl, String.toList_append]
  exact h.occursIn_append_toString h.code code

theorem toList_wireTypeMismatch (actual expected : WireType) :
    (Cause.wireTypeMismatch actual expected).message.toList =
      "invalid wire type: ".toList ++ (actual.name.toList ++ (" (expected ".toList ++
        (expected.name.toList ++ ")".toList))) := by
  rw [show (Cause.wireTypeMismatch actual expected).message =
    "invalid wire type: " ++ actual.name ++ " (expected " ++ expected.name ++ ")" from rfl]
  simp only [String.toList_append, List.append_assoc]

theorem occursIn_wireTypeMismatch (h : IsApart part)
    (hfront : isClear part "invalid wire type: ".toList = true) (actual expected : WireType) :
    occursIn part (Cause.wireTypeMismatch actual expected).message.toList = false := by
  rw [toList_wireTypeMismatch, occursIn_append_of_isClear hfront,
    occursIn_append_of_isClear (h.name actual), occursIn_append_of_isClear h.between,
    occursIn_append_of_isClear (h.name expected), h.behind]

end IsApart

/-- Only the text for missing bytes speaks of an underflow. -/
theorem occursIn_underflow (cause : Cause) :
    occursIn "buffer underflow".toList cause.message.toList = decide (cause = .underflow) := by
  have hapart : IsApart "buffer underflow".toList := isApart_of_mem (by decide)
  cases cause with
  | invalidKey key => exact hapart.occursIn_invalidKey key
  | unknownWireType code => exact hapart.occursIn_unknownWireType code
  | wireTypeMismatch actual expected =>
    exact hapart.occursIn_wireTypeMismatch (by decide +kernel) actual expected
  | invalidVarint | zeroTag | underflow | lengthExceeded | unexpectedEndGroup | recursionLimit
  | notUtf8 => decide +kernel

/-- Only the text for an invalid number speaks of one. -/
theorem occursIn_invalidVarint (cause : Cause) :
    occursIn "invalid varint".toList cause.message.toList = decide (cause = .invalidVarint) := by
  have hapart : IsApart "invalid varint".toList := isApart_of_mem (by decide)
  cases cause with
  | invalidKey key => exact hapart.occursIn_invalidKey key
  | unknownWireType code => exact hapart.occursIn_unknownWireType code
  | wireTypeMismatch actual expected =>
    exact hapart.occursIn_wireTypeMismatch (by decide +kernel) actual expected
  | invalidVarint | zeroTag | underflow | lengthExceeded | unexpectedEndGroup | recursionLimit
  | notUtf8 => decide +kernel

/-- Only the text for a field that is laid out as another one speaks of its wire type. -/
theorem occursIn_invalidWireType (cause : Cause) :
    occursIn "invalid wire type: ".toList cause.message.toList = cause.isMismatch := by
  have hapart : IsApart "invalid wire type: ".toList := isApart_of_mem (by decide)
  cases cause with
  | invalidKey key => exact hapart.occursIn_invalidKey key
  | unknownWireType code => exact hapart.occursIn_unknownWireType code
  | wireTypeMismatch actual expected =>
    rw [IsApart.toList_wireTypeMismatch]
    exact occursIn_append_left _ _
  | invalidVarint | zeroTag | underflow | lengthExceeded | unexpectedEndGroup | recursionLimit
  | notUtf8 => decide +kernel

namespace MessageType

variable {t : MessageType} {bundle : Bundle} {f : Fault} {phrase : String}

/-! ## What the texts around a cause say -/

theorem toList_about (t : MessageType) (f : Fault) :
    (t.about f.message).toList =
      (t.typeName ++ ": ").toList ++ ("failed to decode Protobuf message: ".toList ++
        (f.path.flatMap (fun p => (p.1 ++ "." ++ p.2 ++ ": ").toList) ++
          f.cause.message.toList)) := by
  unfold about Fault.message
  simp only [String.toList_append, String.toList_join, List.append_assoc, List.flatMap_def,
    List.map_map, Function.comp_def]

/-- No phrase that decides begins in the name of a built-in type or of one of its fields. -/
theorem isClear_names (hb : bundle ∈ Bundle.builtin) (ht : t ∈ bundle.types)
    (hphrase : phrase ∈ classPhrases) :
    isClear phrase.toList (t.typeName ++ ": ").toList = true ∧
      ∀ p ∈ t.layout.labels t.name,
        isClear phrase.toList (p.1 ++ "." ++ p.2 ++ ": ").toList = true := by
  have h : ∀ b ∈ Bundle.builtin, ∀ t ∈ b.types, ∀ phrase ∈ classPhrases,
      isClear phrase.toList (t.typeName ++ ": ").toList = true ∧
        ∀ p ∈ t.layout.labels t.name,
          isClear phrase.toList (p.1 ++ "." ++ p.2 ++ ": ").toList = true := by
    decide +kernel
  exact h bundle hb t ht phrase hphrase

/-- **The text of a fault says what its cause says.** -/
theorem occursIn_about_eq (hb : bundle ∈ Bundle.builtin) (ht : t ∈ bundle.types)
    (hpath : ∀ p ∈ f.path, p ∈ t.layout.labels t.name) (hphrase : phrase ∈ classPhrases) :
    occursIn phrase.toList (t.about f.message).toList =
      occursIn phrase.toList f.cause.message.toList := by
  have hfailed : ∀ phrase ∈ classPhrases,
      isClear phrase.toList "failed to decode Protobuf message: ".toList = true := by
    decide +kernel
  obtain ⟨hname, hfields⟩ := isClear_names hb ht hphrase
  rw [toList_about, occursIn_append_of_isClear hname,
    occursIn_append_of_isClear (hfailed phrase hphrase),
    occursIn_flatMap_append fun p hp => hfields p (hpath p hp)]

/-! ## The class of a frame -/

/-- The kind of error for a frame, by the cause of its fault. -/
def errorOf (cause : Cause) (bytes : Bytes) (text : String) : FeedError :=
  match cause with
  | .underflow => .truncatedFrame text
  | .invalidVarint => if endsOpen bytes then .truncatedFrame text else .decode text
  | .wireTypeMismatch _ _ => .foreignFrame text
  | _ => .decode text

variable {bytes : Bytes} {text : String}

theorem errorOf_of_endsOpen (h : endsOpen bytes = true) :
    errorOf .invalidVarint bytes text = .truncatedFrame text := by
  rw [errorOf, h]
  rfl

theorem errorOf_of_isMismatch {cause : Cause} (h : cause.isMismatch = true) :
    errorOf cause bytes text = .foreignFrame text := by
  cases cause <;> first | rfl | cases h

/-- Whatever is neither truncated nor foreign is malformed. -/
theorem errorOf_of_not {cause : Cause} (hunderflow : cause ≠ .underflow)
    (hmatch : cause.isMismatch = false) (hvarint : cause = .invalidVarint → endsOpen bytes = false) :
    errorOf cause bytes text = .decode text := by
  cases cause with
  | underflow => exact absurd rfl hunderflow
  | wireTypeMismatch actual expected => cases hmatch
  | invalidVarint =>
    rw [errorOf, hvarint rfl]
    rfl
  | _ => rfl

/-- **The class of a text is that of the cause in it**, whatever built-in type the text names
and whichever of its fields it names around the fault. -/
theorem classifyFault_eq_errorOf (hb : bundle ∈ Bundle.builtin) (ht : t ∈ bundle.types)
    (hpath : ∀ p ∈ f.path, p ∈ t.layout.labels t.name) :
    classifyFault (t.about f.message) bytes = errorOf f.cause bytes (t.about f.message) := by
  have hphrases {phrase : String} (hphrase : phrase ∈ classPhrases) :=
    occursIn_about_eq hb ht hpath hphrase
  have hunderflow := (hphrases (show "buffer underflow" ∈ classPhrases by decide)).trans
    (occursIn_underflow f.cause)
  have hvarint := (hphrases (show "invalid varint" ∈ classPhrases by decide)).trans
    (occursIn_invalidVarint f.cause)
  have hwire := (hphrases (show "invalid wire type: " ∈ classPhrases by decide)).trans
    (occursIn_invalidWireType f.cause)
  simp only [classifyFault, hunderflow, hvarint, hwire]
  cases f.cause with
  | invalidVarint => cases hend : endsOpen bytes <;> simp [errorOf, Cause.isMismatch, hend]
  | _ => simp [errorOf, Cause.isMismatch]

section Fault

variable (hb : bundle ∈ Bundle.builtin) (ht : t ∈ bundle.types)
  (h : t.layout.decode t.name bytes = .error f)

include hb ht h

/-- **A frame is of the class of its fault's cause.** -/
theorem decodeMessage_eq_errorOf :
    t.decodeMessage bytes = .error (errorOf f.cause bytes (t.about f.message)) := by
  rw [decodeMessage, h]
  exact congrArg Except.error (classifyFault_eq_errorOf hb ht (Layout.mem_labels_of_decode h))

theorem decode_eq_errorOf :
    t.decode bytes = .error (errorOf f.cause bytes (t.about f.message)) := by
  rw [decode, decodeMessage_eq_errorOf hb ht h]
  rfl

end Fault

/-! ## Which causes belong to which class -/

/-- A frame ends in a byte that says that another one follows it. -/
theorem endsOpen_iff : endsOpen bytes = true ↔ ∃ b ∈ bytes.getLast?, 128 ≤ b.toNat := by
  unfold endsOpen
  cases bytes.getLast? <;> simp

/-- Missing bytes, and a number that the frame ends within, make a frame truncated. -/
theorem errorOf_eq_truncatedFrame_iff {cause : Cause} :
    errorOf cause bytes text = .truncatedFrame text ↔
      cause = .underflow ∨ cause = .invalidVarint ∧ endsOpen bytes = true := by
  cases cause with
  | invalidVarint => cases hend : endsOpen bytes <;> simp [errorOf, hend]
  | _ => simp [errorOf]

/-- A declared field that is laid out as another one makes it foreign. -/
theorem errorOf_eq_foreignFrame_iff {cause : Cause} :
    errorOf cause bytes text = .foreignFrame text ↔
      ∃ actual expected, cause = .wireTypeMismatch actual expected := by
  cases cause with
  | invalidVarint => cases hend : endsOpen bytes <;> simp [errorOf, hend]
  | _ => simp [errorOf]

/-- Whatever else is wrong makes it malformed. -/
theorem errorOf_eq_decode_iff {cause : Cause} :
    errorOf cause bytes text = .decode text ↔
      ¬(cause = .underflow ∨ cause = .invalidVarint ∧ endsOpen bytes = true) ∧
        ¬∃ actual expected, cause = .wireTypeMismatch actual expected := by
  cases cause with
  | invalidVarint => cases hend : endsOpen bytes <;> simp [errorOf, hend]
  | _ => simp [errorOf]

/-- **What the text of a fault is searched for tells the cause.** A frame of a built-in type
that cannot be read is truncated, foreign or malformed by the cause of its fault and, where
that is an invalid number, by its own last byte. Any other built-in type and any other way
through its fields, however deep, would give the text the same class. -/
theorem decode_classified {bundle : Bundle} (hb : bundle ∈ Bundle.builtin) {t : MessageType}
    (ht : t ∈ bundle.types) {bytes : Bytes} {f : Fault}
    (h : t.layout.decode t.name bytes = .error f) :
    let text := t.about f.message
    let truncated := f.cause = .underflow ∨
      f.cause = .invalidVarint ∧ ∃ b ∈ bytes.getLast?, 128 ≤ b.toNat
    let mismatched := ∃ actual expected, f.cause = .wireTypeMismatch actual expected
    (t.decode bytes = .error (.truncatedFrame text) ↔ truncated) ∧
      (t.decode bytes = .error (.foreignFrame text) ↔ mismatched) ∧
      (t.decode bytes = .error (.decode text) ↔ ¬truncated ∧ ¬mismatched) ∧
      ∀ bundle' ∈ Bundle.builtin, ∀ t' ∈ bundle'.types, ∀ path : List (String × String),
        (∀ p ∈ path, p ∈ t'.layout.labels t'.name) →
          let text' := t'.about (Fault.message ⟨f.cause, path⟩)
          (classifyFault text' bytes = .truncatedFrame text' ↔ truncated) ∧
            (classifyFault text' bytes = .foreignFrame text' ↔ mismatched) ∧
            (classifyFault text' bytes = .decode text' ↔ ¬truncated ∧ ¬mismatched) := by
  intro text truncated mismatched
  have htruncated : truncated ↔
      f.cause = .underflow ∨ f.cause = .invalidVarint ∧ endsOpen bytes = true := by
    rw [endsOpen_iff]
  have hclass (text : String) :
      (errorOf f.cause bytes text = .truncatedFrame text ↔ truncated) ∧
        (errorOf f.cause bytes text = .foreignFrame text ↔ mismatched) ∧
        (errorOf f.cause bytes text = .decode text ↔ ¬truncated ∧ ¬mismatched) := by
    rw [htruncated]
    exact ⟨errorOf_eq_truncatedFrame_iff, errorOf_eq_foreignFrame_iff, errorOf_eq_decode_iff⟩
  obtain ⟨hcut, hforeign, hmalformed⟩ := hclass text
  rw [decode_eq_errorOf hb ht h, Except.error.injEq, Except.error.injEq, Except.error.injEq]
  refine ⟨hcut, hforeign, hmalformed, fun bundle' hb' t' ht' path hpath => ?_⟩
  intro text'
  have hother : classifyFault text' bytes = errorOf f.cause bytes text' :=
    classifyFault_eq_errorOf (f := ⟨f.cause, path⟩) hb' ht' hpath
  rw [hother]
  exact hclass text'

/-- A price laid out as a number, three messages deep, in a frame that ends in an open byte. -/
theorem decode_classified_nested :
    marketBook.layout.decode marketBook.name [18, 5, 10, 3, 8, 1, 128] =
        .error ⟨.wireTypeMismatch .varint .sixtyFour,
          [("OrderLevel", "price"), ("OrderBook", "bids"), ("MarketBook", "yes_book")]⟩ ∧
      marketBook.decode [18, 5, 10, 3, 8, 1, 128] =
        .error (.foreignFrame ("order_book.MarketBook: failed to decode Protobuf message: " ++
          "OrderLevel.price: OrderBook.bids: MarketBook.yes_book: " ++
          "invalid wire type: Varint (expected SixtyFourBit)")) := by
  have hbuiltin : Bundle.builtin[0] ∈ Bundle.builtin ∧ marketBook ∈ Bundle.builtin[0].types := by
    decide
  have hdecode : marketBook.layout.decode marketBook.name [18, 5, 10, 3, 8, 1, 128] =
      .error ⟨.wireTypeMismatch .varint .sixtyFour,
        [("OrderLevel", "price"), ("OrderBook", "bids"), ("MarketBook", "yes_book")]⟩ := by
    rfl
  obtain ⟨-, hforeign, -⟩ := decode_classified hbuiltin.1 hbuiltin.2 hdecode
  exact ⟨hdecode, hforeign.2 ⟨.varint, .sixtyFour, rfl⟩⟩

end MessageType

end PushFeed
