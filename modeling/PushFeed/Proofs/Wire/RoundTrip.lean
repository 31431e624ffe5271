import PushFeed.Proofs.Wire.Parses
import PushFeed.Wire.Conformance
/-!
# Messages read back

A sound layout reads its own frames back (`Layout.decode_encode`). A zero amount is not
written, so the negative zero comes back without its sign; everything else comes back
as it was (`Layout.normal`), and conforms as it did.
-/

namespace PushFeed.Wire

/-! ## Plain kinds -/

namespace Scalar

/-- The value as it reads back: a zero amount without its sign. -/
def normal : (s : Scalar) → s.Content → s.Content
  | .amount, (x : Binary64) => if x.isZero then Binary64.zero else x
  | .count, n => n
  | .moment, n => n
  | .choice _, n => n
  | .text, s => s
  | .optionalText, s => s

/-- A text reads back. -/
theorem readText_append {s : String} (h : (delimited (utf8 s)).length < twoTo 64) (rest : Bytes) :
    read.readText .delimited (delimited (utf8 s) ++ rest) = .ok (s, rest) := by
  have hsize : (utf8 s).length < twoTo 64 := by
    simp only [delimited, List.length_append] at h
    omega
  simp only [read.readText, expectWire, if_true]
  rw [readDelimited_append hsize]
  simp only [bind, Except.bind, ofUtf8?_utf8]

/-- **A value is left out where it is the default, and reads back where it is not.** -/
theorem encode_cases (number : Nat) (s : Scalar) (x : s.Content)
    (h : (s.encode number x).length < twoTo 64) :
    s.encode number x = [] ∧ s.normal x = s.default ∨
      ∃ w value, s.encode number x = key number w ++ value ∧
        ∀ rest, s.read w (value ++ rest) = .ok (s.normal x, rest) := by
  have hvalue {w : WireType} {value : Bytes} (h : (key number w ++ value).length < twoTo 64) :
      value.length < twoTo 64 := by
    rw [List.length_append] at h
    omega
  cases s with
  | amount =>
    cases hz : Binary64.isZero x with
    | true => exact .inl ⟨by simp [encode, hz], by simp [normal, hz, Scalar.default]⟩
    | false =>
      refine .inr ⟨.sixtyFour, fixed64 x.bits.toNat, by simp [encode, hz], fun rest => ?_⟩
      have htake := takeBytes_append (fixed64 x.bits.toNat) rest
      rw [length_fixed64] at htake
      simp only [read, expectWire, if_true, normal, hz, htake]
      show Except.ok (Binary64.mk (UInt64.ofNat (ofLittleEndian _)), rest) = _
      rw [ofLittleEndian_fixed64 (UInt64.toNat_lt _), UInt64.ofNat_toNat]
      rfl
  | count =>
    by_cases hz : (x : UInt32) = 0
    · exact .inl ⟨by simp [encode, hz], by simp [normal, hz, Scalar.default]⟩
    · refine .inr ⟨.varint, varint (UInt32.toNat x), by simp [encode, hz], fun rest => ?_⟩
      have hlt : UInt32.toNat x < twoTo 64 := Nat.lt_trans (UInt32.toNat_lt x) (by decide)
      simp only [read, expectWire, if_true]
      rw [readVarint_append hlt]
      show Except.ok (UInt32.ofNat (UInt32.toNat x), rest) = _
      rw [UInt32.ofNat_toNat]
      rfl
  | moment =>
    by_cases hz : (x : Int64) = 0
    · exact .inl ⟨by simp [encode, hz], by simp [normal, hz, Scalar.default]⟩
    · refine .inr ⟨.varint, varint (Int64.toUInt64 x).toNat, by simp [encode, hz], fun rest => ?_⟩
      simp only [read, expectWire, if_true]
      rw [readVarint_append (UInt64.toNat_lt _)]
      show Except.ok (Int64.ofNat (Int64.toUInt64 x).toNat, rest) = _
      rw [int64_ofNat_toUInt64]
      rfl
  | choice choices =>
    by_cases hz : (x : Int32) = 0
    · exact .inl ⟨by simp [encode, hz], by simp [normal, hz, Scalar.default]⟩
    · refine .inr ⟨.varint, varint (Int32.toInt64 x).toUInt64.toNat, by simp [encode, hz],
        fun rest => ?_⟩
      simp only [read, expectWire, if_true]
      rw [readVarint_append (UInt64.toNat_lt _)]
      show Except.ok (Int32.ofNat (Int32.toInt64 x).toUInt64.toNat, rest) = _
      rw [int32_ofNat_toUInt64]
      rfl
  | text =>
    by_cases hz : (x : String) = ""
    · exact .inl ⟨by simp [encode, hz], by simp [normal, hz, Scalar.default]⟩
    · have heq : encode number .text x = key number .delimited ++ delimited (utf8 x) := by
        simp [encode, hz]
      rw [heq] at h
      refine .inr ⟨.delimited, delimited (utf8 x), heq, fun rest => ?_⟩
      simp only [read, readText_append (hvalue h)]
      rfl
  | optionalText =>
    cases x with
    | none => exact .inl ⟨rfl, rfl⟩
    | some s =>
      refine .inr ⟨.delimited, delimited (utf8 s), rfl, fun rest => ?_⟩
      simp only [read, readText_append (hvalue h)]
      rfl

end Scalar

/-! ## Messages -/

/-- Whether a field can be told from the given ones by its number. -/
def Slot.isApart (slot : Slot) (numbers : List Nat) : Bool :=
  decide (IsFieldNumber slot.number) && !numbers.contains slot.number

theorem Slot.isApart_iff {slot : Slot} {numbers : List Nat} :
    slot.isApart numbers = true ↔ IsFieldNumber slot.number ∧ slot.number ∉ numbers := by
  simp [Slot.isApart]

namespace Layout

/-- The message as it reads back. -/
def normal : (l : Layout) → l.Content → l.Content
  | .done, _ => ()
  | .scalar _ kind rest, (x, more) => (kind.normal x, rest.normal more)
  | .message _ _ inner rest, (m, more) => (m.map inner.normal, rest.normal more)
  | .repeated _ _ inner rest, (ms, more) => (ms.map inner.normal, rest.normal more)

/-- Whether something holds one level further down. -/
def oneLevelDown (inner : Nat → Bool) : Nat → Bool
  | 0 => false
  | depth + 1 => inner depth

/-- Whether all fields have numbers of their own and messages are nested at most so
deep. -/
def isSound : Layout → Nat → Bool
  | .done, _ => true
  | .scalar slot _ rest, depth => slot.isApart rest.numbers && rest.isSound depth
  | .message slot _ inner rest, depth =>
    slot.isApart rest.numbers && oneLevelDown inner.isSound depth && rest.isSound depth
  | .repeated slot _ inner rest, depth =>
    slot.isApart rest.numbers && oneLevelDown inner.isSound depth && rest.isSound depth

theorem oneLevelDown_iff {inner : Nat → Bool} {depth : Nat} :
    oneLevelDown inner depth = true ↔ ∃ d, depth = d + 1 ∧ inner d = true := by
  cases depth <;> simp [oneLevelDown]

variable {owner name : String} {slot : Slot} {kind : Scalar} {inner rest : Layout}
  {depth number : Nat} {w : WireType} {bytes left : Bytes}

/-! Fields of other numbers are passed on. -/

theorem mergeField_scalar_of_ne {x : kind.Content} {c c' : rest.Content}
    (hne : number ≠ slot.number)
    (h : rest.mergeField owner depth number w c bytes = .ok (c', left)) :
    (scalar slot kind rest).mergeField owner depth number w (x, c) bytes =
      .ok ((x, c'), left) := by
  rw [mergeField, if_neg hne, h]
  rfl

theorem mergeField_message_of_ne {m : Option inner.Content} {c c' : rest.Content}
    (hne : number ≠ slot.number)
    (h : rest.mergeField owner depth number w c bytes = .ok (c', left)) :
    (message slot name inner rest).mergeField owner depth number w (m, c) bytes =
      .ok ((m, c'), left) := by
  rw [mergeField, if_neg hne, h]
  rfl

theorem mergeField_repeated_of_ne {ms : List inner.Content} {c c' : rest.Content}
    (hne : number ≠ slot.number)
    (h : rest.mergeField owner depth number w c bytes = .ok (c', left)) :
    (repeated slot name inner rest).mergeField owner depth number w (ms, c) bytes =
      .ok ((ms, c'), left) := by
  rw [mergeField, if_neg hne, h]
  rfl

/-- The fields that the layout writes for a message make that message of an empty
one. -/
def Reads (l : Layout) (owner : String) (depth : Nat) (c : l.Content) : Prop :=
  Parses (l.mergeField owner depth) (· ∈ l.numbers) l.default (l.encode c) (l.normal c)

theorem reads_scalar {x : kind.Content} {more : rest.Content}
    (hslot : IsFieldNumber slot.number ∧ slot.number ∉ rest.numbers)
    (hsize : (kind.encode slot.number x).length < twoTo 64)
    (hmore : rest.Reads owner depth more) :
    (scalar slot kind rest).Reads owner depth (x, more) := by
  obtain ⟨hnumber, hapart⟩ := hslot
  -- the field's number is not among those of the rest, which it therefore passes on
  have htail : Parses ((scalar slot kind rest).mergeField owner depth)
      (· ∈ (scalar slot kind rest).numbers) (kind.normal x, rest.default) (rest.encode more)
      (kind.normal x, rest.normal more) := by
    refine (hmore.lift ?_).mono fun n hn => List.mem_cons_of_mem _ hn
    intro number w c c' bytes left hn h
    exact mergeField_scalar_of_ne (fun heq => hapart (heq ▸ hn)) h
  rcases kind.encode_cases slot.number x hsize with ⟨hnil, hdefault⟩ | ⟨w, value, heq, hread⟩
  · rw [Reads, default, encode, hnil, List.nil_append, ← hdefault]
    exact htail
  · rw [Reads, encode, heq]
    refine (Parses.single hnumber List.mem_cons_self fun left => ?_).append htail
    rw [default, mergeField, if_pos rfl, hread]
    rfl

theorem reads_message {m : Option inner.Content} {more : rest.Content}
    (hslot : IsFieldNumber slot.number ∧ slot.number ∉ rest.numbers)
    (hinner : ∀ i, m = some i → (inner.encode i).length < twoTo 64 ∧ inner.Reads name depth i)
    (hmore : rest.Reads owner (depth + 1) more) :
    (message slot name inner rest).Reads owner (depth + 1) (m, more) := by
  obtain ⟨hnumber, hapart⟩ := hslot
  have htail (x : Option inner.Content) :
      Parses ((message slot name inner rest).mergeField owner (depth + 1))
        (· ∈ (message slot name inner rest).numbers) (x, rest.default) (rest.encode more)
        (x, rest.normal more) := by
    refine (hmore.lift ?_).mono fun n hn => List.mem_cons_of_mem _ hn
    intro number w c c' bytes left hn h
    exact mergeField_message_of_ne (fun heq => hapart (heq ▸ hn)) h
  cases m with
  | none => exact htail none
  | some i =>
    obtain ⟨hsize, hparses⟩ := hinner i rfl
    refine (Parses.single hnumber List.mem_cons_self fun left => ?_).append (htail _)
    rw [mergeField, if_pos rfl]
    show (inField owner slot (readNested _ _ _ inner.default _)).bind _ = _
    rw [hparses.readNested_eq hsize]
    rfl

theorem reads_repeated {ms : List inner.Content} {more : rest.Content}
    (hslot : IsFieldNumber slot.number ∧ slot.number ∉ rest.numbers)
    (hinner : ∀ i ∈ ms, (inner.encode i).length < twoTo 64 ∧ inner.Reads name depth i)
    (hmore : rest.Reads owner (depth + 1) more) :
    (repeated slot name inner rest).Reads owner (depth + 1) (ms, more) := by
  obtain ⟨hnumber, hapart⟩ := hslot
  have htail (xs : List inner.Content) :
      Parses ((repeated slot name inner rest).mergeField owner (depth + 1))
        (· ∈ (repeated slot name inner rest).numbers) (xs, rest.default) (rest.encode more)
        (xs, rest.normal more) := by
    refine (hmore.lift ?_).mono fun n hn => List.mem_cons_of_mem _ hn
    intro number w c c' bytes left hn h
    exact mergeField_repeated_of_ne (fun heq => hapart (heq ▸ hn)) h
  -- the items before are there already when an item is read
  have hitems (before : List inner.Content) :
      Parses ((repeated slot name inner rest).mergeField owner (depth + 1))
        (· ∈ (repeated slot name inner rest).numbers) (before, rest.default)
        (ms.flatMap fun i => key slot.number .delimited ++ delimited (inner.encode i))
        (before ++ ms.map inner.normal, rest.default) := by
    induction ms generalizing before with
    | nil =>
      rw [List.map_nil, List.append_nil]
      exact .nil _
    | cons i ms ih =>
      obtain ⟨hsize, hparses⟩ := hinner i List.mem_cons_self
      have hthen := ih (fun j hj => hinner j (List.mem_cons_of_mem _ hj))
        (before ++ [inner.normal i])
      rw [List.append_assoc] at hthen
      rw [List.flatMap_cons]
      refine (Parses.single hnumber List.mem_cons_self fun left => ?_).append hthen
      rw [mergeField, if_pos rfl, hparses.readNested_eq hsize]
      rfl
  exact (hitems []).append (htail _)

theorem length_le_length_flatMap {α β : Type} (f : α → List β) {a : α} {as : List α}
    (ha : a ∈ as) : (f a).length ≤ (as.flatMap f).length := by
  rw [List.flatMap_def]
  exact (List.sublist_flatten_of_mem (List.mem_map_of_mem ha)).length_le

/-- **What a sound layout writes are its own fields.** -/
theorem reads {l : Layout} (hl : l.isSound depth = true) (c : l.Content)
    (hsize : (l.encode c).length < twoTo 64) : l.Reads owner depth c := by
  induction l generalizing owner depth with
  | done => exact .nil ()
  | scalar slot kind rest ih =>
    obtain ⟨x, more⟩ := c
    simp only [isSound, Bool.and_eq_true, Slot.isApart_iff] at hl
    simp only [encode, List.length_append] at hsize
    exact reads_scalar hl.1 (by omega) (ih hl.2 more (by omega))
  | message slot name inner rest ihi ih =>
    obtain ⟨m, more⟩ := c
    simp only [isSound, Bool.and_eq_true, Slot.isApart_iff, oneLevelDown_iff] at hl
    obtain ⟨⟨hslot, d, rfl, hd⟩, hrest⟩ := hl
    simp only [encode, List.length_append] at hsize
    refine reads_message hslot ?_ (ih hrest more (by omega))
    intro i hi
    subst hi
    simp only [delimited, List.length_append] at hsize
    have hi : (inner.encode i).length < twoTo 64 := by omega
    exact ⟨hi, ihi hd i hi⟩
  | repeated slot name inner rest ihi ih =>
    obtain ⟨ms, more⟩ := c
    simp only [isSound, Bool.and_eq_true, Slot.isApart_iff, oneLevelDown_iff] at hl
    obtain ⟨⟨hslot, d, rfl, hd⟩, hrest⟩ := hl
    simp only [encode, List.length_append] at hsize
    refine reads_repeated hslot ?_ (ih hrest more (by omega))
    intro i hi
    -- an item is no longer than all items together
    have hle := length_le_length_flatMap
      (fun i => key slot.number .delimited ++ delimited (inner.encode i)) hi
    simp only [delimited, List.length_append] at hle hsize
    have hi : (inner.encode i).length < twoTo 64 := by omega
    exact ⟨hi, ihi hd i hi⟩

/-- A frame that is a list of fields is what they make of an empty message. -/
theorem decode_of_parses {l : Layout} {N : Nat → Prop} {c : l.Content}
    (h : Parses (l.mergeField owner depthLimit) N l.default bytes c) :
    l.decode owner bytes = .ok c := by
  have hread := h.readFieldsWithin_eq [] (Nat.le_refl _)
  rw [List.append_nil, List.length_nil] at hread
  rw [decode]
  show (readFieldsWithin _ 0 _ _ _).bind _ = _
  rw [hread]
  rfl

/-- **A sound layout reads its own frames back**, negative zeros without their sign. -/
theorem decode_encode {l : Layout} (hl : l.isSound depthLimit = true) (c : l.Content)
    (hsize : (l.encode c).length < twoTo 64) : l.decode owner (l.encode c) = .ok (l.normal c) :=
  decode_of_parses (reads hl c hsize)

/-! ## Conformance -/

theorem amountOk_of_isZero {x : Binary64} (h : x.isZero = true) : amountOk x = true := by
  have hmag : x.magnitude = 0 := by simpa [Binary64.isZero] using h
  simp [amountOk, Binary64.isFinite, hmag, h, Binary64.infiniteMagnitude]

theorem bad?_normal (s : Scalar) (x : s.Content) : s.bad? (s.normal x) = s.bad? x := by
  cases s with
  | amount =>
    simp only [Scalar.normal]
    split
    · rename_i hz
      simp [Scalar.bad?, amountOk_of_isZero hz, show amountOk Binary64.zero = true from by decide]
    · rfl
  | count => rfl
  | moment => rfl
  | choice => rfl
  | text => rfl
  | optionalText => rfl

theorem firstViolation?_map {α : Type} {item : α → Option Violation} {change : α → α}
    (h : ∀ a, item (change a) = item a) (key : String) (index : Nat) (as : List α) :
    firstViolation? item key index (as.map change) = firstViolation? item key index as := by
  induction as generalizing index with
  | nil => rfl
  | cons a as ih => rw [List.map_cons, firstViolation?, firstViolation?, h, ih]

/-- The message that is read back conforms as the one that was written. -/
theorem violation?_normal (l : Layout) (c : l.Content) :
    l.violation? (l.normal c) = l.violation? c := by
  induction l with
  | done => rfl
  | scalar slot kind rest ih =>
    obtain ⟨x, more⟩ := c
    rw [normal, violation?, violation?, bad?_normal, ih]
  | message slot name inner rest ihi ih =>
    obtain ⟨m, more⟩ := c
    have hm : (m.map inner.normal).bind inner.violation? = m.bind inner.violation? := by
      cases m with
      | none => rfl
      | some i => exact ihi i
    rw [normal, violation?, violation?, hm, ih]
  | repeated slot name inner rest ihi ih =>
    obtain ⟨ms, more⟩ := c
    rw [normal, violation?, violation?, firstViolation?_map ihi, ih]

theorem verify_eq_ok_iff {l : Layout} {c : l.Content} :
    l.verify c = .ok () ↔ l.violation? c = none := by
  rw [verify]
  cases l.violation? c <;> simp

theorem verify_normal (l : Layout) (c : l.Content) : l.verify (l.normal c) = l.verify c := by
  rw [verify, verify, violation?_normal]

end Layout

end PushFeed.Wire
