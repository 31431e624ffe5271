import PushFeed.Proofs.Wire.RoundTrip
import PushFeed.Proofs.Wire.Structured
/-!
# The fields in a frame

The frame of a message is the frames of its fields, one behind another (`Layout.records`).
The first few of them are the frame of a message themselves (`Layout.first`), and it
conforms if the whole one does. So wherever a frame is cut, what stands before the cut is
the frame of a message and the beginning of one more field (`exists_cut`).
-/

namespace PushFeed.Wire

/-- The value of a field as it stands in a frame. -/
inductive FieldValue where
  /-- A number. -/
  | number (n : Nat)
  /-- The eight bytes of a number. -/
  | eight (n : Nat)
  /-- Bytes behind their length. -/
  | body (bytes : Bytes)
  deriving DecidableEq, Repr

namespace FieldValue

/-- How a value is laid out. -/
def wire : FieldValue → WireType
  | .number _ => .varint
  | .eight _ => .sixtyFour
  | .body _ => .delimited

/-- The bytes of a value. -/
def bytes : FieldValue → Bytes
  | .number n => varint n
  | .eight n => fixed64 n
  | .body b => delimited b

end FieldValue

/-- A field of a frame. -/
structure FieldRecord where
  /-- The field's number. -/
  number : Nat
  /-- The field's value. -/
  value : FieldValue
  deriving DecidableEq, Repr

namespace FieldRecord

/-- The bytes of a field's key. -/
def key (r : FieldRecord) : Bytes := Wire.key r.number r.value.wire

/-- The bytes of a field. -/
def bytes (r : FieldRecord) : Bytes := r.key ++ r.value.bytes

end FieldRecord

/-- The bytes of some fields. -/
def frameOf (rs : List FieldRecord) : Bytes := rs.flatMap FieldRecord.bytes

theorem frameOf_append (rs rs' : List FieldRecord) :
    frameOf (rs ++ rs') = frameOf rs ++ frameOf rs' := List.flatMap_append

theorem frameOf_cons (r : FieldRecord) (rs : List FieldRecord) :
    frameOf (r :: rs) = r.bytes ++ frameOf rs := List.flatMap_cons

/-- A place in a frame is a place in one of its fields. -/
theorem exists_cut {rs : List FieldRecord} {k : Nat} (h : k < (frameOf rs).length) :
    ∃ before r after j, rs = before ++ r :: after ∧ j < r.bytes.length ∧
      k = (frameOf before).length + j := by
  induction rs generalizing k with
  | nil => cases h
  | cons r rs ih =>
    rw [frameOf_cons, List.length_append] at h
    rcases Nat.lt_or_ge k r.bytes.length with hin | hafter
    · exact ⟨[], r, rs, k, rfl, hin, (Nat.zero_add k).symm⟩
    · obtain ⟨before, r', after, j, rfl, hj, hk⟩ :=
        ih (show k - r.bytes.length < (frameOf rs).length by omega)
      refine ⟨r :: before, r', after, j, rfl, hj, ?_⟩
      rw [frameOf_cons, List.length_append]
      omega

/-- What stands before a place in a field. -/
theorem take_frameOf {before after : List FieldRecord} {r : FieldRecord} {j : Nat}
    (hj : j ≤ r.bytes.length) :
    (frameOf (before ++ r :: after)).take ((frameOf before).length + j) =
      frameOf before ++ r.bytes.take j := by
  rw [frameOf_append, List.take_length_add_append, frameOf_cons,
    List.take_append_of_le_length hj]

/-! ## Plain kinds -/

namespace Scalar

/-- The field of a value, if it is written. -/
def records (number : Nat) : (s : Scalar) → s.Content → List FieldRecord
  | .amount, (x : Binary64) => if x.isZero then [] else [⟨number, .eight x.bits.toNat⟩]
  | .count, (n : UInt32) => if n = 0 then [] else [⟨number, .number n.toNat⟩]
  | .moment, (n : Int64) => if n = 0 then [] else [⟨number, .number n.toUInt64.toNat⟩]
  | .choice _, (n : Int32) => if n = 0 then [] else [⟨number, .number n.toInt64.toUInt64.toNat⟩]
  | .text, (s : String) => if s = "" then [] else [⟨number, .body (utf8 s)⟩]
  | .optionalText, none => []
  | .optionalText, some s => [⟨number, .body (utf8 s)⟩]

variable {number : Nat} {s : Scalar} {x : s.Content}

/-- A value is the default and not written, or it is written as one field. -/
theorem records_cases (number : Nat) (s : Scalar) (x : s.Content) :
    s.records number x = [] ∧ s.encode number x = [] ∨
      ∃ value, s.records number x = [⟨number, value⟩] ∧
        s.encode number x = key number value.wire ++ value.bytes := by
  have hsplit {p : Prop} [Decidable p] {value : FieldValue} {bytes : Bytes}
      (hbytes : bytes = key number value.wire ++ value.bytes) :
      (if p then [] else [(⟨number, value⟩ : FieldRecord)]) = [] ∧
          (if p then [] else bytes) = [] ∨
        ∃ value', (if p then [] else [(⟨number, value⟩ : FieldRecord)]) = [⟨number, value'⟩] ∧
          (if p then [] else bytes) = key number value'.wire ++ value'.bytes := by
    by_cases hp : p
    · exact .inl ⟨if_pos hp, if_pos hp⟩
    · exact .inr ⟨value, if_neg hp, by rw [if_neg hp, hbytes]⟩
  cases s with
  | amount | count | moment | choice | text => exact hsplit rfl
  | optionalText =>
    cases x with
    | none => exact .inl ⟨rfl, rfl⟩
    | some t => exact .inr ⟨.body (utf8 t), rfl, rfl⟩

theorem encode_eq (number : Nat) (s : Scalar) (x : s.Content) :
    s.encode number x = frameOf (s.records number x) := by
  rcases records_cases number s x with ⟨hnone, hbytes⟩ | ⟨value, hone, hbytes⟩
  · rw [hnone, hbytes]
    rfl
  · rw [hone, hbytes]
    exact (List.flatMap_singleton _ _).symm

theorem length_records_le (number : Nat) (s : Scalar) (x : s.Content) :
    (s.records number x).length ≤ 1 := by
  rcases records_cases number s x with ⟨hnone, -⟩ | ⟨value, hone, -⟩
  · rw [hnone]
    exact Nat.zero_le 1
  · rw [hone]
    exact Nat.le_refl 1

theorem number_of_mem_records {r : FieldRecord} (h : r ∈ s.records number x) :
    r.number = number := by
  rcases records_cases number s x with ⟨hnone, -⟩ | ⟨value, hone, -⟩
  · rw [hnone] at h
    cases h
  · rw [hone, List.mem_singleton] at h
    rw [h]

theorem records_default (number : Nat) (s : Scalar) : s.records number s.default = [] := by
  cases s with
  | amount => simp [records, Scalar.default, show Binary64.zero.isZero = true by decide]
  | count | moment | choice | text | optionalText => rfl

/-- The default reads back as it is. -/
theorem normal_default (s : Scalar) : s.normal s.default = s.default := by
  cases s with
  | amount => simp [normal, Scalar.default, show Binary64.zero.isZero = true by decide]
  | count | moment | choice | text | optionalText => rfl

/-- Where some value conforms, so does the default: a choice has to have a first one. -/
theorem bad?_default (h : s.bad? x = none) : s.bad? s.default = none := by
  cases s with
  | choice choices =>
    simp only [bad?] at h ⊢
    split at h
    · rename_i hknown
      have hzero : Int32.toInt (Scalar.choice choices).default = 0 := rfl
      rw [if_pos (by omega)]
    · cases h
  | amount => simp [bad?, Scalar.default, show amountOk Binary64.zero = true by decide]
  | count | moment | text | optionalText => rfl

end Scalar

/-! ## Messages -/

namespace Layout

/-- The fields of a message's frame, in order. -/
def records : (l : Layout) → l.Content → List FieldRecord
  | .done, _ => []
  | .scalar slot kind rest, (x, more) => kind.records slot.number x ++ rest.records more
  | .message slot _ inner rest, (m, more) =>
    m.toList.map (fun i => ⟨slot.number, .body (inner.encode i)⟩) ++ rest.records more
  | .repeated slot _ inner rest, (ms, more) =>
    ms.map (fun i => ⟨slot.number, .body (inner.encode i)⟩) ++ rest.records more

/-- The message of the first fields of a frame. -/
def first : (l : Layout) → Nat → l.Content → l.Content
  | .done, _, _ => ()
  | .scalar slot kind rest, n, (x, more) =>
    (if n = 0 then kind.default else x,
      rest.first (n - (kind.records slot.number x).length) more)
  | .message _ _ _ rest, n, (m, more) =>
    (if n = 0 then none else m, rest.first (n - m.toList.length) more)
  | .repeated _ _ _ rest, n, (ms, more) => (ms.take n, rest.first (n - ms.length) more)

variable {l : Layout} {c : l.Content} {depth : Nat}

theorem encode_eq (l : Layout) (c : l.Content) : l.encode c = frameOf (l.records c) := by
  induction l with
  | done => rfl
  | scalar slot kind rest ih =>
    obtain ⟨x, more⟩ := c
    rw [encode, records, frameOf_append, Scalar.encode_eq, ih]
  | message slot name inner rest _ ih =>
    obtain ⟨m, more⟩ := c
    rw [records, frameOf_append, ← ih]
    cases m with
    | none => rfl
    | some i =>
      rw [Option.toList_some, List.map_singleton, frameOf, List.flatMap_singleton]
      rfl
  | repeated slot name inner rest _ ih =>
    obtain ⟨ms, more⟩ := c
    have hitems : frameOf (ms.map fun i => ⟨slot.number, .body (inner.encode i)⟩) =
        ms.flatMap fun i => key slot.number .delimited ++ delimited (inner.encode i) := by
      rw [frameOf, List.flatMap_map]
      rfl
    rw [encode, records, frameOf_append, hitems, ih]

theorem number_mem_of_mem_records {r : FieldRecord} (h : r ∈ l.records c) :
    r.number ∈ l.numbers := by
  induction l with
  | done => cases h
  | scalar slot kind rest ih =>
    obtain ⟨x, more⟩ := c
    rcases List.mem_append.1 h with h | h
    · rw [Scalar.number_of_mem_records h]
      exact List.mem_cons_self
    · exact List.mem_cons_of_mem _ (ih h)
  | message slot name inner rest _ ih =>
    obtain ⟨m, more⟩ := c
    rcases List.mem_append.1 h with h | h
    · obtain ⟨i, -, rfl⟩ := List.mem_map.1 h
      exact List.mem_cons_self
    · exact List.mem_cons_of_mem _ (ih h)
  | repeated slot name inner rest _ ih =>
    obtain ⟨ms, more⟩ := c
    rcases List.mem_append.1 h with h | h
    · obtain ⟨i, -, rfl⟩ := List.mem_map.1 h
      exact List.mem_cons_self
    · exact List.mem_cons_of_mem _ (ih h)

theorem isFieldNumber_of_mem_numbers (hl : l.isSound depth = true) {n : Nat}
    (h : n ∈ l.numbers) : IsFieldNumber n := by
  induction l with
  | done => cases h
  | scalar slot kind rest ih =>
    simp only [isSound, Bool.and_eq_true, Slot.isApart_iff] at hl
    rcases List.mem_cons.1 h with rfl | h
    · exact hl.1.1
    · exact ih hl.2 h
  | message slot name inner rest _ ih | repeated slot name inner rest _ ih =>
    simp only [isSound, Bool.and_eq_true, Slot.isApart_iff] at hl
    rcases List.mem_cons.1 h with rfl | h
    · exact hl.1.1.1
    · exact ih hl.2 h

/-- **The first fields of a message are a message's own.** -/
theorem records_first (l : Layout) (n : Nat) (c : l.Content) :
    l.records (l.first n c) = (l.records c).take n := by
  induction l generalizing n with
  | done => exact List.take_nil.symm
  | scalar slot kind rest ih =>
    obtain ⟨x, more⟩ := c
    have hx : kind.records slot.number (if n = 0 then kind.default else x) =
        (kind.records slot.number x).take n := by
      have hle := Scalar.length_records_le slot.number kind x
      by_cases hn : n = 0
      · rw [if_pos hn, hn, Scalar.records_default, List.take_zero]
      · rw [if_neg hn, List.take_of_length_le (by omega)]
    rw [first, records, records, List.take_append, hx, ih]
  | message slot name inner rest _ ih =>
    obtain ⟨m, more⟩ := c
    have hm : (if n = 0 then none else m).toList = m.toList.take n := by
      by_cases hn : n = 0
      · rw [if_pos hn, hn]
        rfl
      · have hle := Option.length_toList_le (o := m)
        rw [if_neg hn, List.take_of_length_le (by omega)]
    rw [first, records, records, List.take_append, ih, hm, List.map_take, List.length_map]
  | repeated slot name inner rest _ ih =>
    obtain ⟨ms, more⟩ := c
    rw [first, records, records, List.take_append, ih, List.map_take, List.length_map]

/-- The message of the first fields conforms if the whole message does. -/
theorem violation?_first (h : l.violation? c = none) (n : Nat) :
    l.violation? (l.first n c) = none := by
  induction l generalizing n with
  | done => rfl
  | scalar slot kind rest ih =>
    obtain ⟨x, more⟩ := c
    obtain ⟨hx, hmore⟩ := violation?_scalar_iff.1 h
    refine violation?_scalar_iff.2 ⟨?_, ih hmore _⟩
    by_cases hn : n = 0
    · rw [if_pos hn]
      exact Scalar.bad?_default hx
    · rw [if_neg hn, hx]
  | message slot name inner rest _ ih =>
    obtain ⟨m, more⟩ := c
    obtain ⟨hm, hmore⟩ := violation?_message_iff.1 h
    refine violation?_message_iff.2 ⟨?_, ih hmore _⟩
    intro i hi
    by_cases hn : n = 0
    · rw [if_pos hn] at hi
      cases hi
    · rw [if_neg hn] at hi
      exact hm i hi
  | repeated slot name inner rest _ ih =>
    obtain ⟨ms, more⟩ := c
    obtain ⟨hms, hmore⟩ := violation?_repeated_iff.1 h
    refine violation?_repeated_iff.2 ⟨?_, ih hmore _⟩
    intro i hi
    exact hms i (List.mem_of_mem_take hi)

/-- Whether a message is another one of which some fields are left out: a plain value is the
same or the default, a nested message is the same or absent, and a list is the beginning of
the same list. -/
def IsPartOf : (l : Layout) → l.Content → l.Content → Prop
  | .done, _, _ => True
  | .scalar _ kind rest, (x, more), (x', more') =>
    (x = x' ∨ x = kind.default) ∧ rest.IsPartOf more more'
  | .message _ _ _ rest, (m, more), (m', more') => (m = m' ∨ m = none) ∧ rest.IsPartOf more more'
  | .repeated _ _ _ rest, (ms, more), (ms', more') => ms <+: ms' ∧ rest.IsPartOf more more'

/-- **The message of the first fields is part of the whole one.** -/
theorem isPartOf_first (l : Layout) (n : Nat) (c : l.Content) : l.IsPartOf (l.first n c) c := by
  induction l generalizing n with
  | done => trivial
  | scalar slot kind rest ih =>
    obtain ⟨x, more⟩ := c
    refine ⟨?_, ih _ more⟩
    by_cases hn : n = 0
    · exact .inr (if_pos hn)
    · exact .inl (if_neg hn)
  | message slot name inner rest _ ih =>
    obtain ⟨m, more⟩ := c
    refine ⟨?_, ih _ more⟩
    by_cases hn : n = 0
    · exact .inr (if_pos hn)
    · exact .inl (if_neg hn)
  | repeated slot name inner rest _ ih =>
    obtain ⟨ms, more⟩ := c
    exact ⟨List.take_prefix n ms, ih _ more⟩

/-- Reading back leaves a part of a message a part of it. -/
theorem IsPartOf.normal {c c' : l.Content} (h : l.IsPartOf c c') :
    l.IsPartOf (l.normal c) (l.normal c') := by
  induction l with
  | done => trivial
  | scalar slot kind rest ih =>
    obtain ⟨x, more⟩ := c
    obtain ⟨x', more'⟩ := c'
    obtain ⟨hx, hmore⟩ := h
    refine ⟨?_, ih hmore⟩
    rcases hx with rfl | rfl
    · exact .inl rfl
    · exact .inr (Scalar.normal_default kind)
  | message slot name inner rest _ ih =>
    obtain ⟨m, more⟩ := c
    obtain ⟨m', more'⟩ := c'
    obtain ⟨hm, hmore⟩ := h
    refine ⟨?_, ih hmore⟩
    rcases hm with rfl | rfl
    · exact .inl rfl
    · exact .inr rfl
  | repeated slot name inner rest _ ih =>
    obtain ⟨ms, more⟩ := c
    obtain ⟨ms', more'⟩ := c'
    exact ⟨h.1.map inner.normal, ih h.2⟩

/-- What stands before a field is the frame of the message of the fields before it. -/
theorem encode_first {before after : List FieldRecord} (h : l.records c = before ++ after) :
    l.encode (l.first before.length c) = frameOf before := by
  rw [encode_eq, records_first, h, List.take_left]

end Layout

end PushFeed.Wire
