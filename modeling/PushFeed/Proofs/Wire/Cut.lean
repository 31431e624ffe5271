import PushFeed.Proofs.Wire.Records
/-!
# Cut frames

What reading makes of a frame that is cut off. Between two fields the frame is one of a
message (`Layout.decode_frameOf`). In a key, a number or a length the bytes that are left
all say that another one follows, and the number is invalid; in anything else the bytes
are too few (`FieldValue.cutCause`, `Layout.decode_cut`). Where the value of a field is
missing altogether, a number is reported as invalid too, though no byte says that another
one follows.
-/

namespace PushFeed.Wire

variable {bytes body : Bytes} {number n j i : Nat}

/-! ## Cut numbers -/

/-- Whether every byte says that another one follows. -/
def AllOpen (bytes : Bytes) : Prop := ∀ b ∈ bytes, 128 ≤ b.toNat

theorem allOpen_nil : AllOpen [] := by
  intro b hb
  cases hb

/-- The bytes of a number say that another one follows, but for the last. -/
theorem allOpen_take_varintWithin {count : Nat} (h : j < (varintWithin count n).length) :
    AllOpen ((varintWithin count n).take j) := by
  induction count generalizing n j with
  | zero => cases h
  | succ count ih =>
    cases j with
    | zero => exact allOpen_nil
    | succ j =>
      rw [varintWithin] at h ⊢
      split at h
      · rw [List.length_singleton] at h
        omega
      · rename_i hlong
        rw [if_neg hlong, List.take_succ_cons]
        intro b hb
        rcases List.mem_cons.1 hb with rfl | hb
        · have hvalue : (UInt8.ofNat (n % 128 + 128)).toNat = n % 128 + 128 := by
            rw [UInt8.toNat_ofNat']
            omega
          omega
        · exact ih (Nat.lt_of_succ_lt_succ h) b hb

/-- The last byte of a number says that none follows. -/
theorem getLast?_varintWithin (count : Nat) (h : n < Nat.pow 128 count) (hpos : 0 < count) :
    ∃ b, (varintWithin count n).getLast? = some b ∧ b.toNat < 128 := by
  induction count generalizing n with
  | zero => cases hpos
  | succ count ih =>
    rw [varintWithin]
    by_cases hn : n < 128
    · rw [if_pos hn]
      refine ⟨_, List.getLast?_singleton, ?_⟩
      rw [UInt8.toNat_ofNat']
      omega
    · have hdiv : n / 128 < Nat.pow 128 count := by
        have hpow : Nat.pow 128 (count + 1) = Nat.pow 128 count * 128 := rfl
        omega
      have hmore : 0 < count := by
        rcases Nat.eq_zero_or_pos count with rfl | hcount
        · have hone : Nat.pow 128 0 = 1 := rfl
          omega
        · exact hcount
      obtain ⟨b, hlast, hb⟩ := ih hdiv hmore
      rw [if_neg hn]
      refine ⟨b, ?_, hb⟩
      rw [List.getLast?_cons, hlast, Option.getD_some]

theorem readVarintWithin_of_allOpen (h : AllOpen bytes) (count : Nat) :
    readVarintWithin count bytes = none := by
  induction count generalizing bytes with
  | zero => rfl
  | succ count ih =>
    cases bytes with
    | nil => rfl
    | cons b rest =>
      have hb := h b List.mem_cons_self
      rw [readVarintWithin, if_neg (by omega),
        ih fun b' hb' => h b' (List.mem_cons_of_mem _ hb')]
      rfl

/-- **A number is invalid if each of its bytes says that another one follows.** -/
theorem readVarint_of_allOpen (h : AllOpen bytes) : readVarint bytes = .error .invalidVarint := by
  rw [readVarint, readVarint?, readVarintWithin_of_allOpen h]

theorem readKey_of_allOpen (h : AllOpen bytes) : readKey bytes = .error .invalidVarint := by
  rw [readKey, readVarint_of_allOpen h]
  rfl

/-- A cut length is invalid; behind a whole one there are too few bytes. -/
theorem readVarint_take_delimited (hbody : body.length < twoTo 64)
    (hi : i < (delimited body).length) :
    i < (varint body.length).length ∧
        readVarint ((delimited body).take i) = .error .invalidVarint ∨
      (varint body.length).length ≤ i ∧
        ∃ part : Bytes, part.length < body.length ∧
          readVarint ((delimited body).take i) = .ok (body.length, part) := by
  rw [delimited, List.length_append] at hi
  rw [delimited, List.take_append]
  rcases Nat.lt_or_ge i (varint body.length).length with hin | hafter
  · have hopen : AllOpen ((varint body.length).take i) := allOpen_take_varintWithin hin
    rw [Nat.sub_eq_zero_of_le (Nat.le_of_lt hin), List.take_zero, List.append_nil]
    exact .inl ⟨hin, readVarint_of_allOpen hopen⟩
  · rw [List.take_of_length_le hafter]
    refine .inr ⟨hafter, _, ?_, readVarint_append hbody _⟩
    rw [List.length_take]
    omega

/-! ## Cut values -/

namespace FieldValue

/-- What is wrong with a value of which only so many bytes are left. -/
def cutCause : FieldValue → Nat → Cause
  | .number _, _ => .invalidVarint
  | .eight _, _ => .underflow
  | .body b, i => if i < (varint b.length).length then .invalidVarint else .underflow

/-- Bytes are missing, or there is a number whose bytes all say that another follows. -/
theorem cutCause_cases {v : FieldValue} (hi : i < v.bytes.length) :
    v.cutCause i = .underflow ∨ v.cutCause i = .invalidVarint ∧ AllOpen (v.bytes.take i) := by
  cases v with
  | number n => exact .inr ⟨rfl, allOpen_take_varintWithin hi⟩
  | eight n => exact .inl rfl
  | body b =>
    rw [cutCause]
    by_cases hin : i < (varint b.length).length
    · refine .inr ⟨if_pos hin, ?_⟩
      rw [bytes, delimited, List.take_append_of_le_length (Nat.le_of_lt hin)]
      exact allOpen_take_varintWithin hin
    · exact .inl (if_neg hin)

/-- Where a value is missing altogether, it is a number that is invalid, unless the value
has eight bytes. -/
theorem cutCause_zero {v : FieldValue} (h : v.wire ≠ .sixtyFour) :
    v.cutCause 0 = .invalidVarint := by
  cases v with
  | number n => rfl
  | eight n => exact absurd rfl h
  | body b => exact if_pos (List.length_pos_iff.2 (varint_ne_nil _))

theorem cutCause_of_wire {v : FieldValue} (h : v.wire = .sixtyFour) (i : Nat) :
    v.cutCause i = .underflow := by
  cases v with
  | eight n => rfl
  | number n | body b => cases h

end FieldValue

theorem readDelimited_cut (hbody : body.length < twoTo 64) (hi : i < (delimited body).length) :
    readDelimited ((delimited body).take i) = .error ((FieldValue.body body).cutCause i) := by
  rw [readDelimited, FieldValue.cutCause]
  rcases readVarint_take_delimited hbody hi with ⟨hin, hread⟩ | ⟨hafter, part, hpart, hread⟩
  · rw [hread, if_pos hin]
    rfl
  · rw [hread, if_neg (Nat.not_lt.2 hafter)]
    exact if_pos hpart

theorem readNested_cut {α : Type}
    {field : Nat → Nat → WireType → α → Bytes → Except Fault (α × Bytes)} (depth : Nat) (a : α)
    (hbody : body.length < twoTo 64) (hi : i < (delimited body).length) :
    readNested field (depth + 1) .delimited a ((delimited body).take i) =
      .error (.ofCause ((FieldValue.body body).cutCause i)) := by
  rw [FieldValue.cutCause]
  simp only [readNested, expectWire, if_true]
  rcases readVarint_take_delimited hbody hi with ⟨hin, hread⟩ | ⟨hafter, part, hpart, hread⟩
  · rw [hread, if_pos hin]
    rfl
  · rw [hread, if_neg (Nat.not_lt.2 hafter)]
    exact if_pos hpart

/-- A cut value of a plain kind. -/
theorem Scalar.read_cut {s : Scalar} {x : s.Content} {r : FieldRecord}
    (hr : r ∈ s.records number x) (hsize : (s.encode number x).length < twoTo 64)
    (hi : i < r.value.bytes.length) :
    s.read r.value.wire (r.value.bytes.take i) = .error (r.value.cutCause i) := by
  have hnumber {n : Nat} (hi : i < (varint n).length) :
      readVarint ((varint n).take i) = .error .invalidVarint :=
    readVarint_of_allOpen (allOpen_take_varintWithin hi)
  have htext {t : String} (hr : r = ⟨number, .body (utf8 t)⟩)
      (hsize : (key number .delimited ++ delimited (utf8 t)).length < twoTo 64) :
      read.readText r.value.wire (r.value.bytes.take i) = .error (r.value.cutCause i) := by
    subst hr
    have hbody : (utf8 t).length < twoTo 64 := by
      simp only [delimited, List.length_append] at hsize
      omega
    simp only [read.readText, FieldValue.wire, expectWire, if_true, FieldValue.bytes]
    rw [readDelimited_cut hbody hi]
    rfl
  cases s with
  | amount =>
    simp only [records] at hr
    split at hr
    · cases hr
    · obtain rfl := List.mem_singleton.1 hr
      have hshort : ((fixed64 (Binary64.bits x).toNat).take i).length < 8 := by
        simp only [FieldValue.bytes, length_fixed64] at hi
        rw [List.length_take]
        omega
      simp only [read, FieldValue.wire, expectWire, if_true, FieldValue.bytes, takeBytes, hshort]
      rfl
  | count | moment | choice =>
    simp only [records] at hr
    split at hr
    · cases hr
    · obtain rfl := List.mem_singleton.1 hr
      simp only [read, FieldValue.wire, expectWire, if_true, FieldValue.bytes]
      rw [hnumber hi]
      rfl
  | text =>
    simp only [records] at hr
    split at hr
    · cases hr
    · rename_i hne
      rw [encode, if_neg hne] at hsize
      rw [read, htext (List.mem_singleton.1 hr) hsize]
      rfl
  | optionalText =>
    cases x with
    | none => cases hr
    | some t =>
      rw [read, htext (List.mem_singleton.1 hr) hsize]
      rfl

namespace Layout

variable {owner : String} {l : Layout} {c : l.Content} {depth : Nat} {r : FieldRecord}
  {before after : List FieldRecord}

/-- The names of the fields, in order. -/
def names : Layout → List String
  | .done => []
  | .scalar slot _ rest => slot.name :: rest.names
  | .message slot _ _ rest => slot.name :: rest.names
  | .repeated slot _ _ rest => slot.name :: rest.names

/-- Whether some bytes, as the value of a field of the given number, are reported under a
name with the given cause, whatever has been read before. -/
def Refuses (l : Layout) (owner : String) (depth number : Nat) (w : WireType) (value : Bytes)
    (cause : Cause) (name : String) : Prop :=
  ∀ a : l.Content,
    l.mergeField owner depth number w a value = .error ⟨cause, [(owner, name)]⟩

section Refuses

variable {owner name field : String} {slot : Slot} {kind : Scalar} {inner rest : Layout}
  {w : WireType} {value : Bytes} {cause : Cause}

theorem refuses_scalar_of_ne (hne : number ≠ slot.number)
    (h : rest.Refuses owner depth number w value cause field) :
    (scalar slot kind rest).Refuses owner depth number w value cause field := by
  rintro ⟨x, more⟩
  rw [mergeField, if_neg hne, h]
  rfl

theorem refuses_message_of_ne (hne : number ≠ slot.number)
    (h : rest.Refuses owner depth number w value cause field) :
    (message slot name inner rest).Refuses owner depth number w value cause field := by
  rintro ⟨m, more⟩
  rw [mergeField, if_neg hne, h]
  rfl

theorem refuses_repeated_of_ne (hne : number ≠ slot.number)
    (h : rest.Refuses owner depth number w value cause field) :
    (repeated slot name inner rest).Refuses owner depth number w value cause field := by
  rintro ⟨ms, more⟩
  rw [mergeField, if_neg hne, h]
  rfl

theorem refuses_scalar_cut {x : kind.Content} (hr : r ∈ kind.records slot.number x)
    (hsize : (kind.encode slot.number x).length < twoTo 64) (hi : i < r.value.bytes.length) :
    (scalar slot kind rest).Refuses owner depth r.number r.value.wire (r.value.bytes.take i)
      (r.value.cutCause i) slot.name := by
  rintro ⟨y, more⟩
  rw [mergeField, if_pos (Scalar.number_of_mem_records hr), Scalar.read_cut hr hsize hi]
  rfl

theorem refuses_message_cut (hbody : body.length < twoTo 64) (hi : i < (delimited body).length) :
    (message slot name inner rest).Refuses owner (depth + 1) slot.number .delimited
      ((delimited body).take i) ((FieldValue.body body).cutCause i) slot.name := by
  rintro ⟨m, more⟩
  rw [mergeField, if_pos rfl]
  show (inField owner slot (readNested _ _ _ _ _)).bind _ = _
  rw [readNested_cut _ _ hbody hi]
  rfl

theorem refuses_repeated_cut (hbody : body.length < twoTo 64) (hi : i < (delimited body).length) :
    (repeated slot name inner rest).Refuses owner (depth + 1) slot.number .delimited
      ((delimited body).take i) ((FieldValue.body body).cutCause i) slot.name := by
  rintro ⟨ms, more⟩
  rw [mergeField, if_pos rfl]
  show (inField owner slot (readNested _ _ _ _ _)).bind _ = _
  rw [readNested_cut _ _ hbody hi]
  rfl

end Refuses

/-- **The value of a field that is cut** is reported under the field's name. -/
theorem refuses_cut (owner : String) (hl : l.isSound depth = true)
    (hsize : (l.encode c).length < twoTo 64) (hr : r ∈ l.records c)
    (hi : i < r.value.bytes.length) :
    ∃ name ∈ l.names, l.Refuses owner depth r.number r.value.wire (r.value.bytes.take i)
      (r.value.cutCause i) name := by
  induction l generalizing depth with
  | done => cases hr
  | scalar slot kind rest ih =>
    obtain ⟨x, more⟩ := c
    simp only [isSound, Bool.and_eq_true, Slot.isApart_iff] at hl
    obtain ⟨⟨-, hapart⟩, hrest⟩ := hl
    simp only [encode, List.length_append] at hsize
    rcases List.mem_append.1 hr with hr | hr
    · exact ⟨slot.name, List.mem_cons_self, refuses_scalar_cut hr (by omega) hi⟩
    · obtain ⟨name, hname, hmore⟩ := ih hrest (by omega) hr
      have hne : r.number ≠ slot.number := fun heq =>
        hapart (heq ▸ number_mem_of_mem_records hr)
      exact ⟨name, List.mem_cons_of_mem _ hname, refuses_scalar_of_ne hne hmore⟩
  | message slot name inner rest _ ih =>
    obtain ⟨m, more⟩ := c
    simp only [isSound, Bool.and_eq_true, Slot.isApart_iff, oneLevelDown_iff] at hl
    obtain ⟨⟨⟨-, hapart⟩, d, rfl, -⟩, hrest⟩ := hl
    simp only [encode, List.length_append] at hsize
    rcases List.mem_append.1 hr with hr | hr
    · obtain ⟨m', hm, rfl⟩ := List.mem_map.1 hr
      obtain rfl := Option.mem_toList.1 hm
      have hbody : (inner.encode m').length < twoTo 64 := by
        simp only [delimited, List.length_append] at hsize
        omega
      exact ⟨slot.name, List.mem_cons_self, refuses_message_cut hbody hi⟩
    · obtain ⟨field, hfield, hmore⟩ := ih hrest (by omega) hr
      have hne : r.number ≠ slot.number := fun heq =>
        hapart (heq ▸ number_mem_of_mem_records hr)
      exact ⟨field, List.mem_cons_of_mem _ hfield, refuses_message_of_ne hne hmore⟩
  | repeated slot name inner rest _ ih =>
    obtain ⟨ms, more⟩ := c
    simp only [isSound, Bool.and_eq_true, Slot.isApart_iff, oneLevelDown_iff] at hl
    obtain ⟨⟨⟨-, hapart⟩, d, rfl, -⟩, hrest⟩ := hl
    simp only [encode, List.length_append] at hsize
    rcases List.mem_append.1 hr with hr | hr
    · obtain ⟨m, hm, rfl⟩ := List.mem_map.1 hr
      have hle := length_le_length_flatMap
        (fun i => key slot.number .delimited ++ delimited (inner.encode i)) hm
      have hbody : (inner.encode m).length < twoTo 64 := by
        simp only [delimited, List.length_append] at hle hsize
        omega
      exact ⟨slot.name, List.mem_cons_self, refuses_repeated_cut hbody hi⟩
    · obtain ⟨field, hfield, hmore⟩ := ih hrest (by omega) hr
      have hne : r.number ≠ slot.number := fun heq =>
        hapart (heq ▸ number_mem_of_mem_records hr)
      exact ⟨field, List.mem_cons_of_mem _ hfield, refuses_repeated_of_ne hne hmore⟩

/-! ## Cut frames -/

/-- Whether a place in a frame is right behind the key of a field whose value begins with
a number or a length. -/
def CutBehindKey (l : Layout) (c : l.Content) (k : Nat) : Prop :=
  ∃ before r after, l.records c = before ++ r :: after ∧ r.value.wire ≠ .sixtyFour ∧
    k = (frameOf before).length + r.key.length

/-- **Where a frame is cut**: between two fields, in a key, or in a value or right before it. -/
theorem exists_take_cases {k : Nat} (hk : k < (l.encode c).length) :
    ∃ before r after, l.records c = before ++ r :: after ∧
      ((l.encode c).take k = frameOf before ∨
        (∃ j, 0 < j ∧ j < r.key.length ∧ (l.encode c).take k = frameOf before ++ r.key.take j) ∨
        ∃ i, i < r.value.bytes.length ∧ k = (frameOf before).length + (r.key.length + i) ∧
          (l.encode c).take k = frameOf before ++ (r.key ++ r.value.bytes.take i)) := by
  rw [encode_eq] at hk ⊢
  obtain ⟨before, r, after, j, hsplit, hj, rfl⟩ := exists_cut hk
  refine ⟨before, r, after, hsplit, ?_⟩
  rw [hsplit, take_frameOf (Nat.le_of_lt hj)]
  rcases Nat.eq_zero_or_pos j with rfl | hpos
  · exact .inl (by rw [List.take_zero, List.append_nil])
  · rcases Nat.lt_or_ge j r.key.length with hkey | hvalue
    · refine .inr (.inl ⟨j, hpos, hkey, ?_⟩)
      rw [FieldRecord.bytes, List.take_append_of_le_length (Nat.le_of_lt hkey)]
    · obtain ⟨i, rfl⟩ := Nat.exists_eq_add_of_le hvalue
      rw [FieldRecord.bytes, List.length_append] at hj
      refine .inr (.inr ⟨i, by omega, rfl, ?_⟩)
      rw [FieldRecord.bytes, List.take_length_add_append]

section Frames

variable (hl : l.isSound depthLimit = true) (hsize : (l.encode c).length < twoTo 64)

include hl hsize

/-- The fields before a place in a frame read as the message of those fields. -/
theorem reads_before (hsplit : l.records c = before ++ after) :
    Parses (l.mergeField owner depthLimit) (· ∈ l.numbers) l.default (frameOf before)
      (l.normal (l.first before.length c)) := by
  have hfirst : l.encode (l.first before.length c) = frameOf before := encode_first hsplit
  have hshort : (l.encode (l.first before.length c)).length < twoTo 64 := by
    rw [encode_eq, hsplit, frameOf_append, List.length_append] at hsize
    rw [hfirst]
    omega
  rw [← hfirst]
  exact reads hl _ hshort

/-- **A frame that is cut between two fields** is that of the message of the fields before
the cut. -/
theorem decode_frameOf (hsplit : l.records c = before ++ after) :
    l.decode owner (frameOf before) = .ok (l.normal (l.first before.length c)) :=
  decode_of_parses (reads_before hl hsize hsplit)

/-- **A frame that is cut in a key** ends in an invalid number. -/
theorem decode_cut_key (hsplit : l.records c = before ++ r :: after) (hpos : 0 < j)
    (hj : j < r.key.length) :
    l.decode owner (frameOf before ++ r.key.take j) = .error (.ofCause .invalidVarint) := by
  have hopen : AllOpen (r.key.take j) := allOpen_take_varintWithin hj
  have hlength : (r.key.take j).length = j := List.length_take_of_le (Nat.le_of_lt hj)
  rw [decode]
  show (readFieldsWithin _ 0 _ _ _).bind _ = _
  rw [(reads_before hl hsize hsplit).readFieldsWithin_badKey (by omega) (readKey_of_allOpen hopen)]
  rfl

/-- **A frame that is cut in a value**, or right before it. -/
theorem decode_cut (owner : String) (hsplit : l.records c = before ++ r :: after)
    (hi : i < r.value.bytes.length) :
    ∃ name ∈ l.names, l.decode owner (frameOf before ++ (r.key ++ r.value.bytes.take i)) =
      .error ⟨r.value.cutCause i, [(owner, name)]⟩ := by
  have hr : r ∈ l.records c := by
    rw [hsplit]
    exact List.mem_append_right _ List.mem_cons_self
  have hnumber := isFieldNumber_of_mem_numbers hl (number_mem_of_mem_records hr)
  obtain ⟨name, hname, hvalue⟩ := refuses_cut owner hl hsize hr hi
  refine ⟨name, hname, ?_⟩
  rw [decode]
  show (readFieldsWithin _ 0 _ _ _).bind _ = _
  rw [FieldRecord.key, (reads_before hl hsize hsplit).readFieldsWithin_error hnumber (hvalue _)]
  rfl

/-- **A cut frame that is read** is that of the first fields, and the message is theirs. -/
theorem exists_of_decode_take {k : Nat} {c' : l.Content}
    (h : l.decode owner ((l.encode c).take k) = .ok c') :
    ∃ n, (l.encode c).take k = l.encode (l.first n c) ∧ c' = l.normal (l.first n c) := by
  -- what is left are the fields before the cut, and it is read as their message
  have hbefore {before after : List FieldRecord} (hsplit : l.records c = before ++ after)
      (htake : (l.encode c).take k = frameOf before) :
      ∃ n, (l.encode c).take k = l.encode (l.first n c) ∧ c' = l.normal (l.first n c) := by
    refine ⟨before.length, htake.trans (encode_first hsplit).symm, ?_⟩
    rw [htake, decode_frameOf hl hsize hsplit] at h
    exact (Except.ok.inj h).symm
  rcases Nat.lt_or_ge k (l.encode c).length with hk | hk
  · obtain ⟨before, r, after, hsplit, htake | ⟨j, hpos, hj, htake⟩ | ⟨i, hi, -, htake⟩⟩ :=
      exists_take_cases hk
    · exact hbefore hsplit htake
    · rw [htake, decode_cut_key hl hsize hsplit hpos hj] at h
      cases h
    · obtain ⟨name, -, hdecode⟩ := decode_cut hl hsize owner hsplit hi
      rw [htake, hdecode] at h
      cases h
  · refine hbefore (List.append_nil _).symm ?_
    rw [List.take_of_length_le hk, encode_eq]

end Frames

end Layout

end PushFeed.Wire
