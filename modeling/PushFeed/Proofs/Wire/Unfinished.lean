import PushFeed.Proofs.Wire.Grammar
/-!
# Frames that can be completed

Bytes can be made a frame by further ones if they are whole fields and the beginning of one
more (`Layout.exists_decode_append_iff`). The beginning of a field is that of its key, or the
key and the beginning of the value. How values begin is said kind by kind and without the
bytes that would complete them (`Layout.IsCutValue`): a number all of whose bytes say that
another one follows, fewer than eight bytes, or a length and fewer bytes than it counts.

Those bytes may be wrong by themselves. A length counts what follows it to the byte, so they
have to be the beginning of a text or of fields of just that many bytes.
-/

namespace PushFeed.Wire

/-- Whether bytes are the beginning of something, with at least one byte missing. -/
def Begins (whole : Bytes → Prop) (part : Bytes) : Prop :=
  ∃ more, more ≠ [] ∧ whole (part ++ more)

variable {part b : Bytes} {number : Nat} {w : WireType}

theorem begins_number_iff : Begins (fun v => ∃ n, IsNumber v n) part ↔ IsOpen part := by
  constructor
  · rintro ⟨more, hmore, n, hn⟩
    exact hn.isOpen_of_append hmore
  · intro h
    obtain ⟨n, hn, -⟩ := h.exists_isNumber (b := 0) (by decide)
    exact ⟨[0], List.cons_ne_nil _ _, n, hn⟩

theorem begins_length_iff {count : Nat} :
    Begins (fun v => v.length = count) part ↔ part.length < count := by
  constructor
  · rintro ⟨more, hmore, hlength⟩
    have hpos := List.length_pos_iff.2 hmore
    rw [List.length_append] at hlength
    omega
  · intro h
    have hlength : (List.replicate (count - part.length) (0 : UInt8)).length =
        count - part.length := List.length_replicate
    refine ⟨_, List.length_pos_iff.1 (by rw [hlength]; omega), ?_⟩
    show (part ++ _).length = count
    rw [List.length_append, hlength]
    omega

/-! ## Bytes behind their length -/

/-- Whether bytes are a cut length, or a length and fewer bytes than it counts, which can be
completed to just as many. -/
def IsCutBody (bodies : Bytes → Prop) (part : Bytes) : Prop :=
  IsOpen part ∨ ∃ len before after, part = len ++ before ∧ after ≠ [] ∧
    IsNumber len (before ++ after).length ∧ bodies (before ++ after)

/-- Bytes of a kind begin so behind their length if there are some of every length. There
need be none of length one, as there are no fields of a single byte. -/
theorem begins_body_iff {bodies : Bytes → Prop}
    (hbodies : ∀ n, n ≠ 1 → ∃ body : Bytes, body.length = n ∧ bodies body) :
    Begins (fun v => ∃ body, IsBody v body ∧ bodies body) part ↔ IsCutBody bodies part := by
  constructor
  · rintro ⟨more, hmore, body, hbody, hkind⟩
    rcases hbody.cut with hopen | ⟨len, before, rfl, hlen, rfl⟩
    · exact .inl hopen
    · exact .inr ⟨len, before, more, rfl, hmore, hlen, hkind⟩
  · rintro (hopen | ⟨len, before, after, rfl, hafter, hlen, hkind⟩)
    · -- the length is completed by one byte, and to a length that is not one
      obtain ⟨last, n, hn, hne⟩ : ∃ last n, IsNumber (part ++ [last]) n ∧ n ≠ 1 := by
        rcases List.eq_nil_or_concat part with rfl | ⟨init, c, rfl⟩
        · exact ⟨0, 0, ⟨.last (by decide), by decide, by decide⟩, by decide⟩
        · obtain ⟨n, hn, hlow⟩ := hopen.exists_isNumber (b := 1) (by decide)
          rw [List.concat_eq_append, List.length_append, List.length_singleton] at hlow
          have hpow : Nat.pow 128 (init.length + 1) = Nat.pow 128 init.length * 128 := rfl
          have hpos : 0 < Nat.pow 128 init.length := Nat.pow_pos (by decide)
          have hone : UInt8.toNat 1 = 1 := rfl
          exact ⟨1, n, hn, by rw [hone, Nat.mul_one] at hlow; omega⟩
      obtain ⟨body, rfl, hkind⟩ := hbodies n hne
      exact ⟨[last] ++ body, List.cons_ne_nil _ _, body,
        ⟨part ++ [last], (List.append_assoc _ _ _).symm, hn⟩, hkind⟩
    · exact ⟨after, hafter, before ++ after, ⟨len, List.append_assoc _ _ _, hlen⟩, hkind⟩

/-- There are texts of every length. -/
theorem exists_length_utf8 (n : Nat) : ∃ s, (utf8 s).length = n := by
  induction n with
  | zero => exact ⟨"", rfl⟩
  | succ n ih =>
    obtain ⟨s, hs⟩ := ih
    refine ⟨"a" ++ s, ?_⟩
    have happend : utf8 ("a" ++ s) = utf8 "a" ++ utf8 s := by
      simp [utf8]
    rw [happend, List.length_append, hs, show (utf8 "a").length = 1 from rfl, Nat.add_comm]

/-! ## Fields -/

/-- Whether the beginnings of values are the given ones. -/
def Cuts (values cuts : Nat → WireType → Bytes → Prop) : Prop :=
  ∀ {number}, IsFieldNumber number → ∀ {w part},
    cuts number w part ↔ Begins (values number w) part

/-- Whether bytes are the beginning of a field: that of the key of a field that there is, or a
key and the beginning of a value. -/
def IsCutField (values cuts : Nat → WireType → Bytes → Prop) (part : Bytes) : Prop :=
  (part ≠ [] ∧ ∃ number w, Begins (IsKey · number w) part ∧ ∃ v, values number w v) ∨
    ∃ k number w v, part = k ++ v ∧ IsKey k number w ∧ cuts number w v

/-- Whether bytes are whole fields and the beginning of another one. -/
def AreCutFields (values cuts : Nat → WireType → Bytes → Prop) (b : Bytes) : Prop :=
  ∃ done part, b = done ++ part ∧ AreFields values done ∧ IsCutField values cuts part

section Fields

variable {values cuts : Nat → WireType → Bytes → Prop}

theorem Cuts.isCutField_iff (h : Cuts values cuts) :
    IsCutField values cuts part ↔ part ≠ [] ∧ Begins (IsField values) part := by
  constructor
  · rintro (⟨hpart, number, w, ⟨more, hmore, hk⟩, v, hv⟩ | ⟨k, number, w, v, rfl, hk, hcut⟩)
    · exact ⟨hpart, more ++ v, by simp [hmore], part ++ more, number, w, v,
        (List.append_assoc _ _ _).symm, hk, hv⟩
    · obtain ⟨more, hmore, hv⟩ := (h hk.1).1 hcut
      exact ⟨by simp [hk.ne_nil], more, hmore, k, number, w, v ++ more, List.append_assoc _ _ _,
        hk, hv⟩
  · rintro ⟨hpart, more, hmore, k, number, w, v, heq, hk, hv⟩
    rcases List.append_eq_append_iff.1 heq with ⟨inside, rfl, rfl⟩ | ⟨before, rfl, rfl⟩
    · -- the cut is in the key, or right behind it
      rcases List.eq_nil_or_concat inside with rfl | hconcat
      · rw [List.append_nil] at hk
        exact .inr ⟨part, number, w, [], (List.append_nil _).symm, hk, (h hk.1).2 ⟨v, hmore, hv⟩⟩
      · refine .inl ⟨hpart, number, w, ⟨inside, ?_, hk⟩, v, hv⟩
        obtain ⟨_, _, rfl⟩ := hconcat
        simp
    · exact .inr ⟨k, number, w, before, rfl, hk, (h hk.1).2 ⟨more, hmore, hv⟩⟩

/-- **Fields can be completed** if they are whole already, or whole but for the last one. -/
theorem Cuts.exists_areFields_iff (h : Cuts values cuts) :
    (∃ c, AreFields values (b ++ c)) ↔ AreFields values b ∨ AreCutFields values cuts b := by
  constructor
  · rintro ⟨c, hfields⟩
    generalize hbytes : b ++ c = bytes at hfields
    induction hfields generalizing b with
    | nil =>
      rw [(List.append_eq_nil_iff.1 hbytes).1]
      exact .inl .nil
    | @cons f more hf hmore ih =>
      rcases List.append_eq_append_iff.1 hbytes with ⟨inside, rfl, -⟩ | ⟨later, rfl, hlater⟩
      · -- the first field is not whole, unless nothing of it is missing
        rcases List.eq_nil_or_concat inside with rfl | hconcat
        · rw [List.append_nil] at hf
          exact .inl (.single hf)
        · rcases List.eq_nil_or_concat b with rfl | hb
          · exact .inl .nil
          · have hcut : IsCutField values cuts b := by
              refine h.isCutField_iff.2 ⟨?_, inside, ?_, hf⟩
              · obtain ⟨_, _, rfl⟩ := hb
                simp
              · obtain ⟨_, _, rfl⟩ := hconcat
                simp
            exact .inr ⟨[], b, rfl, .nil, hcut⟩
      · rcases ih hlater.symm with hwhole | ⟨done, part, rfl, hdone, hcut⟩
        · exact .inl (.cons hf hwhole)
        · exact .inr ⟨f ++ done, part, (List.append_assoc _ _ _).symm, .cons hf hdone, hcut⟩
  · rintro (hwhole | ⟨done, part, rfl, hdone, hcut⟩)
    · exact ⟨[], by rwa [List.append_nil]⟩
    · obtain ⟨-, more, -, hfield⟩ := h.isCutField_iff.1 hcut
      exact ⟨more, by rw [List.append_assoc]; exact hdone.append (.single hfield)⟩

end Fields

/-! ## Fields that are passed over -/

/-- The beginnings of values that are passed over. -/
def IsCutSkipped : Nat → Nat → WireType → Bytes → Prop
  | 0, _, _, _ => False
  | _ + 1, _, .varint, part => IsOpen part
  | _ + 1, _, .sixtyFour, part => part.length < 8
  | _ + 1, _, .thirtyTwo, part => part.length < 4
  | _ + 1, _, .delimited, part => IsCutBody (fun _ => True) part
  | depth + 1, number, .startGroup, part =>
    ∃ inner cut, part = inner ++ cut ∧ AreFields (IsSkipped depth) inner ∧
      (Begins (IsKey · number .endGroup) cut ∨
        IsCutField (IsSkipped depth) (IsCutSkipped depth) cut)
  | _ + 1, _, .endGroup, _ => False

/-- **The values that are passed over begin so.** -/
theorem cuts_isSkipped (depth : Nat) : Cuts (IsSkipped depth) (IsCutSkipped depth) := by
  induction depth with
  | zero => exact fun _ => by simp [IsSkipped, IsCutSkipped, Begins]
  | succ depth ih =>
    intro number hnumber w part
    cases w with
    | varint => exact begins_number_iff.symm
    | sixtyFour | thirtyTwo => exact begins_length_iff.symm
    | delimited =>
      have hbodies (n : Nat) (_ : n ≠ 1) : ∃ body : Bytes, body.length = n ∧ True :=
        ⟨List.replicate n 0, List.length_replicate, trivial⟩
      simpa only [IsCutSkipped, IsSkipped, and_true] using (begins_body_iff hbodies).symm
    | startGroup =>
      constructor
      · rintro ⟨inner, cut, rfl, hinner, ⟨more, hmore, hstop⟩ | hcut⟩
        · exact ⟨more, hmore, inner, cut ++ more, List.append_assoc _ _ _, hinner, hstop⟩
        · obtain ⟨-, more, -, hfield⟩ := ih.isCutField_iff.1 hcut
          have hstop := isKey_key hnumber .endGroup
          exact ⟨more ++ key number .endGroup, by simp [hstop.ne_nil], inner ++ (cut ++ more),
            key number .endGroup, by simp, hinner.append (.single hfield), hstop⟩
      · rintro ⟨more, hmore, inner, stop, heq, hinner, hstop⟩
        rcases List.append_eq_append_iff.1 heq with ⟨inside, rfl, -⟩ | ⟨cut, rfl, rfl⟩
        · -- the cut is before the end of the group
          rcases ih.exists_areFields_iff.1 ⟨inside, hinner⟩ with
            hwhole | ⟨done, cut, rfl, hdone, hcut⟩
          · exact ⟨part, [], (List.append_nil _).symm, hwhole, .inl ⟨stop, hstop.ne_nil, hstop⟩⟩
          · exact ⟨done, cut, rfl, hdone, .inr hcut⟩
        · exact ⟨inner, cut, rfl, hinner, .inl ⟨more, hmore, hstop⟩⟩
    | endGroup => simp [IsSkipped, IsCutSkipped, Begins]

/-! ## Values of declared fields -/

/-- The beginnings of the values of a plain kind. -/
def Scalar.IsCutValue : Scalar → WireType → Bytes → Prop
  | .amount, w, part => w = .sixtyFour ∧ part.length < 8
  | .count, w, part => w = .varint ∧ IsOpen part
  | .moment, w, part => w = .varint ∧ IsOpen part
  | .choice _, w, part => w = .varint ∧ IsOpen part
  | .text, w, part => w = .delimited ∧ IsCutBody (fun body => ∃ s, body = utf8 s) part
  | .optionalText, w, part => w = .delimited ∧ IsCutBody (fun body => ∃ s, body = utf8 s) part

/-- The beginnings of the values of a nested message. -/
def IsCutNested (values : Nat → Nat → WireType → Bytes → Prop) : Nat → WireType → Bytes → Prop
  | 0, _, _ => False
  | depth + 1, w, part => w = .delimited ∧ IsCutBody (AreFields (values depth)) part

theorem begins_and_iff {p : Prop} {whole : Bytes → Prop} :
    Begins (fun v => p ∧ whole v) part ↔ p ∧ Begins whole part :=
  ⟨fun ⟨more, hmore, hp, hwhole⟩ => ⟨hp, more, hmore, hwhole⟩,
    fun ⟨hp, more, hmore, hwhole⟩ => ⟨more, hmore, hp, hwhole⟩⟩

theorem ite_iff_begins {p cut cut' : Prop} [Decidable p] {whole whole' : Bytes → Prop}
    (h : cut ↔ Begins whole part) (h' : cut' ↔ Begins whole' part) :
    (if p then cut else cut') ↔ Begins (fun v => if p then whole v else whole' v) part := by
  by_cases hp : p
  · simpa only [if_pos hp] using h
  · simpa only [if_neg hp] using h'

theorem begins_text_iff :
    Begins (fun v => ∃ s, IsBody v (utf8 s)) part ↔
      IsCutBody (fun body => ∃ s, body = utf8 s) part := by
  have hbodies (n : Nat) (_ : n ≠ 1) : ∃ body : Bytes, body.length = n ∧ ∃ s, body = utf8 s := by
    obtain ⟨s, hs⟩ := exists_length_utf8 n
    exact ⟨utf8 s, hs, s, rfl⟩
  rw [← begins_body_iff hbodies]
  constructor
  · rintro ⟨more, hmore, s, hs⟩
    exact ⟨more, hmore, utf8 s, hs, s, rfl⟩
  · rintro ⟨more, hmore, _, hs, s, rfl⟩
    exact ⟨more, hmore, s, hs⟩

/-- **The values of a plain kind begin so.** -/
theorem Scalar.isCutValue_iff (s : Scalar) : s.IsCutValue w part ↔ Begins (s.IsValue w) part := by
  cases s with
  | amount =>
    show _ ↔ Begins (fun v => w = .sixtyFour ∧ v.length = 8) part
    rw [begins_and_iff, begins_length_iff]
    rfl
  | count | moment | choice =>
    show _ ↔ Begins (fun v => w = .varint ∧ ∃ n, IsNumber v n) part
    rw [begins_and_iff, begins_number_iff]
    rfl
  | text | optionalText =>
    show _ ↔ Begins (fun v => w = .delimited ∧ ∃ s, IsBody v (utf8 s)) part
    rw [begins_and_iff, begins_text_iff]
    rfl

/-- Fields that are passed over fill any number of bytes but one. -/
theorem exists_areFields_of_length {values : Nat → WireType → Bytes → Prop} {number : Nat}
    (hnumber : IsFieldNumber number) (hshort : (key number .varint).length = 1)
    (hspare : ∀ v n, IsNumber v n → values number .varint v) :
    ∀ n, n ≠ 1 → ∃ body : Bytes, body.length = n ∧ AreFields values body
  | 0, _ => ⟨[], rfl, .nil⟩
  | 1, hn => absurd rfl hn
  | n + 2, _ => by
    have hkey := isKey_key hnumber .varint
    by_cases hone : n = 1
    · have hlong : IsNumber [128, 0] 0 :=
        ⟨.more (by decide) (.last (by decide)), by decide, by decide⟩
      have hfield : IsField values (key number .varint ++ [128, 0]) :=
        ⟨_, number, .varint, _, rfl, hkey, hspare _ _ hlong⟩
      exact ⟨_, by simp [hshort, hone], .single hfield⟩
    · have hzero : IsNumber [0] 0 := ⟨.last (by decide), by decide, by decide⟩
      have hfield : IsField values (key number .varint ++ [0]) :=
        ⟨_, number, .varint, _, rfl, hkey, hspare _ _ hzero⟩
      obtain ⟨body, hbody, hfields⟩ := exists_areFields_of_length hnumber hshort hspare n hone
      refine ⟨_, ?_, .cons hfield hfields⟩
      simp only [List.length_append, hshort, hbody, List.length_singleton]
      omega

namespace Layout

/-- The beginnings of the values that a field of a number may have in a message. -/
def IsCutValue : Layout → Nat → Nat → WireType → Bytes → Prop
  | .done, depth, number, w, part => IsCutSkipped depth number w part
  | .scalar slot kind rest, depth, number, w, part =>
    if number = slot.number then kind.IsCutValue w part else rest.IsCutValue depth number w part
  | .message slot _ inner rest, depth, number, w, part =>
    if number = slot.number then IsCutNested inner.IsValue depth w part
    else rest.IsCutValue depth number w part
  | .repeated slot _ inner rest, depth, number, w, part =>
    if number = slot.number then IsCutNested inner.IsValue depth w part
    else rest.IsCutValue depth number w part

/-- The last field number whose key has one byte. -/
def spareNumber : Nat := 15

/-- Whether fields of that number are passed over in a nested message. -/
def isSpareIn (inner : Layout) (depth : Nat) : Bool :=
  decide (0 < depth ∧ spareNumber ∉ inner.numbers)

/-- Whether there can be such fields in every message that is nested right in this one. -/
def hasSpare : Layout → Nat → Bool
  | .done, _ => true
  | .scalar _ _ rest, depth => rest.hasSpare depth
  | .message _ _ inner rest, depth =>
    oneLevelDown inner.isSpareIn depth && rest.hasSpare depth
  | .repeated _ _ inner rest, depth =>
    oneLevelDown inner.isSpareIn depth && rest.hasSpare depth

variable {l inner : Layout} {owner : String} {depth : Nat}

/-- A field of an undeclared number has the values that are passed over. -/
theorem isValue_iff_of_not_mem {v : Bytes} (h : number ∉ l.numbers) :
    l.IsValue depth number w v ↔ IsSkipped depth number w v := by
  induction l with
  | done => exact Iff.rfl
  | scalar slot kind rest ih | message slot name inner rest _ ih
  | repeated slot name inner rest _ ih =>
    obtain ⟨hne, hrest⟩ := List.ne_and_not_mem_of_not_mem_cons h
    rw [IsValue, if_neg hne]
    exact ih hrest

theorem isCutNested_iff (h : oneLevelDown inner.isSpareIn depth = true) :
    IsCutNested inner.IsValue depth w part ↔ Begins (IsNested inner.IsValue depth w) part := by
  obtain ⟨d, rfl, hspare⟩ := oneLevelDown_iff.1 h
  obtain ⟨hdeep, hfree⟩ := of_decide_eq_true hspare
  have hvalues (v : Bytes) (n : Nat) (hv : IsNumber v n) :
      inner.IsValue d spareNumber .varint v := by
    obtain ⟨d, rfl⟩ := Nat.exists_eq_add_of_lt hdeep
    exact (isValue_iff_of_not_mem hfree).2 ⟨n, hv⟩
  have hbodies := exists_areFields_of_length (by decide) (by decide) hvalues
  show _ ↔ Begins
    (fun v => w = .delimited ∧ ∃ body, IsBody v body ∧ AreFields (inner.IsValue d) body) part
  rw [begins_and_iff, begins_body_iff hbodies]
  rfl

/-- **The values of a field begin so.** -/
theorem cuts_isValue (h : l.hasSpare depth = true) :
    Cuts (l.IsValue depth) (l.IsCutValue depth) := by
  intro number hnumber w part
  induction l with
  | done => exact cuts_isSkipped depth hnumber
  | scalar slot kind rest ih => exact ite_iff_begins kind.isCutValue_iff (ih h)
  | message slot name inner rest _ ih | repeated slot name inner rest _ ih =>
    simp only [hasSpare, Bool.and_eq_true] at h
    exact ite_iff_begins (isCutNested_iff h.1) (ih h.2)

/-- Whether bytes are the beginning of a frame that is cut in one of its fields. -/
def IsCutFrame (l : Layout) (b : Bytes) : Prop :=
  AreCutFields (l.IsValue depthLimit) (l.IsCutValue depthLimit) b

/-- **A frame can be completed** if and only if it is whole, or whole but for the beginning of
one field. -/
theorem exists_decode_append_iff (h : l.hasSpare depthLimit = true) :
    (∃ c m, l.decode owner (b ++ c) = .ok m) ↔ l.IsFrame b ∨ l.IsCutFrame b := by
  simp only [decode_eq_ok_iff]
  exact Cuts.exists_areFields_iff (cuts_isValue h)

end Layout

end PushFeed.Wire
