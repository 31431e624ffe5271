import PushFeed.Proofs.Schema.Cut
import PushFeed.Proofs.Wire.Grammar
/-!
# Fields that a type does not declare

A newer sender may put fields into a frame that the reader's type does not declare. Such a
field has any value that is passed over, a group of other fields among them. It takes part in
nothing: the frame reads with it, between any two of its fields, as it does without it
(`MessageType.decode_undeclared`). This holds of frames that are refused as well, as what
stands behind the field is read in the same way.
-/

namespace PushFeed

open Wire

namespace Wire

section Readers

variable {α : Type} {field : Nat → WireType → α → Bytes → Except Fault (α × Bytes)}
  {values : Nat → WireType → Bytes → Prop} {a : α} {bytes front record : Bytes}
  {limit fuel fuel' : Nat}

/-- With as many steps as there are bytes it does not matter how many there are. -/
theorem Takes.readFieldsWithin_congr (h : Takes values field) (hfuel : bytes.length ≤ fuel)
    (hfuel' : bytes.length ≤ fuel') :
    readFieldsWithin field limit fuel a bytes = readFieldsWithin field limit fuel' a bytes := by
  induction fuel generalizing a bytes fuel' with
  | zero =>
    obtain rfl := List.eq_nil_of_length_eq_zero (Nat.le_zero.1 hfuel)
    rw [readFieldsWithin_of_le (Nat.zero_le _), readFieldsWithin_of_le (Nat.zero_le _)]
  | succ fuel ih =>
    cases fuel' with
    | zero =>
      obtain rfl := List.eq_nil_of_length_eq_zero (Nat.le_zero.1 hfuel')
      rw [readFieldsWithin_of_le (Nat.zero_le _), readFieldsWithin_of_le (Nat.zero_le _)]
    | succ fuel' =>
      rw [readFieldsWithin, readFieldsWithin]
      split
      · rfl
      · cases hkey : readKey bytes with
        | error cause => rfl
        | ok read =>
          obtain ⟨number, w, left⟩ := read
          obtain ⟨k, rfl, hk⟩ := readKey_eq_ok_iff.1 hkey
          show (field number w a left).bind _ = (field number w a left).bind _
          cases hvalue : field number w a left with
          | error fault => rfl
          | ok taken =>
            obtain ⟨a', left'⟩ := taken
            obtain ⟨v, rfl, -⟩ := h.sound hvalue
            have hpos := List.length_pos_iff.2 hk.ne_nil
            simp only [List.length_append] at hfuel hfuel'
            exact ih (by omega) (by omega)

/-- What changes no message can be put between fields. -/
theorem Takes.readFieldsWithin_insert (h : Takes values field) (hfront : AreFields values front)
    (hrecord : ∀ a, Merges field a record a) (a : α) (back : Bytes) :
    readFieldsWithin field 0 (front ++ record ++ back).length a (front ++ record ++ back) =
      readFieldsWithin field 0 (front ++ back).length a (front ++ back) := by
  obtain ⟨a', hmerges⟩ := h.exists_merges hfront a
  obtain ⟨fuel, hfuel, hwith⟩ :=
    (hmerges.append (hrecord a')).exists_fuel back (Nat.zero_le _) (Nat.le_refl _)
  obtain ⟨fuel', hfuel', hwithout⟩ := hmerges.exists_fuel back (Nat.zero_le _) (Nat.le_refl _)
  rw [hwith, hwithout, h.readFieldsWithin_congr hfuel hfuel']

end Readers

namespace Layout

variable {l : Layout} {owner : String} {depth number : Nat} {w : WireType}
  {bytes rest record front : Bytes} {c : l.Content}

/-- Whether bytes are a field that a layout does not declare, with a value that is passed
over. -/
def IsUndeclared (l : Layout) (record : Bytes) : Prop :=
  IsField (fun number w v => number ∉ l.numbers ∧ IsSkipped depthLimit number w v) record

/-- A field of an undeclared number is passed over, whatever has been read before. -/
theorem mergeField_of_not_mem (hnumber : number ∉ l.numbers)
    (h : skipField depth w number bytes = .ok rest) :
    l.mergeField owner depth number w c bytes = .ok (c, rest) := by
  induction l with
  | done =>
    rw [mergeField, h]
    rfl
  | scalar slot kind more ih =>
    obtain ⟨x, c⟩ := c
    obtain ⟨hne, hmore⟩ := List.ne_and_not_mem_of_not_mem_cons hnumber
    exact mergeField_scalar_of_ne hne (ih hmore)
  | message slot name inner more _ ih =>
    obtain ⟨m, c⟩ := c
    obtain ⟨hne, hmore⟩ := List.ne_and_not_mem_of_not_mem_cons hnumber
    exact mergeField_message_of_ne hne (ih hmore)
  | repeated slot name inner more _ ih =>
    obtain ⟨ms, c⟩ := c
    obtain ⟨hne, hmore⟩ := List.ne_and_not_mem_of_not_mem_cons hnumber
    exact mergeField_repeated_of_ne hne (ih hmore)

/-- **An undeclared field leaves every message as it is.** -/
theorem merges_of_isUndeclared (h : l.IsUndeclared record) (owner : String) (c : l.Content) :
    Merges (l.mergeField owner depthLimit) c record c := by
  obtain ⟨k, number, w, v, rfl, hk, hnumber, hv⟩ := h
  have hvalue (rest : Bytes) :
      l.mergeField owner depthLimit number w c (v ++ rest) = .ok (c, rest) :=
    mergeField_of_not_mem hnumber (skipField_eq_ok_iff.2 ⟨v, rfl, hv⟩)
  have hmerges := Merges.cons hk hvalue (.nil c)
  rwa [List.append_nil] at hmerges

/-- An undeclared field is what is passed over to its end. -/
theorem isUndeclared_of_skipField (hkey : readKey record = .ok (number, w, rest))
    (hnumber : number ∉ l.numbers) (hskip : skipField depthLimit w number rest = .ok []) :
    l.IsUndeclared record := by
  obtain ⟨k, rfl, hk⟩ := readKey_eq_ok_iff.1 hkey
  obtain ⟨v, rfl, hv⟩ := skipField_eq_ok_iff.1 hskip
  exact ⟨k, number, w, v, by rw [List.append_nil], hk, hnumber, hv⟩

/-- A frame reads with an undeclared field between its fields as it does without. -/
theorem decode_insert (hfront : l.IsFrame front) (hrecord : l.IsUndeclared record)
    (owner : String) (back : Bytes) :
    l.decode owner (front ++ record ++ back) = l.decode owner (front ++ back) := by
  rw [decode, decode, (l.takes_mergeField owner depthLimit).readFieldsWithin_insert hfront
    (merges_of_isUndeclared hrecord owner)]

end Layout

end Wire

namespace MessageType

/-- **Undeclared fields change nothing.** With a field that the type does not declare put
between two of its fields, before the first or behind the last one, a frame has the value
that it has without it, or is refused for the same reason. -/
theorem decode_undeclared {t : MessageType} {front record back : Bytes}
    (hfront : t.layout.IsFrame front) (hrecord : t.layout.IsUndeclared record) :
    t.decode (front ++ record ++ back) = t.decode (front ++ back) := by
  rw [decode, decode, decodeMessage, decodeMessage, Layout.decode_insert hfront hrecord]
  cases hdecode : t.layout.decode t.name (front ++ back) with
  | ok m => rfl
  | error fault =>
    -- whether the frame is truncated is told by its last byte, which is still the same
    have hback : back ≠ [] := by
      rintro rfl
      obtain ⟨m, hm⟩ := Layout.decode_eq_ok_iff.2 hfront
      rw [List.append_nil, hm] at hdecode
      cases hdecode
    simp only [classifyFault, endsOpen_append hback]

/-- Between the market and its second book stands a group that holds a group and a number in
more bytes than it needs. -/
theorem decode_undeclared_group :
    marketBook.decode ([10, 1, 109] ++ [123, 11, 12, 8, 128, 128, 0, 124] ++ [26, 0]) =
      .ok (marketBookLayout.toJson ("m", none, some ([], [], ()), ())) := by
  have hfront : marketBook.layout.IsFrame [10, 1, 109] :=
    Layout.decode_eq_ok_iff.1 ⟨("m", none, none, ()), (rfl : marketBook.layout.decode "" _ = _)⟩
  have hkey : readKey [123, 11, 12, 8, 128, 128, 0, 124] =
      .ok (15, .startGroup, [11, 12, 8, 128, 128, 0, 124]) := rfl
  have hrecord : marketBook.layout.IsUndeclared [123, 11, 12, 8, 128, 128, 0, 124] :=
    Layout.isUndeclared_of_skipField hkey (by decide) rfl
  exact (decode_undeclared hfront hrecord).trans rfl

end MessageType

end PushFeed
