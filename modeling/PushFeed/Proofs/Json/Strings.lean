import PushFeed.Json.Printer
import PushFeed.Json.Token
/-!
# Strings read back

A character stands in a JSON text as it is, behind a backslash as one letter, or as the four
hexadecimal digits of its code point (`escapedChar_cases`). Each of the three is read back as the
character, so a string that was written is read back up to its closing quote
(`readString_escaped`), and it is written without characters below the space
(`isPlain_stringText`).
-/

namespace PushFeed.Json

/-! ## Characters -/

theorem hexValue?_digitChar {n : Nat} (h : n < 16) : hexValue? (Nat.digitChar n) = some n := by
  have hall : ∀ n < 16, hexValue? (Nat.digitChar n) = some n := by decide
  exact hall n h

theorem le_toNat_digitChar {n : Nat} (h : n < 16) : 0x20 ≤ (Nat.digitChar n).toNat := by
  have hall : ∀ n < 16, 0x20 ≤ (Nat.digitChar n).toNat := by decide
  exact hall n h

/-- A number below 32 in hexadecimal, with one digit or two. -/
theorem hexDigits_of_lt {n : Nat} (h : n < 32) :
    Text.hexDigits n = if n < 16 then [Nat.digitChar n] else ['1', Nat.digitChar (n % 16)] := by
  have hall : ∀ n < 32, Text.hexDigits n =
      if n < 16 then [Nat.digitChar n] else ['1', Nat.digitChar (n % 16)] := by decide +kernel
  exact hall n h

/-- **How a character stands in a JSON text**: as it is, behind a backslash as a letter that is
read back as it, or, below the space, as its code point. -/
theorem escapedChar_cases (c : Char) :
    (escapedChar c = [c] ∧ c ≠ '"' ∧ c ≠ '\\' ∧ 0x20 ≤ c.toNat) ∨
      (∃ d, escapedChar c = ['\\', d] ∧ escapeLetter? d = some c ∧ 0x20 ≤ d.toNat) ∨
      (c.toNat < 0x20 ∧ escapedChar c =
        ['\\', 'u', '0', '0', Nat.digitChar (c.toNat / 16), Nat.digitChar (c.toNat % 16)]) := by
  unfold escapedChar
  split
  · exact .inr (.inl ⟨'"', rfl, rfl, by decide⟩)
  · exact .inr (.inl ⟨'\\', rfl, rfl, by decide⟩)
  · exact .inr (.inl ⟨'b', rfl, rfl, by decide⟩)
  · exact .inr (.inl ⟨'f', rfl, rfl, by decide⟩)
  · exact .inr (.inl ⟨'n', rfl, rfl, by decide⟩)
  · exact .inr (.inl ⟨'r', rfl, rfl, by decide⟩)
  · exact .inr (.inl ⟨'t', rfl, rfl, by decide⟩)
  · rename_i hquote hbackslash _ _ _ _ _
    by_cases hcontrol : c.toNat < 0x20
    · refine .inr (.inr ⟨hcontrol, ?_⟩)
      rw [hexDigits_of_lt hcontrol]
      by_cases hone : c.toNat < 16
      · rw [if_pos hone, if_pos hone, Nat.div_eq_of_lt hone, Nat.mod_eq_of_lt hone]
        rfl
      · have htens : c.toNat / 16 = 1 := by omega
        rw [if_neg hone, if_pos hcontrol, if_neg hone, htens]
        rfl
    · refine .inl ⟨?_, hquote, hbackslash, Nat.not_lt.1 hcontrol⟩
      rw [if_neg (by omega), if_neg hcontrol]

/-- An escape of one letter is read back. -/
theorem readEscape_letter {c d : Char} (h : escapeLetter? d = some c) (rest : List Char) :
    readEscape (d :: rest) = .ok (c, rest) := by
  have hne : d ≠ 'u' := by
    rintro rfl
    cases h
  unfold readEscape
  split
  · cases ‹d :: rest = []›
  · cases ‹d :: rest = _›
    exact absurd rfl hne
  · rename_i heq
    cases heq
    rw [h]

/-- An escape of four digits is read back. -/
theorem readEscape_control {c : Char} (h : c.toNat < 0x20) (rest : List Char) :
    readEscape ('u' :: '0' :: '0' :: Nat.digitChar (c.toNat / 16) ::
      Nat.digitChar (c.toNat % 16) :: rest) = .ok (c, rest) := by
  have hzero : hexValue? '0' = some 0 := rfl
  have hhex : readHex ('0' :: '0' :: Nat.digitChar (c.toNat / 16) ::
      Nat.digitChar (c.toNat % 16) :: rest) = .ok (c.toNat, rest) := by
    simp only [readHex, hzero, hexValue?_digitChar (n := c.toNat / 16) (by omega),
      hexValue?_digitChar (n := c.toNat % 16) (by omega)]
    have hunit : ((0 * 16 + 0) * 16 + c.toNat / 16) * 16 + c.toNat % 16 = c.toNat := by omega
    rw [hunit]
  simp only [readEscape, hhex, bind, Except.bind]
  rw [if_neg (by omega), if_neg (by omega), Char.ofNat_toNat]

/-- **A character that was written is read back.** -/
theorem readCharsWithin_escapedChar (fuel : Nat) (c : Char) (rest : List Char) :
    readCharsWithin (fuel + 1) (escapedChar c ++ rest) =
      (readCharsWithin fuel rest).map fun p => (c :: p.1, p.2) := by
  rcases escapedChar_cases c with ⟨h, hquote, hbackslash, hplain⟩ | ⟨d, h, hletter, -⟩ | ⟨hlow, h⟩
  · rw [h, List.singleton_append, readCharsWithin, if_neg (Nat.not_lt.2 hplain)]
    · rfl
    · exact hquote
    · exact hbackslash
  · rw [h, List.cons_append, List.singleton_append, readCharsWithin, readEscape_letter hletter]
    rfl
  · rw [h]
    simp only [List.cons_append, List.nil_append, readCharsWithin]
    rw [readEscape_control hlow]
    rfl

/-! ## Strings -/

theorem readCharsWithin_escaped {fuel : Nat} (cs rest : List Char) (h : cs.length < fuel) :
    readCharsWithin fuel (cs.flatMap escapedChar ++ '"' :: rest) = .ok (cs, rest) := by
  induction cs generalizing fuel with
  | nil =>
    cases fuel with
    | zero => cases h
    | succ fuel => rfl
  | cons c cs ih =>
    cases fuel with
    | zero => cases h
    | succ fuel =>
      rw [List.flatMap_cons, List.append_assoc, readCharsWithin_escapedChar,
        ih (Nat.lt_of_succ_lt_succ h)]
      rfl

theorem length_le_escaped (cs : List Char) : cs.length ≤ (cs.flatMap escapedChar).length := by
  induction cs with
  | nil => exact Nat.le_refl 0
  | cons c cs ih =>
    have hsome : 1 ≤ (escapedChar c).length := by
      rcases escapedChar_cases c with ⟨h, -⟩ | ⟨d, h, -⟩ | ⟨-, h⟩ <;> simp [h]
    rw [List.flatMap_cons, List.length_append, List.length_cons]
    omega

/-- **A string that was written is read back**, whatever follows it. -/
theorem readString_escaped (s : String) (rest : List Char) :
    readString (s.toList.flatMap escapedChar ++ '"' :: rest) = .ok (s, rest) := by
  have hfuel : s.toList.length < (s.toList.flatMap escapedChar ++ '"' :: rest).length + 1 := by
    have := length_le_escaped s.toList
    rw [List.length_append]
    omega
  rw [readString, readCharsWithin_escaped _ _ hfuel]
  show Except.ok (String.ofList s.toList, rest) = _
  rw [String.ofList_toList]

theorem stringText_append (s : String) (rest : List Char) :
    stringText s ++ rest = '"' :: (s.toList.flatMap escapedChar ++ '"' :: rest) := by
  rw [stringText, List.cons_append, List.append_assoc, List.singleton_append]

/-! ## Plain characters -/

/-- Whether a text has no character below the space. -/
def IsPlain (cs : List Char) : Prop := ∀ c ∈ cs, 0x20 ≤ c.toNat

theorem isPlain_append {cs cs' : List Char} : IsPlain (cs ++ cs') ↔ IsPlain cs ∧ IsPlain cs' :=
  List.forall_mem_append

theorem isPlain_cons {c : Char} {cs : List Char} :
    IsPlain (c :: cs) ↔ 0x20 ≤ c.toNat ∧ IsPlain cs := List.forall_mem_cons

theorem isPlain_escapedChar (c : Char) : IsPlain (escapedChar c) := by
  rcases escapedChar_cases c with ⟨h, -, -, hplain⟩ | ⟨d, h, -, hplain⟩ | ⟨hlow, h⟩
  · rw [h]
    exact isPlain_cons.2 ⟨hplain, nofun⟩
  · rw [h]
    exact isPlain_cons.2 ⟨by decide, isPlain_cons.2 ⟨hplain, nofun⟩⟩
  · have htens := le_toNat_digitChar (n := c.toNat / 16) (by omega)
    have hones := le_toNat_digitChar (n := c.toNat % 16) (by omega)
    rw [h]
    simp only [isPlain_cons, htens, hones, true_and]
    exact ⟨by decide, by decide, by decide, by decide, nofun⟩

/-- A string is written without characters below the space, whatever is in it. -/
theorem isPlain_stringText (s : String) : IsPlain (stringText s) := by
  have hchars : IsPlain (s.toList.flatMap escapedChar) := by
    intro c hc
    obtain ⟨d, -, hd⟩ := List.mem_flatMap.1 hc
    exact isPlain_escapedChar d c hd
  exact isPlain_cons.2 ⟨by decide, isPlain_append.2 ⟨hchars, isPlain_cons.2 ⟨by decide, nofun⟩⟩⟩

end PushFeed.Json
