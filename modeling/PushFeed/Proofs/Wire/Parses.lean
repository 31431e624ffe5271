import PushFeed.Proofs.Wire.Fields
/-!
# Lists of fields

`Parses` says that some bytes are a list of fields, and what merging them one by one
makes of the message read so far. It holds whatever follows the bytes, so that the
fields of a message, and of the messages inside it, can be put one behind another.
-/

namespace PushFeed.Wire

/-- The bytes are fields with numbers of a kind, which lead from one message to another
when they are merged into it in turn. -/
inductive Parses {α : Type} (field : Nat → WireType → α → Bytes → Except Fault (α × Bytes))
    (N : Nat → Prop) : α → Bytes → α → Prop
  /-- No field. -/
  | nil (a : α) : Parses field N a [] a
  /-- A field and more of them. -/
  | cons {number : Nat} {w : WireType} {a a' a'' : α} {value more : Bytes}
      (hnumber : IsFieldNumber number) (hN : N number)
      (hvalue : ∀ rest, field number w a (value ++ rest) = .ok (a', rest))
      (hmore : Parses field N a' more a'') :
      Parses field N a (key number w ++ value ++ more) a''

variable {α β : Type} {field : Nat → WireType → α → Bytes → Except Fault (α × Bytes)}
  {N N' : Nat → Prop} {a a' a'' : α} {bytes more rest : Bytes}

namespace Parses

/-- A single field. -/
theorem single {number : Nat} {w : WireType} {value : Bytes} (hnumber : IsFieldNumber number)
    (hN : N number) (hvalue : ∀ rest, field number w a (value ++ rest) = .ok (a', rest)) :
    Parses field N a (key number w ++ value) a' := by
  have h := cons hnumber hN hvalue (nil a')
  rwa [List.append_nil] at h

theorem append (h : Parses field N a bytes a') (h' : Parses field N a' more a'') :
    Parses field N a (bytes ++ more) a'' := by
  induction h with
  | nil => exact h'
  | cons hnumber hN hvalue _ ih =>
    rw [List.append_assoc]
    exact cons hnumber hN hvalue (ih h')

theorem mono (h : Parses field N a bytes a') (hsub : ∀ n, N n → N' n) :
    Parses field N' a bytes a' := by
  induction h with
  | nil a => exact nil a
  | cons hnumber hN hvalue _ ih => exact cons hnumber (hsub _ hN) hvalue ih

/-- A part of a message takes the fields that the other part passes on to it. -/
theorem lift {field' : Nat → WireType → β × α → Bytes → Except Fault ((β × α) × Bytes)} {x : β}
    (h : Parses field N a bytes a')
    (hlift : ∀ number w a a' bytes rest, N number → field number w a bytes = .ok (a', rest) →
      field' number w (x, a) bytes = .ok ((x, a'), rest)) :
    Parses field' N (x, a) bytes (x, a') := by
  induction h with
  | nil a => exact nil (x, a)
  | cons hnumber hN hvalue _ ih =>
    exact cons hnumber hN (fun rest => hlift _ _ _ _ _ _ hN (hvalue rest)) ih

/-- Reading goes through a list of fields, up to what follows it. -/
theorem exists_fuel (h : Parses field N a bytes a') {limit fuel : Nat} (rest : Bytes)
    (hlimit : limit ≤ rest.length) (hfuel : (bytes ++ rest).length ≤ fuel) :
    ∃ fuel', rest.length ≤ fuel' ∧
      readFieldsWithin field limit fuel a (bytes ++ rest) =
        readFieldsWithin field limit fuel' a' rest := by
  induction h generalizing fuel with
  | nil => exact ⟨fuel, hfuel, rfl⟩
  | @cons number w a a' a'' value more hnumber hN hvalue hmore ih =>
    have hkey := List.length_pos_iff.2 (key_ne_nil number w)
    simp only [List.length_append] at hfuel
    cases fuel with
    | zero => omega
    | succ fuel =>
      have hlong : ¬(key number w ++ value ++ more ++ rest).length ≤ limit := by
        simp only [List.length_append]
        omega
      -- a key is never empty, so what follows the field is shorter and needs less fuel
      obtain ⟨fuel', hfuel', heq⟩ := ih (show (more ++ rest).length ≤ fuel by
        simp only [List.length_append]
        omega)
      refine ⟨fuel', hfuel', ?_⟩
      rw [readFieldsWithin, if_neg hlong, List.append_assoc, List.append_assoc,
        readKey_append hnumber]
      show (field number w a (value ++ (more ++ rest))).bind _ = _
      rw [hvalue]
      exact heq

end Parses

/-- Reading stops where it is to. -/
theorem readFieldsWithin_of_le {limit : Nat} (h : bytes.length ≤ limit) (fuel : Nat) (a : α) :
    readFieldsWithin field limit fuel a bytes = .ok (a, bytes) := by
  cases fuel with
  | zero => rfl
  | succ fuel => rw [readFieldsWithin, if_pos h]

/-- A list of fields that ends where reading is to stop is read to its end. -/
theorem Parses.readFieldsWithin_eq (h : Parses field N a bytes a') {fuel : Nat} (rest : Bytes)
    (hfuel : (bytes ++ rest).length ≤ fuel) :
    readFieldsWithin field rest.length fuel a (bytes ++ rest) = .ok (a', rest) := by
  obtain ⟨fuel', -, heq⟩ := h.exists_fuel rest (Nat.le_refl _) hfuel
  rw [heq, readFieldsWithin_of_le (Nat.le_refl _)]

/-- After a list of fields, a field that cannot be read ends the reading. -/
theorem Parses.readFieldsWithin_error (h : Parses field N a bytes a') {number : Nat} {w : WireType}
    {value : Bytes} {f : Fault} (hnumber : IsFieldNumber number)
    (hvalue : field number w a' value = .error f) :
    readFieldsWithin field 0 (bytes ++ (key number w ++ value)).length a
      (bytes ++ (key number w ++ value)) = .error f := by
  obtain ⟨fuel, hfuel, heq⟩ := h.exists_fuel (key number w ++ value) (Nat.zero_le _) (Nat.le_refl _)
  have hkey := List.length_pos_iff.2 (key_ne_nil number w)
  rw [List.length_append] at hfuel
  rw [heq]
  cases fuel with
  | zero => omega
  | succ fuel =>
    have hlong : ¬(key number w ++ value).length ≤ 0 := by
      rw [List.length_append]
      omega
    rw [readFieldsWithin, if_neg hlong, readKey_append hnumber]
    show (field number w a' value).bind _ = _
    rw [hvalue]
    rfl

/-- After a list of fields, bytes that are no key end the reading. -/
theorem Parses.readFieldsWithin_badKey (h : Parses field N a bytes a') {cause : Cause}
    (hpos : 0 < more.length) (hkey : readKey more = .error cause) :
    readFieldsWithin field 0 (bytes ++ more).length a (bytes ++ more) =
      .error (.ofCause cause) := by
  obtain ⟨fuel, hfuel, heq⟩ := h.exists_fuel more (Nat.zero_le _) (Nat.le_refl _)
  rw [heq]
  cases fuel with
  | zero => omega
  | succ fuel =>
    rw [readFieldsWithin, if_neg (by omega), hkey]
    rfl

/-- A nested message is read to its end. -/
theorem Parses.readNested_eq
    {field : Nat → Nat → WireType → α → Bytes → Except Fault (α × Bytes)} {depth : Nat}
    (h : Parses (field depth) N a bytes a') (hsize : bytes.length < twoTo 64) (rest : Bytes) :
    readNested field (depth + 1) .delimited a (delimited bytes ++ rest) = .ok (a', rest) := by
  have hread := h.readFieldsWithin_eq rest (Nat.le_refl _)
  have hnot : ¬(bytes ++ rest).length < bytes.length := by
    simp only [List.length_append]
    omega
  -- the nested message ends where the rest begins
  have hlimit : (bytes ++ rest).length - bytes.length = rest.length := by
    simp only [List.length_append]
    omega
  simp only [readNested, delimited, List.append_assoc, readVarint_append hsize]
  show (if (bytes ++ rest).length < bytes.length then _ else _) = _
  rw [if_neg hnot, hlimit, hread]
  exact if_pos rfl

end PushFeed.Wire
