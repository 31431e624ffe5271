import PushFeed.Proofs.Wire.Structured
/-!
# The first violation of a message

What a refused message names is the first of its values that may not pass. A list is
searched from its front (`firstViolation?_eq_some_iff`), a message field by field, and
the way to the value grows from the inside out (`violation?_scalar_eq_some_iff`,
`violation?_message_eq_some_iff`, `violation?_repeated_eq_some_iff`).
-/

namespace PushFeed.Wire

/-! ## Searching a message -/

/-- The first item of a list that has a violation, those before it having none. -/
theorem firstViolation?_eq_some_iff {α : Type} {item : α → Option Violation} {key : String}
    {start : Nat} {as : List α} {v : Violation} :
    firstViolation? item key start as = some v ↔
      ∃ i a w, as[i]? = some a ∧ item a = some w ∧
        (∀ j < i, ∀ b, as[j]? = some b → item b = none) ∧
        v = w.after (.item key (start + i)) := by
  -- the search counts the items it has passed, so the start varies in the induction
  induction as generalizing start with
  | nil => simp [firstViolation?]
  | cons a as ih =>
    rw [firstViolation?]
    cases ha : item a with
    | some w =>
      constructor
      · rintro ⟨⟩
        exact ⟨0, a, w, rfl, ha, fun j hj => absurd hj (Nat.not_lt_zero j), rfl⟩
      · rintro ⟨i, b, w', hb, hw', hbefore, rfl⟩
        cases i with
        | zero =>
          cases hb
          rw [ha] at hw'
          cases hw'
          rfl
        | succ i =>
          have hnone := hbefore 0 (Nat.succ_pos i) a rfl
          rw [ha] at hnone
          cases hnone
    | none =>
      show firstViolation? item key (start + 1) as = some v ↔ _
      rw [ih]
      constructor
      · rintro ⟨i, b, w, hb, hw, hbefore, rfl⟩
        refine ⟨i + 1, b, w, hb, hw, fun j hj c hc => ?_, by rw [Nat.add_right_comm]; rfl⟩
        cases j with
        | zero =>
          cases hc
          exact ha
        | succ j => exact hbefore j (Nat.lt_of_succ_lt_succ hj) c hc
      · rintro ⟨i, b, w, hb, hw, hbefore, rfl⟩
        cases i with
        | zero =>
          cases hb
          rw [ha] at hw
          cases hw
        | succ i =>
          refine ⟨i, b, w, hb, hw, fun j hj c hc => ?_, by rw [Nat.add_right_comm]; rfl⟩
          exact hbefore (j + 1) (Nat.succ_lt_succ hj) c hc

namespace Layout

variable {slot : Slot} {kind : Scalar} {name : String} {inner rest : Layout} {v : Violation}

theorem violation?_scalar_eq_some_iff {x : kind.Content} {more : rest.Content} :
    (scalar slot kind rest).violation? (x, more) = some v ↔
      (∃ bad, kind.bad? x = some bad ∧ v = ⟨[.field slot.key], bad⟩) ∨
        kind.bad? x = none ∧ rest.violation? more = some v := by
  rw [violation?]
  cases kind.bad? x <;> simp [eq_comm]

theorem violation?_message_eq_some_iff {m : Option inner.Content} {more : rest.Content} :
    (message slot name inner rest).violation? (m, more) = some v ↔
      (∃ i w, m = some i ∧ inner.violation? i = some w ∧ v = w.after (.field slot.key)) ∨
        (∀ i ∈ m, inner.violation? i = none) ∧ rest.violation? more = some v := by
  rw [violation?]
  cases m with
  | none => simp
  | some i =>
    rw [Option.bind_some]
    cases hi : inner.violation? i <;> simp [hi, eq_comm]

theorem violation?_repeated_eq_some_iff {ms : List inner.Content} {more : rest.Content} :
    (repeated slot name inner rest).violation? (ms, more) = some v ↔
      firstViolation? inner.violation? slot.key 0 ms = some v ∨
        (∀ i ∈ ms, inner.violation? i = none) ∧ rest.violation? more = some v := by
  rw [violation?, ← firstViolation?_eq_none_iff inner.violation? slot.key 0 ms]
  cases firstViolation? inner.violation? slot.key 0 ms <;> simp

theorem verify_eq_error_iff {l : Layout} {c : l.Content} :
    l.verify c = .error v ↔ l.violation? c = some v := by
  rw [verify]
  cases l.violation? c <;> simp

end Layout

/-! ## The text of a violation -/

@[simp] theorem PathStep.text_field (key : String) : (PathStep.field key).text = key := rfl

@[simp] theorem PathStep.text_item (key : String) (i : Nat) :
    (PathStep.item key i).text = key ++ "[" ++ toString i ++ "]" := rfl

@[simp] theorem BadValue.text_amount (x : Binary64) :
    (BadValue.amount x).text = "invalid value " ++ x.text := rfl

@[simp] theorem BadValue.text_choice (n : Int32) :
    (BadValue.choice n).text = "enum value expected, got " ++ toString n.toInt := rfl

theorem Violation.text_mk (path : List PathStep) (bad : BadValue) :
    (Violation.mk path bad).text =
      String.intercalate "." (path.map PathStep.text) ++ ": " ++ bad.text := rfl

/-- A number without a name is reported with the way to it through the fields. -/
theorem Violation.text_choice (keys : List String) (n : Int32) :
    (Violation.mk (keys.map PathStep.field) (.choice n)).text =
      String.intercalate "." keys ++ ": enum value expected, got " ++ toString n.toInt := by
  have hkeys : (keys.map PathStep.field).map PathStep.text = keys := by
    rw [List.map_map]
    exact List.map_id keys
  have hvalue : ": enum value expected, got " = ": " ++ "enum value expected, got " := rfl
  rw [Violation.text_mk, hkeys, BadValue.text_choice, hvalue]
  simp only [String.append_assoc]

end PushFeed.Wire
