import PushFeed.Proofs.Wire.Extent
/-!
# Where a fault is found

A fault names the declared fields around it, from the innermost out. Whatever the frame is,
those are fields of the layout and of the messages nested in it
(`Layout.mem_labels_of_decode`), so what is reported of a frame is made of a cause and of
names that are known beforehand.
-/

namespace PushFeed.Wire

/-- Whether a cause is a declared field that is laid out as another one. -/
def Cause.isMismatch : Cause → Bool
  | .wireTypeMismatch _ _ => true
  | _ => false

/-- What fails in two steps, fails in one of them. -/
theorem bind_eq_error {ε α β : Type} {x : Except ε α} {f : α → Except ε β} {e : ε}
    (h : x >>= f = .error e) : x = .error e ∨ ∃ a, x = .ok a ∧ f a = .error e := by
  cases x with
  | error e' => exact .inl (congrArg Except.error (Except.error.inj h))
  | ok a => exact .inr ⟨a, rfl, h⟩

/-- What fails before a step that cannot. -/
theorem eq_error_of_bind {ε α β : Type} {x : Except ε α} {f : α → Except ε β} {e : ε}
    (h : x >>= f = .error e) (hf : ∀ a, ∃ b, f a = .ok b) : x = .error e := by
  rcases bind_eq_error h with hx | ⟨a, -, ha⟩
  · exact hx
  · obtain ⟨b, hb⟩ := hf a
    rw [hb] at ha
    cases ha

theorem eq_ofCause_of_bare {α : Type} {x : Except Cause α} {f : Fault} (h : bare x = .error f) :
    ∃ cause, f = .ofCause cause := by
  cases x with
  | error cause => exact ⟨cause, (Except.error.inj h).symm⟩
  | ok a => cases h

theorem eq_within_of_inField {α : Type} {owner : String} {slot : Slot} {x : Except Fault α}
    {f : Fault} (h : inField owner slot x = .error f) :
    ∃ f', x = .error f' ∧ f = f'.within owner slot.name := by
  cases x with
  | error f' => exact ⟨f', rfl, (Except.error.inj h).symm⟩
  | ok a => cases h

/-! ## Faults of readers -/

section Readers

variable {α : Type} {field : Nat → WireType → α → Bytes → Except Fault (α × Bytes)}
  {holds : Fault → Prop} {a : α} {bytes : Bytes} {limit fuel : Nat} {f : Fault}

/-- A fault of fields is one of a key or of a field. -/
theorem holds_of_readFieldsWithin (hcause : ∀ cause, holds (.ofCause cause))
    (hfield : ∀ number w a bytes f, field number w a bytes = .error f → holds f)
    (h : readFieldsWithin field limit fuel a bytes = .error f) : holds f := by
  induction fuel generalizing a bytes with
  | zero => cases h
  | succ fuel ih =>
    rw [readFieldsWithin] at h
    split at h
    · cases h
    · rcases bind_eq_error h with hkey | ⟨⟨number, w, left⟩, -, hstep⟩
      · obtain ⟨cause, rfl⟩ := eq_ofCause_of_bare hkey
        exact hcause cause
      · rcases bind_eq_error hstep with hvalue | ⟨⟨a', left'⟩, -, hmore⟩
        · exact hfield _ _ _ _ _ hvalue
        · exact ih hmore

/-- A fault of a nested message is one of its length or of its fields. -/
theorem holds_of_readNested {nested : Nat → Nat → WireType → α → Bytes → Except Fault (α × Bytes)}
    {depth : Nat} {w : WireType} (hcause : ∀ cause, holds (.ofCause cause))
    (hfield : ∀ depth number w a bytes f, nested depth number w a bytes = .error f → holds f)
    (h : readNested nested depth w a bytes = .error f) : holds f := by
  rcases bind_eq_error h with hwire | ⟨-, -, hlength⟩
  · obtain ⟨cause, rfl⟩ := eq_ofCause_of_bare hwire
    exact hcause cause
  · cases depth with
    | zero =>
      cases hlength
      exact hcause _
    | succ depth =>
      rcases bind_eq_error hlength with hcount | ⟨⟨count, left⟩, -, hbody⟩
      · obtain ⟨cause, rfl⟩ := eq_ofCause_of_bare hcount
        exact hcause cause
      · simp only at hbody
        split at hbody
        · cases hbody
          exact hcause _
        · rcases bind_eq_error hbody with hfields | ⟨⟨a', left'⟩, -, hend⟩
          · exact holds_of_readFieldsWithin hcause (hfield depth) hfields
          · simp only at hend
            split at hend
            · cases hend
            · cases hend
              exact hcause _

end Readers

/-! ## Faults of messages -/

namespace Layout

/-- The declared fields of a message and of those nested in it, each with what faults call the
message that it is a field of. -/
def labels (owner : String) : Layout → List (String × String)
  | .done => []
  | .scalar slot _ rest => (owner, slot.name) :: rest.labels owner
  | .message slot name inner rest =>
    (owner, slot.name) :: (inner.labels name ++ rest.labels owner)
  | .repeated slot name inner rest =>
    (owner, slot.name) :: (inner.labels name ++ rest.labels owner)

variable {l : Layout} {owner : String} {depth number : Nat} {w : WireType} {c : l.Content}
  {bytes : Bytes} {f : Fault}

/-- A fault inside of a field, with that field behind it. -/
theorem mem_labels_of_within {labels more : List (String × String)} {field : String}
    {f : Fault} (h : ∀ p ∈ f.path, p ∈ labels) :
    ∀ p ∈ (f.within owner field).path, p ∈ (owner, field) :: (labels ++ more) := by
  intro p hp
  rcases List.mem_append.1 hp with hp | hp
  · exact List.mem_cons_of_mem _ (List.mem_append_left _ (h p hp))
  · rw [List.mem_singleton.1 hp]
    exact List.mem_cons_self

/-- A fault in the value of a field names declared fields. -/
theorem mem_labels_of_mergeField (h : l.mergeField owner depth number w c bytes = .error f) :
    ∀ p ∈ f.path, p ∈ l.labels owner := by
  have hbare (labels : List (String × String)) (cause : Cause) :
      ∀ p ∈ (Fault.ofCause cause).path, p ∈ labels := fun _ hp => nomatch hp
  induction l generalizing owner depth number w bytes f with
  | done =>
    obtain ⟨cause, rfl⟩ := eq_ofCause_of_bare (eq_error_of_bind h fun _ => ⟨_, rfl⟩)
    exact hbare _ cause
  | scalar slot kind rest ih =>
    obtain ⟨x, more⟩ := c
    rw [mergeField] at h
    split at h
    · obtain ⟨f', hread, rfl⟩ := eq_within_of_inField (eq_error_of_bind h fun _ => ⟨_, rfl⟩)
      obtain ⟨cause, rfl⟩ := eq_ofCause_of_bare hread
      exact mem_labels_of_within (hbare [] cause)
    · exact fun p hp => List.mem_cons_of_mem _
        (ih (eq_error_of_bind h fun _ => ⟨_, rfl⟩) p hp)
  | message slot name inner rest ihi ih | repeated slot name inner rest ihi ih =>
    obtain ⟨held, more⟩ := c
    rw [mergeField] at h
    split at h
    · obtain ⟨f', hread, rfl⟩ := eq_within_of_inField (eq_error_of_bind h fun _ => ⟨_, rfl⟩)
      exact mem_labels_of_within
        (holds_of_readNested (hbare _) (fun _ _ _ _ _ _ hinner => ihi hinner) hread)
    · exact fun p hp => List.mem_cons_of_mem _ (List.mem_append_right _
        (ih (eq_error_of_bind h fun _ => ⟨_, rfl⟩) p hp))

/-- **A fault names declared fields.** -/
theorem mem_labels_of_decode (h : l.decode owner bytes = .error f) :
    ∀ p ∈ f.path, p ∈ l.labels owner :=
  holds_of_readFieldsWithin (fun _ _ hp => nomatch hp)
    (fun _ _ _ _ _ hfield => mem_labels_of_mergeField hfield)
    (eq_error_of_bind h fun _ => ⟨_, rfl⟩)

end Layout

end PushFeed.Wire
