import PushFeed.Proofs.Connection.Evolution
/-!
# Queues of the hub's connections

What is added to the queue of a connection between two moments is `Hub.queuedOn`; it
says what it should wherever nothing was taken out in between (`Hub.Adds`). A change is
`Quiet` where it touches mailboxes only: it moves no state and queues nothing. A request
for a connection opens none and queues no text.
-/

namespace PushFeed

/-- The text of a queue entry. -/
def Outbound.text? : Outbound → Option String
  | .text s => some s
  | .close => none

namespace Connection

/-- What asking to close adds to the queue. -/
theorem outbound_close (c : Connection) :
    c.close.outbound = c.outbound ∨ c.close.outbound = c.outbound ++ [.close] := by
  unfold close
  split
  · exact .inl rfl
  · split
    · exact .inr rfl
    · exact .inl rfl

end Connection

namespace Hub

variable {h h' h'' : Hub} {g g' : Nat} {text : String} {added more : List Outbound}

/-- The queue of a connection; one that was never made has queued nothing. -/
def outboundOf (h : Hub) (g : Nat) : List Outbound := ((h.find? g).map (·.outbound)).getD []

/-- What has been added to the queue of a connection since an earlier moment. -/
def queuedOn (h h' : Hub) (g : Nat) : List Outbound :=
  (h'.outboundOf g).drop (h.outboundOf g).length

/-- Between two moments these entries have joined a queue, and none have left it. -/
def Adds (h h' : Hub) (g : Nat) (added : List Outbound) : Prop :=
  h'.outboundOf g = h.outboundOf g ++ added

theorem outboundOf_of_find? {c : Connection} (hc : h.find? g = some c) :
    h.outboundOf g = c.outbound := by
  simp [outboundOf, hc]

theorem outboundOf_of_none (hc : h.find? g = none) : h.outboundOf g = [] := by
  simp [outboundOf, hc]

theorem Adds.refl (h : Hub) (g : Nat) : Adds h h g [] := (List.append_nil _).symm

theorem Adds.trans (h₁ : Adds h h' g added) (h₂ : Adds h' h'' g more) :
    Adds h h'' g (added ++ more) := by
  rw [Adds, h₂, h₁, List.append_assoc]

theorem Adds.queuedOn_eq (ha : Adds h h' g added) : h.queuedOn h' g = added := by
  rw [queuedOn, ha, List.drop_left]

/-! ## Quiet changes -/

/-- Only mailboxes have changed. -/
structure Quiet (h h' : Hub) : Prop where
  /-- No connection is made. -/
  generation_eq : h'.generation = h.generation
  /-- A connection stays as it is, its mailboxes apart. -/
  find? : ∀ {g c}, h.find? g = some c → ∃ mailboxes, h'.find? g = some { c with mailboxes }

namespace Quiet

theorem refl (h : Hub) : Quiet h h := ⟨rfl, fun {_ c} hc => ⟨c.mailboxes, hc⟩⟩

theorem trans (h₁ : Quiet h h') (h₂ : Quiet h' h'') : Quiet h h'' where
  generation_eq := h₂.generation_eq.trans h₁.generation_eq
  find? hc := by
    obtain ⟨_, hd⟩ := h₁.find? hc
    obtain ⟨mailboxes, he⟩ := h₂.find? hd
    exact ⟨mailboxes, he⟩

theorem find?_none (hq : Quiet h h') (hc : h.find? g = none) : h'.find? g = none := by
  cases hd : h'.find? g with
  | none => rfl
  | some d =>
    have hg := le_generation_of_find? hd
    obtain ⟨c, hc'⟩ := exists_find? hg.1 (hq.generation_eq ▸ hg.2)
    rw [hc] at hc'
    cases hc'

theorem stateOf_eq (hq : Quiet h h') (g : Nat) : h'.stateOf g = h.stateOf g := by
  cases hc : h.find? g with
  | none => simp [stateOf, hc, hq.find?_none hc]
  | some c =>
    obtain ⟨_, hd⟩ := hq.find? hc
    rw [stateOf_of_find? hc, stateOf_of_find? hd]

theorem adds (hq : Quiet h h') (g : Nat) : Adds h h' g [] := by
  rw [Adds, List.append_nil]
  cases hc : h.find? g with
  | none => rw [outboundOf_of_none hc, outboundOf_of_none (hq.find?_none hc)]
  | some c =>
    obtain ⟨_, hd⟩ := hq.find? hc
    rw [outboundOf_of_find? hc, outboundOf_of_find? hd]

/-- A change of one connection's mailboxes is quiet. -/
theorem modify (h : Hub) (g : Nat) {change : Connection → Connection}
    (hm : ∀ c, ∃ mailboxes, change c = { c with mailboxes }) : Quiet h (h.modify g change) where
  generation_eq := h.generation_modify g change
  find? {g' c} hc := by
    rw [find?_modify, hc]
    obtain ⟨mailboxes, heq⟩ := hm c
    split
    · exact ⟨mailboxes, congrArg some heq⟩
    · exact ⟨c.mailboxes, rfl⟩

end Quiet

/-! ## Asking for a connection -/

/-- Where there is a connection already, asking changes nothing; a first one has queued
nothing. -/
theorem adds_get_false (h : Hub) (g : Nat) : Adds h (h.get false).1 g [] := by
  rcases Nat.eq_zero_or_pos h.generation with hz | hpos
  · rw [get_false_of_empty hz, Adds, List.append_nil, outboundOf, find?_connect]
    split
    · rw [outboundOf_of_none (find?_eq_none_of_lt (by omega))]
      rfl
    · rfl
  · rw [get_false_of_pos hpos]
    exact .refl h g

/-- A new connection has queued nothing, and the one before it has not taken a text. -/
theorem Sound.adds_get (hs : h.Sound) (force : Bool) (g : Nat) :
    ∃ added, Adds h (h.get force).1 g added ∧ ∀ text, .text text ∉ added := by
  cases force with
  | false => exact ⟨[], h.adds_get_false g, fun _ => List.not_mem_nil⟩
  | true =>
    unfold Adds
    rw [outboundOf, hs.find?_get_true]
    split
    · rw [outboundOf_of_none (find?_eq_none_of_lt (by omega))]
      exact ⟨[], rfl, fun _ => List.not_mem_nil⟩
    · split
      · cases hc : h.find? g with
        | none => exact ⟨[], by rw [outboundOf_of_none hc]; rfl, fun _ => List.not_mem_nil⟩
        | some c =>
          rw [outboundOf_of_find? hc]
          rcases c.outbound_close with heq | heq
          · exact ⟨[], by simp [heq], fun _ => List.not_mem_nil⟩
          · exact ⟨[.close], by simp [heq], fun _ => by simp⟩
      · exact ⟨[], (List.append_nil _).symm, fun _ => List.not_mem_nil⟩

/-- Asking opens no connection, and closes an open one only by force. -/
theorem Sound.stateOf_get_eq_open_iff (hs : h.Sound) (force : Bool)
    (hf : force = true → h.stateOf h.generation ≠ .open) (g : Nat) :
    (h.get force).1.stateOf g = .open ↔ h.stateOf g = .open := by
  cases force with
  | false =>
    rcases Nat.eq_zero_or_pos h.generation with hz | hpos
    · rw [get_false_of_empty hz, stateOf, find?_connect]
      split
      · simp [stateOf_of_lt (h := h) (g := g) (by omega)]
      · rfl
    · rw [get_false_of_pos hpos]
  | true =>
    rw [stateOf, hs.find?_get_true]
    split
    · simp [stateOf_of_lt (h := h) (g := g) (by omega)]
    · split
      · -- the newest is asked to close, and by assumption it was not open
        rename_i heq
        subst heq
        cases hc : h.find? h.generation with
        | none => simp [stateOf, hc]
        | some c =>
          have hclosing := c.isTerminal_close
          have hopen : h.stateOf h.generation ≠ .open := hf rfl
          simp only [Option.map_some, Option.getD_some, hopen, iff_false]
          intro h
          rw [h] at hclosing
          cases hclosing
      · rfl

/-! ## Texts -/

/-- The hub with a text queued on a connection. -/
def queue (h : Hub) (g : Nat) (text : String) : Hub :=
  h.modify g fun c => { c with outbound := c.outbound ++ [.text text] }

theorem stateOf_queue : (h.queue g text).stateOf g' = h.stateOf g' := by
  rw [stateOf, stateOf, queue, find?_modify]
  split
  · cases h.find? g' <;> rfl
  · rfl

theorem adds_queue {c : Connection} (hc : h.find? g = some c) (text : String) (g' : Nat) :
    Adds h (h.queue g text) g' (if g = g' then [.text text] else []) := by
  rw [Adds, outboundOf, queue, find?_modify]
  split
  · rename_i heq
    subst heq
    simp [outboundOf, hc]
  · simp [outboundOf]

/-! ## Taking texts -/

/-- Whether a connection is open and its transport takes texts. -/
def takesTexts (h : Hub) (g : Nat) : Bool :=
  (h.find? g).any fun c => c.state.isOpen && c.outboundHeld

theorem stateOf_of_takesTexts (ht : h.takesTexts g = true) : h.stateOf g = .open := by
  unfold takesTexts at ht
  cases hc : h.find? g with
  | none =>
    rw [hc] at ht
    cases ht
  | some c =>
    rw [hc, Option.any_some, Bool.and_eq_true] at ht
    rw [stateOf_of_find? hc]
    exact (ReadyState.isOpen_iff _).1 ht.1

theorem takesTexts_of_find? {b : Connection} (hb : h.find? g = some b) :
    h.takesTexts g = (b.state.isOpen && b.outboundHeld) := by
  rw [takesTexts, hb, Option.any_some]

/-- A connection takes texts or not whatever its mailboxes hold. -/
theorem Quiet.takesTexts_eq (hq : Quiet h h') (g : Nat) : h'.takesTexts g = h.takesTexts g := by
  cases hc : h.find? g with
  | none => rw [takesTexts, takesTexts, hc, hq.find?_none hc]
  | some c =>
    obtain ⟨mailboxes, hc'⟩ := hq.find? hc
    rw [takesTexts_of_find? hc, takesTexts_of_find? hc']

theorem takesTexts_queue (h : Hub) (g g' : Nat) (text : String) :
    (h.queue g text).takesTexts g' = h.takesTexts g' := by
  rw [takesTexts, takesTexts, queue, find?_modify]
  split <;> cases h.find? g' <;> rfl

/-! ## Silence -/

/-- No text is queued between two moments, and nothing taken. -/
def Mute (h h' : Hub) : Prop := ∀ g, ∃ added, Adds h h' g added ∧ ∀ text, .text text ∉ added

theorem Quiet.mute (hq : Quiet h h') : Mute h h' :=
  fun g => ⟨[], hq.adds g, fun _ => List.not_mem_nil⟩

theorem Mute.trans (h₁ : Mute h h') (h₂ : Mute h' h'') : Mute h h'' := by
  intro g
  obtain ⟨added, ha, hn⟩ := h₁ g
  obtain ⟨more, hm, hn'⟩ := h₂ g
  exact ⟨added ++ more, ha.trans hm, fun text => by simp [hn text, hn' text]⟩

end Hub

end PushFeed
