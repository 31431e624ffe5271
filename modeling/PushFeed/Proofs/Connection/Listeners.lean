import PushFeed.Proofs.Connection.Evolution
/-!
# Listeners of the hub's connections

The mailboxes of a connection are those of all listeners there ever were, so their list
says who was attached and what each has not taken yet. Asking for a connection attaches
nobody. What waits in a mailbox has come in over its connection: nothing else puts a
frame there (`Connection.mem_waiting_apply`).
-/

namespace PushFeed

namespace Connection

variable {c : Connection}

theorem mailboxes_close (c : Connection) :
    c.close.mailboxes = c.mailboxes := by
  unfold close
  split
  · rfl
  · split <;> rfl

/-- The frames that a listener has not taken yet. -/
def waiting (c : Connection) : List Wire.Bytes := c.mailboxes.flatMap (·.queue)

theorem mem_waiting {frame : Wire.Bytes} :
    frame ∈ c.waiting ↔ ∃ m ∈ c.mailboxes, frame ∈ m.queue := List.mem_flatMap

/-- What a listener takes has waited. -/
theorem mem_waiting_of_receive {n : Nat} {frame : Wire.Bytes}
    (h : (c.receive n).1 = .ready (some frame)) : frame ∈ c.waiting := by
  cases n with
  | zero => cases h
  | succ n =>
    simp only [receive, mailbox?] at h
    split at h
    · cases h
    · rename_i m hm
      refine mem_waiting.2 ⟨m, List.mem_of_getElem? hm, ?_⟩
      unfold Mailbox.take at h
      split at h
      · rename_i first rest hq
        cases h
        rw [hq]
        exact List.mem_cons_self
      · split at h <;> cases h

/-- A mailbox that is changed in one place gets no frame from elsewhere. -/
theorem mem_waiting_modifyMailbox {n : Nat} {change : Mailbox → Mailbox} {frame : Wire.Bytes}
    (h : frame ∈ (c.modifyMailbox n change).waiting)
    (hchange : ∀ m, c.mailbox? n = some m → ∀ frame ∈ (change m).queue, frame ∈ m.queue) :
    frame ∈ c.waiting := by
  cases n with
  | zero => exact h
  | succ n =>
    obtain ⟨m, hm, hframe⟩ := mem_waiting.1 h
    obtain ⟨i, hi, rfl⟩ := List.getElem_of_mem hm
    have hlt : i < c.mailboxes.length := by simpa [modifyMailbox] using hi
    have hget : c.mailboxes[i]? = some c.mailboxes[i] := List.getElem?_eq_getElem hlt
    refine mem_waiting.2 ⟨c.mailboxes[i], List.getElem_mem hlt, ?_⟩
    simp only [modifyMailbox, List.getElem_modify] at hframe
    split at hframe
    · rename_i heq
      subst heq
      exact hchange _ hget _ hframe
    · exact hframe

/-- **A frame waits that waited before, or it has just come in.** -/
theorem mem_waiting_apply {a : ConnectionAction} {frame : Wire.Bytes}
    (h : frame ∈ (c.apply a).1.waiting) : frame ∈ c.waiting ∨ a = .dispatch frame := by
  cases a with
  | dispatch new =>
    obtain ⟨m, hm, hframe⟩ := mem_waiting.1 h
    obtain ⟨m', hm', rfl⟩ := List.mem_map.1 hm
    -- whoever is still on the list gets the new frame behind those that wait
    have hdeliver : frame ∈ m'.queue ∨ frame = new := by
      unfold Mailbox.deliver at hframe
      split at hframe
      · split at hframe
        · simpa using hframe
        · exact .inl hframe
      · exact .inl hframe
    rcases hdeliver with hold | rfl
    · exact .inl (mem_waiting.2 ⟨m', hm', hold⟩)
    · exact .inr rfl
  | addListener =>
    refine .inl ?_
    simpa [apply, addListener, waiting] using h
  | removeListener n =>
    refine .inl ?_
    simp only [apply, removeListener] at h
    split at h
    · exact mem_waiting_modifyMailbox h fun m _ frame hf => hf
    · exact h
  | dropListener n => exact .inl (mem_waiting_modifyMailbox h fun m _ frame hf => hf)
  | receive n =>
    refine .inl ?_
    simp only [apply, receive] at h
    split at h
    · exact h
    · rename_i m hm
      refine mem_waiting_modifyMailbox h fun m' hm' frame hf => ?_
      cases hm.symm.trans hm'
      cases hq : m.queue with
      | nil => simp [Mailbox.take, hq] at hf
      | cons first rest =>
        have hrest : frame ∈ rest := by simpa [Mailbox.take, hq] using hf
        exact List.mem_cons_of_mem _ hrest
  | close =>
    simp only [apply, waiting, mailboxes_close] at h
    exact .inl h
  | markOpen =>
    simp only [apply, markOpen] at h
    split at h <;> exact .inl h
  | dropDriver =>
    simp only [apply, dropDriver] at h
    split at h <;> exact .inl h
  | takeOutbound =>
    simp only [apply, takeOutbound] at h
    split at h <;> exact .inl h
  | send text =>
    simp only [apply] at h
    cases hd : c.sendText text with
    | error e =>
      rw [hd] at h
      exact .inl h
    | ok d =>
      obtain ⟨-, rfl⟩ := sendText_eq_ok hd
      rw [hd] at h
      exact .inl h
  | markClosed | dropOutbound | text => exact .inl h

end Connection

namespace Hub

variable {h : Hub} {g : Nat}

/-- The mailboxes of a connection; one that was never made has none. -/
def mailboxesOf (h : Hub) (g : Nat) : List Mailbox := ((h.find? g).map (·.mailboxes)).getD []

theorem mailboxesOf_of_find? {c : Connection} (hc : h.find? g = some c) :
    h.mailboxesOf g = c.mailboxes := by
  simp [mailboxesOf, hc]

theorem mailboxesOf_of_lt (hg : h.generation < g) : h.mailboxesOf g = [] := by
  simp [mailboxesOf, find?_eq_none_of_lt hg]

/-- Asking for a connection leaves all mailboxes alone. -/
theorem Sound.mailboxesOf_get (hs : h.Sound) (force : Bool) (g : Nat) :
    (h.get force).1.mailboxesOf g = h.mailboxesOf g := by
  cases force with
  | false =>
    rcases Nat.eq_zero_or_pos h.generation with hz | hpos
    · rw [get_false_of_empty hz, mailboxesOf, find?_connect]
      split
      · rw [mailboxesOf_of_lt (by omega)]
        rfl
      · rfl
    · rw [get_false_of_pos hpos]
  | true =>
    rw [mailboxesOf, hs.find?_get_true]
    split
    · rw [mailboxesOf_of_lt (by omega)]
      rfl
    · split
      · cases hc : h.find? g with
        | none => simp [mailboxesOf, hc]
        | some c => simp [mailboxesOf, hc, c.mailboxes_close]
      · rfl

/-- The frames that wait on a connection. -/
def waitingOn (h : Hub) (g : Nat) : List Wire.Bytes := (h.mailboxesOf g).flatMap (·.queue)

theorem waitingOn_of_find? {c : Connection} (hc : h.find? g = some c) :
    h.waitingOn g = c.waiting := by
  rw [waitingOn, mailboxesOf_of_find? hc, Connection.waiting]

/-- An action brings no frame to a connection but one that has just come in. -/
theorem mem_waitingOn_act {a : ConnectionAction} {g' : Nat} {frame : Wire.Bytes}
    (hframe : frame ∈ (h.modify g fun c => (c.apply a).1).waitingOn g') :
    frame ∈ h.waitingOn g' ∨ a = .dispatch frame := by
  cases hc : h.find? g' with
  | none =>
    have hnone : (h.modify g fun c => (c.apply a).1).find? g' = none := by
      rw [find?_modify, hc]
      split <;> rfl
    rw [waitingOn, mailboxesOf, hnone] at hframe
    cases hframe
  | some c =>
    rw [waitingOn_of_find? hc]
    by_cases hg : g = g'
    · rw [waitingOn_of_find? (c := (c.apply a).1) (by rw [find?_modify, if_pos hg, hc]; rfl)]
        at hframe
      exact Connection.mem_waiting_apply hframe
    · rw [waitingOn_of_find? (c := c) (by rw [find?_modify, if_neg hg, hc])] at hframe
      exact .inl hframe

theorem Sound.waitingOn_get (hs : h.Sound) (force : Bool) (g : Nat) :
    (h.get force).1.waitingOn g = h.waitingOn g := by
  rw [waitingOn, waitingOn, hs.mailboxesOf_get]

end Hub

end PushFeed
