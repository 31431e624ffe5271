import Mathlib.Data.List.InsertIdx
import PushFeed.Proofs.Connection.Lists
import PushFeed.Proofs.Connection.Queue
/-!
# A connection without one of its listeners

A connection that never had one of its listeners is the same connection, but for the
listener's mailbox and for what is queued: the listeners behind it have numbers lower by one
(`Connection.numberWithout`). What happens to the connection happens to the other in the same
way, as long as it is about the same listeners (`Connection.apply_without`); what is about the
one listener does not show there (`Connection.without_apply_of_none`).

`Hub.Without` is how two hubs look in which one connection is such a pair.
-/

namespace PushFeed

/-- The place of an entry in a list once the entry at another place is out of it. -/
def placeWithout (j i : Nat) : Nat := if j < i then i - 1 else i

namespace Connection

variable {c d : Connection} {b n m : Nat} {a a' : ConnectionAction} {outbound : List Outbound}

/-- The number of a listener where another one has never been. Numbers count from one, and
nobody is missing where it is number zero that has never been. -/
def numberWithout : Nat → Nat → Nat
  | 0, n => n
  | _ + 1, 0 => 0
  | b + 1, n + 1 => placeWithout b n + 1

/-- The connection as if a listener had never been there. -/
def without (c : Connection) : Nat → Connection
  | 0 => c
  | b + 1 => { c with mailboxes := c.mailboxes.eraseIdx b }

theorem without_eq (c : Connection) (b : Nat) :
    ∃ mailboxes, c.without b = { c with mailboxes } := by
  cases b with
  | zero => exact ⟨c.mailboxes, rfl⟩
  | succ b => exact ⟨_, rfl⟩

/-- Nothing is missing while the listener has not come. -/
theorem without_of_new (hb : b = 0 ∨ c.mailboxes.length < b) : c.without b = c := by
  cases b with
  | zero => rfl
  | succ b =>
    have hle : c.mailboxes.length ≤ b := by omega
    rw [without, List.eraseIdx_of_length_le hle]

theorem numberWithout_of_new (hb : b = 0 ∨ n < b) : numberWithout b n = n := by
  cases b with
  | zero => rfl
  | succ b =>
    cases n with
    | zero => rfl
    | succ n => rw [numberWithout, placeWithout, if_neg (by omega)]

/-- All others have their mailboxes. -/
theorem mailbox?_without (c : Connection) (hn : n ≠ b) :
    (c.without b).mailbox? (numberWithout b n) = c.mailbox? n := by
  cases b with
  | zero => rfl
  | succ b =>
    cases n with
    | zero => rfl
    | succ n =>
      simp only [numberWithout, without, mailbox?, placeWithout]
      split
      · rw [List.getElem?_eraseIdx_of_ge (by omega), Nat.sub_add_cancel (by omega)]
      · rw [List.getElem?_eraseIdx_of_lt (by omega)]

theorem modifyMailbox_without (c : Connection) (hn : n ≠ b) (change : Mailbox → Mailbox) :
    (c.without b).modifyMailbox (numberWithout b n) change =
      (c.modifyMailbox n change).without b := by
  cases b with
  | zero => rfl
  | succ b =>
    cases n with
    | zero => rfl
    | succ n =>
      simp only [numberWithout, without, modifyMailbox, placeWithout]
      split
      · rw [List.eraseIdx_modify_of_lt _ _ _ _ ‹b < n›]
      · rw [List.eraseIdx_modify_of_gt _ _ _ _ (by omega)]

/-- What becomes of the one mailbox does not show. -/
theorem without_modifyMailbox (c : Connection) (b : Nat) (change : Mailbox → Mailbox) :
    (c.modifyMailbox b change).without b = c.without b := by
  cases b with
  | zero => rfl
  | succ b => simp only [without, modifyMailbox, List.eraseIdx_modify_of_eq]

/-- A new listener is a new listener there too, and has the number that goes with its own. -/
theorem addListener_without (c : Connection) (hb : b ≠ c.mailboxes.length + 1) :
    (c.without b).addListener.2.1 = c.addListener.2.1.without b ∧
      (c.without b).addListener.1 = numberWithout b c.addListener.1 := by
  cases b with
  | zero => exact ⟨rfl, rfl⟩
  | succ b =>
    simp only [addListener, without, numberWithout, placeWithout]
    rcases Nat.lt_or_ge b c.mailboxes.length with hlt | hge
    · rw [List.eraseIdx_append_of_lt_length hlt, if_pos hlt, List.length_eraseIdx_of_lt hlt]
      exact ⟨rfl, rfl⟩
    · have hne : [({} : Mailbox)].length ≤ b - c.mailboxes.length := by
        rw [List.length_singleton]
        omega
      rw [List.eraseIdx_append_of_length_le hge, List.eraseIdx_of_length_le hge,
        List.eraseIdx_of_length_le hne, if_neg (Nat.not_lt.2 hge)]
      exact ⟨rfl, rfl⟩

/-- The one listener itself does not come. -/
theorem without_addListener (c : Connection) :
    c.addListener.2.1.without c.addListener.1 = c.without c.addListener.1 := by
  simp only [addListener, without]
  rw [List.eraseIdx_append_of_length_le (Nat.le_refl _),
    List.eraseIdx_of_length_le (Nat.le_refl _), Nat.sub_self]
  simp

end Connection

/-- The action where a listener has never been: what is about another listener is about the
same one, and what is about the listener does not happen. -/
def ConnectionAction.without (b : Nat) : ConnectionAction → Option ConnectionAction
  | .removeListener n =>
    if n = b then none else some (.removeListener (Connection.numberWithout b n))
  | .dropListener n =>
    if n = b then none else some (.dropListener (Connection.numberWithout b n))
  | .receive n => if n = b then none else some (.receive (Connection.numberWithout b n))
  | a => some a

namespace Connection

variable {c d : Connection} {b n m : Nat} {a a' : ConnectionAction} {outbound : List Outbound}

/-- **What is about the one listener does not show.** -/
theorem without_apply_of_none (ha : a.without b = none) :
    (c.apply a).1.without b = c.without b := by
  cases a with
  | removeListener n =>
    obtain rfl : n = b := by simpa [ConnectionAction.without] using ha
    simp only [apply, removeListener]
    split
    · exact c.without_modifyMailbox n _
    · rfl
  | dropListener n =>
    obtain rfl : n = b := by simpa [ConnectionAction.without] using ha
    exact c.without_modifyMailbox n _
  | receive n =>
    obtain rfl : n = b := by simpa [ConnectionAction.without] using ha
    simp only [apply, receive]
    split
    · rfl
    · exact c.without_modifyMailbox n _
  | _ => cases ha

/-- **What happens to a connection happens in the same way to the one that has never had the
listener.** -/
theorem apply_without (ha : a.without b = some a')
    (hb : a = .addListener → b ≠ c.mailboxes.length + 1) :
    ((c.without b).apply a').1 = (c.apply a).1.without b := by
  cases a with
  | addListener =>
    cases ha
    exact (c.addListener_without (hb rfl)).1
  | removeListener n =>
    obtain ⟨hn, rfl⟩ : n ≠ b ∧ .removeListener (numberWithout b n) = a' := by
      simpa [ConnectionAction.without] using ha
    simp only [apply, removeListener, c.mailbox?_without hn]
    split
    · exact c.modifyMailbox_without hn _
    · rfl
  | dropListener n =>
    obtain ⟨hn, rfl⟩ : n ≠ b ∧ .dropListener (numberWithout b n) = a' := by
      simpa [ConnectionAction.without] using ha
    exact c.modifyMailbox_without hn _
  | receive n =>
    obtain ⟨hn, rfl⟩ : n ≠ b ∧ .receive (numberWithout b n) = a' := by
      simpa [ConnectionAction.without] using ha
    simp only [apply, receive, c.mailbox?_without hn]
    split
    · rfl
    · exact c.modifyMailbox_without hn _
  | dispatch frame =>
    cases ha
    cases b with
    | zero => rfl
    | succ b =>
      simp only [apply, dispatch, without]
      rw [List.eraseIdx_map]
  | send | close | markOpen | dropDriver | takeOutbound =>
    -- these look at states, flags and the queue, which both connections have in common
    cases ha
    obtain ⟨generation, state, outbound, held, driven, mailboxes, frames⟩ := c
    cases b <;> cases state <;> cases held <;> cases driven <;> cases outbound <;> rfl
  | markClosed | dropOutbound | text =>
    cases ha
    cases b <;> rfl

theorem mailbox?_outbound (c : Connection) (outbound : List Outbound) (n : Nat) :
    mailbox? { c with outbound } n = c.mailbox? n := by
  cases n <;> rfl

/-- **What is queued matters to the queue only.** -/
theorem apply_outbound (c : Connection) (a : ConnectionAction) (outbound : List Outbound) :
    ∃ outbound',
      (apply { c with outbound } a).1 = { (c.apply a).1 with outbound := outbound' } := by
  cases a with
  | markClosed | dropOutbound | dispatch | text | addListener => exact ⟨_, rfl⟩
  | send | close | markOpen | dropDriver | takeOutbound =>
    obtain ⟨generation, state, queued, held, driven, mailboxes, frames⟩ := c
    cases state <;> cases held <;> cases driven <;> cases outbound <;> cases queued <;>
      exact ⟨_, rfl⟩
  | dropListener n => cases n <;> exact ⟨_, rfl⟩
  | removeListener n =>
    simp only [apply, removeListener, mailbox?_outbound]
    split
    · cases n <;> exact ⟨_, rfl⟩
    · exact ⟨_, rfl⟩
  | receive n =>
    simp only [apply, receive, mailbox?_outbound]
    split
    · exact ⟨_, rfl⟩
    · cases n <;> exact ⟨_, rfl⟩

/-- Another listener finds there what it would find. -/
theorem receive_without (c : Connection) (hn : n ≠ b) (outbound : List Outbound) :
    (receive { c.without b with outbound } (numberWithout b n)).1 = (c.receive n).1 := by
  unfold receive
  rw [mailbox?_outbound, c.mailbox?_without hn]
  cases c.mailbox? n <;> rfl

end Connection

namespace Hub

variable {h h' : Hub} {g k b : Nat} {a a' : ConnectionAction}
  {change change' : Connection → Connection}

/-- Two hubs of as many connections, where in the second one of them has never had a
listener. -/
structure Without (g b : Nat) (h h' : Hub) : Prop where
  generation_eq : h'.generation = h.generation
  find? : ∃ c outbound, h.find? g = some c ∧ h'.find? g = some { c.without b with outbound }

theorem Without.generation_pos (hw : Without g b h h') : 0 < h.generation ∧ 0 < h'.generation := by
  obtain ⟨c, outbound, hc, hc'⟩ := hw.find?
  have hrange := le_generation_of_find? hc
  have hrange' := le_generation_of_find? hc'
  omega

theorem Without.stateOf_eq (hw : Without g b h h') : h'.stateOf g = h.stateOf g := by
  obtain ⟨c, outbound, hc, hc'⟩ := hw.find?
  obtain ⟨mailboxes, heq⟩ := c.without_eq b
  rw [stateOf_of_find? hc, stateOf_of_find? hc', heq]

theorem Without.takesTexts_eq (hw : Without g b h h') : h'.takesTexts g = h.takesTexts g := by
  obtain ⟨c, outbound, hc, hc'⟩ := hw.find?
  obtain ⟨mailboxes, heq⟩ := c.without_eq b
  rw [takesTexts_of_find? hc, takesTexts_of_find? hc', heq]

/-- What changes the two connections alike keeps them alike. -/
theorem Without.modify (hw : Without g b h h')
    (hchange : ∀ c outbound, h.find? g = some c → ∃ outbound',
      change' { c.without b with outbound } = { (change c).without b with outbound := outbound' }) :
    Without g b (h.modify g change) (h'.modify g change') := by
  obtain ⟨c, outbound, hc, hc'⟩ := hw.find?
  obtain ⟨outbound', heq⟩ := hchange c outbound hc
  refine ⟨by simpa only [generation_modify] using hw.generation_eq, change c, outbound', ?_, ?_⟩
  · rw [find?_modify, if_pos rfl, hc, Option.map_some]
  · rw [find?_modify, if_pos rfl, hc', Option.map_some, heq]

/-- What does not show changes nothing. -/
theorem Without.modify_left (hw : Without g b h h')
    (hchange : ∀ c, h.find? g = some c → ∃ outbound,
      (change c).without b = { c.without b with outbound }) :
    Without g b (h.modify g change) h' := by
  rw [← h'.modify_id g]
  refine hw.modify fun c outbound hc => ⟨outbound, ?_⟩
  obtain ⟨_, heq⟩ := hchange c hc
  rw [heq]

/-- **The same actions keep two hubs alike**, where new listeners are not the one that has
never been. -/
theorem Without.act (hw : Without g b h h') (ha : a.without b = some a')
    (hb : a = .addListener → b ≠ (h.mailboxesOf g).length + 1) :
    Without g b (h.modify g fun c => (c.apply a).1) (h'.modify g fun c => (c.apply a').1) := by
  refine hw.modify fun c outbound hc => ?_
  rw [mailboxesOf_of_find? hc] at hb
  rw [← Connection.apply_without ha hb]
  exact Connection.apply_outbound _ _ _

/-- What is about the one listener happens in the first hub only. -/
theorem Without.act_left (hw : Without g b h h') (ha : a.without b = none) :
    Without g b (h.modify g fun c => (c.apply a).1) h' :=
  hw.modify_left fun c _ => ⟨(c.without b).outbound, Connection.without_apply_of_none ha⟩

/-- What happens to other connections is of no account. -/
theorem Without.act_of_ne (hw : Without g b h h') (hk : k ≠ g) :
    Without g b (h.modify k change) (h'.modify k change') := by
  obtain ⟨c, outbound, hc, hc'⟩ := hw.find?
  refine ⟨by simpa only [generation_modify] using hw.generation_eq, c, outbound, ?_, ?_⟩
  · rwa [find?_modify, if_neg hk]
  · rwa [find?_modify, if_neg hk]

theorem Without.queue (hw : Without g b h h') (text : String) :
    Without g b (h.queue g text) (h'.queue g text) := by
  refine hw.modify fun c outbound _ => ⟨outbound ++ [.text text], ?_⟩
  cases b <;> rfl

theorem Without.queue_left (hw : Without g b h h') (text : String) :
    Without g b (h.queue g text) h' := by
  refine hw.modify_left fun c _ => ⟨c.outbound ++ [.text text], ?_⟩
  cases b <;> rfl

end Hub

end PushFeed
