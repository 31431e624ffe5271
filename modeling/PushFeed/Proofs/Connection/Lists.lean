import PushFeed.Channel.Basic
import PushFeed.Proofs.Connection.Listeners
/-!
# The lists of the hub's connections

A connection lists those of its listeners that get its frames. What may become of a
mailbox is the same for all that can happen (`Mailbox.becomes_after`): off the list it
stays off, and on the list it stays on, as long as its listener holds it and nobody acts
on that very listener. So a listener that is off never comes back
(`Hub.Evolves.isOff`).
-/

namespace PushFeed

namespace Mailbox

variable {m m' : Mailbox}

/-- The mailbox is on the list, and its listener holds it. -/
def IsActive (m : Mailbox) : Prop := m.registered = true ∧ m.held = true

/-- What becomes of a mailbox: off the list it stays off, and it stays active unless
somebody touches it. -/
structure Becomes (touched : Prop) (m m' : Mailbox) : Prop where
  off : m.registered = false → m'.registered = false
  active : ¬touched → m.IsActive → m'.IsActive

theorem Becomes.refl (touched : Prop) (m : Mailbox) : Becomes touched m m := ⟨id, fun _ => id⟩

/-- A frame for all listeners leaves the lists alone, those apart that nobody holds. -/
theorem becomes_deliver (m : Mailbox) (frame : Wire.Bytes) : Becomes False m (m.deliver frame) := by
  unfold deliver
  split
  · split
    · exact ⟨id, fun _ => id⟩
    · rename_i hheld
      exact ⟨fun _ => rfl, fun _ h => absurd h.2 hheld⟩
  · exact .refl _ m

theorem becomes_take (m : Mailbox) : Becomes False m m.take.2 := by
  unfold take
  split
  · exact ⟨id, fun _ => id⟩
  · exact .refl _ m

end Mailbox

/-- Whether an action is about taking a listener off, or its mailbox away. -/
def ConnectionAction.Touches (listener : Nat) : ConnectionAction → Prop
  | .removeListener n => n = listener
  | .dropListener n => n = listener
  | _ => False

namespace Mailbox

/-- What an action makes of the mailbox of a listener. -/
def after (n : Nat) (m : Mailbox) : ConnectionAction → Mailbox
  | .dispatch frame => m.deliver frame
  | .removeListener k => if k = n then { m with registered := false } else m
  | .dropListener k => if k = n then { m with held := false } else m
  | .receive k => if k = n then m.take.2 else m
  | _ => m

theorem becomes_after (n : Nat) (m : Mailbox) (a : ConnectionAction) :
    m.Becomes (a.Touches n) (m.after n a) := by
  cases a with
  | dispatch frame => exact m.becomes_deliver frame
  | removeListener k =>
    simp only [after]
    split
    · rename_i heq
      exact ⟨fun _ => rfl, fun h => absurd heq h⟩
    · exact .refl _ m
  | dropListener k =>
    simp only [after]
    split
    · rename_i heq
      exact ⟨id, fun h => absurd heq h⟩
    · exact .refl _ m
  | receive k =>
    simp only [after]
    split
    · exact m.becomes_take
    · exact .refl _ m
  | _ => exact .refl _ m

end Mailbox

namespace Connection

variable {c : Connection} {n k : Nat} {m : Mailbox}

theorem mailbox?_modifyMailbox (c : Connection) (k n : Nat) (change : Mailbox → Mailbox) :
    (c.modifyMailbox k change).mailbox? n =
      if k = n then (c.mailbox? n).map change else c.mailbox? n := by
  cases k with
  | zero =>
    cases n with
    | zero => rfl
    | succ n => simp [modifyMailbox]
  | succ k =>
    cases n with
    | zero => rfl
    | succ n =>
      by_cases heq : k = n <;> simp [modifyMailbox, mailbox?, heq]

/-- **What an action makes of a mailbox**, seen from its listener. -/
theorem mailbox?_apply (a : ConnectionAction) (hm : c.mailbox? n = some m) :
    (c.apply a).1.mailbox? n = some (m.after n a) := by
  have hsame : ∀ {d : Connection}, d.mailboxes = c.mailboxes → d.mailbox? n = some m := by
    intro d hd
    cases n with
    | zero => cases hm
    | succ n =>
      unfold mailbox?
      rw [hd]
      exact hm
  cases a with
  | close => exact hsame c.mailboxes_close
  | markClosed | dropOutbound | text => exact hsame rfl
  | markOpen | dropDriver | takeOutbound =>
    refine hsame ?_
    simp only [apply, markOpen, dropDriver, takeOutbound]
    split <;> rfl
  | send text =>
    refine hsame ?_
    simp only [apply]
    cases hd : c.sendText text with
    | error e => rfl
    | ok d =>
      obtain ⟨-, rfl⟩ := sendText_eq_ok hd
      rfl
  | addListener =>
    cases n with
    | zero => cases hm
    | succ n =>
      have hm : c.mailboxes[n]? = some m := hm
      have hlt : n < c.mailboxes.length := (List.getElem?_eq_some_iff.1 hm).1
      simp only [apply, addListener, mailbox?, List.getElem?_append_left hlt, hm, Mailbox.after]
  | dispatch frame =>
    cases n with
    | zero => cases hm
    | succ n =>
      have hm : c.mailboxes[n]? = some m := hm
      simp only [apply, dispatch, mailbox?, List.getElem?_map, hm, Option.map_some, Mailbox.after]
  | removeListener k =>
    simp only [apply, removeListener, Mailbox.after]
    split
    · rw [mailbox?_modifyMailbox, hm]
      split <;> rfl
    · rename_i hoff
      split
      · rename_i heq
        have hreg : m.registered = false := by simpa [heq, hm] using hoff
        rw [hm, ← hreg]
      · exact hm
  | dropListener k =>
    simp only [apply, dropListener, Mailbox.after, mailbox?_modifyMailbox, hm]
    split <;> rfl
  | receive k =>
    simp only [apply, receive, Mailbox.after]
    split
    · rename_i hnone
      rw [if_neg fun heq => ?_, hm]
      rw [heq, hm] at hnone
      cases hnone
    · rename_i m' hm'
      rw [mailbox?_modifyMailbox, hm]
      split
      · rename_i heq
        rw [heq, hm] at hm'
        cases hm'
        rfl
      · rfl

/-- What may become of a mailbox. -/
theorem becomes_apply (a : ConnectionAction) (hm : c.mailbox? n = some m) :
    ∃ m', (c.apply a).1.mailbox? n = some m' ∧ m.Becomes (a.Touches n) m' :=
  ⟨_, mailbox?_apply a hm, m.becomes_after n a⟩

end Connection

namespace Hub

variable {h h' h'' : Hub} {a : Attachment} {g : Nat}

/-- The mailbox of a listener. -/
def mailboxAt (h : Hub) (a : Attachment) : Option Mailbox :=
  (h.find? a.generation).bind (·.mailbox? a.listener)

/-- Whether a listener is on its connection's list. -/
def lists (h : Hub) (a : Attachment) : Bool := (h.mailboxAt a).any (·.registered)

/-- The listener is on the list and holds its mailbox. -/
def Serves (h : Hub) (a : Attachment) : Prop := ∃ m, h.mailboxAt a = some m ∧ m.IsActive

/-- The listener has been taken off the list. -/
def IsOff (h : Hub) (a : Attachment) : Prop := ∃ m, h.mailboxAt a = some m ∧ m.registered = false

theorem Serves.lists (hs : h.Serves a) : h.lists a = true := by
  obtain ⟨m, hm, hactive⟩ := hs
  simp [Hub.lists, hm, hactive.1]

theorem IsOff.lists (ho : h.IsOff a) : h.lists a = false := by
  obtain ⟨m, hm, hoff⟩ := ho
  simp [Hub.lists, hm, hoff]

theorem mailboxAt_of_find? {c : Connection} (hc : h.find? a.generation = some c) :
    h.mailboxAt a = c.mailbox? a.listener := by
  simp [mailboxAt, hc]

/-- The mailboxes are all that a list is made of. -/
theorem mailboxAt_congr (hm : ∀ g, h'.mailboxesOf g = h.mailboxesOf g) (a : Attachment) :
    h'.mailboxAt a = h.mailboxAt a := by
  have hread : ∀ h : Hub, h.mailboxAt a =
      if a.listener = 0 then none else (h.mailboxesOf a.generation)[a.listener - 1]? := by
    intro h
    unfold mailboxAt mailboxesOf
    cases h.find? a.generation <;> cases a.listener <;> simp [Connection.mailbox?]
  rw [hread, hread, hm]

theorem lt_of_mailboxAt {m : Mailbox} (hm : h.mailboxAt a = some m) :
    a.listener ≤ (h.mailboxesOf a.generation).length := by
  unfold mailboxAt at hm
  cases hc : h.find? a.generation with
  | none =>
    rw [hc] at hm
    cases hm
  | some c =>
    rw [hc] at hm
    rw [mailboxesOf_of_find? hc]
    cases hl : a.listener with
    | zero => exact Nat.zero_le _
    | succ n =>
      rw [hl] at hm
      exact (List.getElem?_eq_some_iff.1 hm).1

/-- What taking a listener off does to the mailboxes. -/
theorem mailboxAt_removeListener (h : Hub) (a b : Attachment) :
    (h.modify a.generation fun d => (d.apply (.removeListener a.listener)).1).mailboxAt b =
      if a = b then (h.mailboxAt b).map fun m => { m with registered := false }
      else h.mailboxAt b := by
  obtain ⟨g, n⟩ := a
  obtain ⟨g', n'⟩ := b
  have hconnection (d : Connection) : (d.apply (.removeListener n)).1.mailbox? n' =
      if n = n' then (d.mailbox? n').map fun m => { m with registered := false }
      else d.mailbox? n' := by
    simp only [Connection.apply, Connection.removeListener]
    split
    · exact d.mailbox?_modifyMailbox n n' _
    · rename_i hoff
      split
      · rename_i heq
        subst heq
        cases hm : d.mailbox? n with
        | none => rfl
        | some m =>
          -- a listener that is off the list stays as it is
          have hregistered : m.registered = false := by simpa [hm] using hoff
          simp [← hregistered]
      · rfl
  simp only [mailboxAt, find?_modify, Attachment.mk.injEq]
  by_cases hg : g = g'
  · subst hg
    cases hd : h.find? g with
    | none => simp
    | some d => simpa using hconnection d
  · simp [hg]

/-- What an action makes of the mailboxes of a hub. -/
theorem becomes_act {m : Mailbox} (g : Nat) (action : ConnectionAction)
    (hm : h.mailboxAt a = some m) :
    ∃ m', (h.modify g fun c => (c.apply action).1).mailboxAt a = some m' ∧
      m.Becomes (g = a.generation ∧ action.Touches a.listener) m' := by
  cases hc : h.find? a.generation with
  | none =>
    rw [mailboxAt, hc] at hm
    cases hm
  | some c =>
    have hmc := (mailboxAt_of_find? hc).symm.trans hm
    by_cases heq : g = a.generation
    · obtain ⟨m', hm', hbecomes⟩ := Connection.becomes_apply action hmc
      refine ⟨m', ?_, hbecomes.off, fun h => hbecomes.active fun ht => h ⟨heq, ht⟩⟩
      have hfind : (h.modify g fun c => (c.apply action).1).find? a.generation =
          some (c.apply action).1 := by
        rw [find?_modify, if_pos heq, hc]
        rfl
      exact (mailboxAt_of_find? hfind).trans hm'
    · refine ⟨m, ?_, .refl _ m⟩
      have hfind : (h.modify g fun c => (c.apply action).1).find? a.generation = some c := by
        rw [find?_modify, if_neg heq, hc]
      exact (mailboxAt_of_find? hfind).trans hmc

theorem Serves.act (hs : h.Serves a) {action : ConnectionAction}
    (hno : g = a.generation → ¬action.Touches a.listener) :
    (h.modify g fun c => (c.apply action).1).Serves a := by
  obtain ⟨m, hm, hactive⟩ := hs
  obtain ⟨m', hm', hbecomes⟩ := becomes_act g action hm
  exact ⟨m', hm', hbecomes.active (fun h => hno h.1 h.2) hactive⟩

theorem Serves.congr (hs : h.Serves a) (hm : ∀ g, h'.mailboxesOf g = h.mailboxesOf g) :
    h'.Serves a := by
  unfold Serves
  rw [mailboxAt_congr hm]
  exact hs

theorem Step.isOff (hs : h.Sound) (hstep : Step h h') (ho : h.IsOff a) : h'.IsOff a := by
  cases hstep with
  | get force =>
    unfold IsOff
    rw [mailboxAt_congr (hs.mailboxesOf_get force)]
    exact ho
  | act g action =>
    obtain ⟨m, hm, hoff⟩ := ho
    obtain ⟨m', hm', hbecomes⟩ := becomes_act g action hm
    exact ⟨m', hm', hbecomes.off hoff⟩

/-- **Once off the list, a listener stays off.** -/
theorem Evolves.isOff (hs : h.Sound) (he : Evolves h h') (ho : h.IsOff a) : h'.IsOff a := by
  induction he with
  | refl => exact ho
  | tail hto hstep ih => exact hstep.isOff (Evolves.sound hs hto) ih

theorem Evolves.length_mailboxesOf_le (hs : h.Sound) (he : Evolves h h') (g : Nat) :
    (h.mailboxesOf g).length ≤ (h'.mailboxesOf g).length := by
  cases hc : h.find? g with
  | none => simp [mailboxesOf, hc]
  | some c =>
    obtain ⟨d, hd, hforward⟩ := he.forward hs hc
    rw [mailboxesOf_of_find? hc, mailboxesOf_of_find? hd]
    exact hforward.length_le

end Hub

end PushFeed
