import Mathlib.Logic.Relation
import PushFeed.Connection.Action
import PushFeed.Connection.Hub
/-!
# How the hub evolves

Whatever a client does, the hub changes in two ways only: somebody asks for a
connection, or something happens to one of the connections. `Hub.Step` is one such
change and `Hub.Evolves` any number of them. A hub that came about this way is
`Sound`: its connections are numbered in the order they were made, and all but the
newest are on their way out. Along every evolution a connection goes `Forward` only
(`Hub.Evolves.forward`), so one that has begun to close never opens again.
-/

namespace PushFeed

namespace ReadyState

/-- The states from which there is no way back to an open connection. -/
theorem isTerminal_iff (s : ReadyState) : s.isTerminal = true ↔ 2 ≤ s.rank := by
  cases s <;> simp [isTerminal, rank]

theorem isOpen_iff (s : ReadyState) : s.isOpen = true ↔ s = .open := by
  cases s <;> simp [isOpen]

theorem rank_le_closed (s : ReadyState) : s.rank ≤ ReadyState.closed.rank := by
  cases s <;> simp [rank]

end ReadyState

namespace Connection

/-! ## What happens to one connection -/

/-- A connection and the same connection later: it keeps its number, its state has not
gone back, it has at least as many listeners behind it, and its transport has not taken up
the queue again. -/
structure Forward (c d : Connection) : Prop where
  /-- The number stays. -/
  generation_eq : d.generation = c.generation
  /-- The state does not go back. -/
  rank_le : c.state.rank ≤ d.state.rank
  /-- Listeners keep their numbers. -/
  length_le : c.mailboxes.length ≤ d.mailboxes.length
  /-- A queue that is let go stays so. -/
  held : d.outboundHeld = true → c.outboundHeld = true

theorem Forward.refl (c : Connection) : Forward c c := ⟨rfl, Nat.le_refl _, Nat.le_refl _, id⟩

theorem Forward.trans {c d e : Connection} (h : Forward c d) (h' : Forward d e) : Forward c e :=
  ⟨h'.generation_eq.trans h.generation_eq, Nat.le_trans h.rank_le h'.rank_le,
    Nat.le_trans h.length_le h'.length_le, h.held ∘ h'.held⟩

/-- A change of one mailbox shows nowhere else. -/
theorem modifyMailbox_eq (c : Connection) (n : Nat) (change : Mailbox → Mailbox) :
    ∃ mailboxes, c.modifyMailbox n change = { c with mailboxes } ∧
      mailboxes.length = c.mailboxes.length := by
  cases n with
  | zero => exact ⟨_, rfl, rfl⟩
  | succ n => exact ⟨_, rfl, List.length_modify ..⟩

theorem forward_modifyMailbox (c : Connection) (n : Nat) (change : Mailbox → Mailbox) :
    Forward c (c.modifyMailbox n change) := by
  obtain ⟨mailboxes, h, hlen⟩ := c.modifyMailbox_eq n change
  rw [h]
  exact ⟨rfl, Nat.le_refl _, Nat.le_of_eq hlen.symm, id⟩

/-- A text that is taken joins the queue of an open connection; nothing else changes. -/
theorem sendText_eq_ok {c d : Connection} {text : String} (h : c.sendText text = .ok d) :
    c.state = .open ∧ d = { c with outbound := c.outbound ++ [.text text] } := by
  unfold sendText at h
  split at h
  · cases h
  · split at h
    · cases h
    · rename_i hopen _
      refine ⟨(ReadyState.isOpen_iff _).1 (by simpa using hopen), by cases h; rfl⟩

/-- **Connections only go forward**, whatever happens to them. -/
theorem forward_apply (c : Connection) (a : ConnectionAction) : Forward c (c.apply a).1 := by
  cases a with
  | markOpen =>
    refine ⟨?_, c.rank_le_markOpen, ?_, ?_⟩ <;> simp only [apply, markOpen] <;> split <;> simp
  | close =>
    refine ⟨?_, c.rank_le_close, ?_, ?_⟩ <;> simp only [apply, close] <;> repeat' split
    all_goals simp_all
  | markClosed fault => exact ⟨rfl, c.state.rank_le_closed, Nat.le_refl _, id⟩
  | dropDriver =>
    simp only [apply, dropDriver]
    split
    · exact ⟨rfl, c.state.rank_le_closed, Nat.le_refl _, id⟩
    · exact .refl c
  | takeOutbound =>
    simp only [apply, takeOutbound]
    split <;> exact ⟨rfl, Nat.le_refl _, Nat.le_refl _, id⟩
  | dispatch frame => exact ⟨rfl, Nat.le_refl _, by simp [apply, dispatch], id⟩
  | send text =>
    simp only [apply]
    cases h : c.sendText text with
    | error e => exact .refl c
    | ok d =>
      obtain ⟨-, rfl⟩ := sendText_eq_ok h
      exact ⟨rfl, Nat.le_refl _, Nat.le_refl _, id⟩
  | addListener => exact ⟨rfl, Nat.le_refl _, by simp [apply, addListener], id⟩
  | removeListener n =>
    simp only [apply, removeListener]
    split
    · exact c.forward_modifyMailbox n _
    · exact .refl c
  | dropListener n => exact c.forward_modifyMailbox n _
  | receive n =>
    simp only [apply, receive]
    split
    · exact .refl c
    · exact c.forward_modifyMailbox n _
  | dropOutbound => exact ⟨rfl, Nat.le_refl _, Nat.le_refl _, fun h => absurd h Bool.false_ne_true⟩
  | text text => exact .refl c

/-- A connection that has been asked to close is on its way out. -/
theorem isTerminal_close (c : Connection) : c.close.state.isTerminal = true := by
  unfold close
  split
  · assumption
  · split <;> rfl

end Connection

namespace Hub

/-- The numbers from one count to the next, and on to a later one. -/
theorem range'_append_range' {a b c : Nat} (hab : a ≤ b) (hbc : b ≤ c) :
    List.range' (a + 1) (b - a) ++ List.range' (b + 1) (c - b) =
      List.range' (a + 1) (c - a) := by
  have hstart : b + 1 = a + 1 + (b - a) := by omega
  have hlength : b - a + (c - b) = c - a := by omega
  rw [hstart, List.range'_append_1, hlength]

/-! ## Looking connections up -/

@[simp] theorem find?_zero (h : Hub) : h.find? 0 = none := rfl

theorem find?_succ (h : Hub) (n : Nat) : h.find? (n + 1) = h.connections[n]? := rfl

/-- The numbers that connections have. -/
theorem find?_isSome_iff {h : Hub} {g : Nat} :
    (h.find? g).isSome ↔ 0 < g ∧ g ≤ h.generation := by
  cases g with
  | zero => simp
  | succ n =>
    simp only [find?_succ, generation, isSome_getElem?]
    omega

theorem exists_find? {h : Hub} {g : Nat} (h0 : 0 < g) (hg : g ≤ h.generation) :
    ∃ c, h.find? g = some c :=
  Option.isSome_iff_exists.1 (find?_isSome_iff.2 ⟨h0, hg⟩)

theorem le_generation_of_find? {h : Hub} {g : Nat} {c : Connection} (hc : h.find? g = some c) :
    0 < g ∧ g ≤ h.generation :=
  find?_isSome_iff.1 (hc ▸ rfl)

theorem find?_eq_none_of_lt {h : Hub} {g : Nat} (hg : h.generation < g) : h.find? g = none := by
  cases hc : h.find? g with
  | none => rfl
  | some c => exact absurd (le_generation_of_find? hc).2 (by omega)

theorem stateOf_of_find? {h : Hub} {g : Nat} {c : Connection} (hc : h.find? g = some c) :
    h.stateOf g = c.state := by
  simp [stateOf, hc]

/-- What was never made counts as closed. -/
theorem stateOf_of_lt {h : Hub} {g : Nat} (hg : h.generation < g) : h.stateOf g = .closed := by
  simp [stateOf, find?_eq_none_of_lt hg]

/-- A connection that is not closed has been made. -/
theorem exists_of_stateOf_ne {h : Hub} {g : Nat} (hs : h.stateOf g ≠ .closed) :
    ∃ c, h.find? g = some c := by
  cases hc : h.find? g with
  | none => simp [stateOf, hc] at hs
  | some c => exact ⟨c, rfl⟩

/-- Changing one connection changes that one only. -/
theorem find?_modify (h : Hub) (g g' : Nat) (change : Connection → Connection) :
    (h.modify g change).find? g' = if g = g' then (h.find? g').map change else h.find? g' := by
  cases g with
  | zero => cases g' <;> simp [modify]
  | succ n =>
    cases g' with
    | zero => simp
    | succ n' =>
      by_cases hn : n = n' <;> simp [modify, find?_succ, hn]

theorem modify_id (h : Hub) (g : Nat) : (h.modify g fun d => d) = h := by
  cases g with
  | zero => rfl
  | succ n =>
    show { h with connections := h.connections.modify n id } = h
    rw [List.modify_id]

/-- A change counts only for what it makes of the connection that is there. -/
theorem modify_congr {h : Hub} {g : Nat} {c : Connection} {change change' : Connection → Connection}
    (hc : h.find? g = some c) (heq : change c = change' c) :
    h.modify g change = h.modify g change' := by
  cases g with
  | zero => rfl
  | succ n =>
    have hl : h.connections.modify n change = h.connections.modify n change' := by
      refine List.ext_getElem? fun i => ?_
      rw [List.getElem?_modify, List.getElem?_modify]
      by_cases hi : n = i
      · subst hi
        rw [← find?_succ, hc]
        simp [heq]
      · simp [hi]
    simp only [modify, hl]

theorem find?_connect (h : Hub) (g : Nat) :
    h.connect.1.find? g =
      if g = h.generation + 1 then some { generation := g } else h.find? g := by
  cases g with
  | zero => simp
  | succ n =>
    simp only [connect, find?_succ, generation, List.getElem?_append, Nat.add_right_cancel_iff]
    rcases Nat.lt_trichotomy n h.connections.length with hlt | heq | hgt
    · simp [hlt, Nat.ne_of_lt hlt]
    · simp [heq]
    · have hn : n - h.connections.length ≠ 0 := by omega
      simp [Nat.not_lt.2 (Nat.le_of_lt hgt), Nat.ne_of_gt hgt, hn]

theorem current?_eq_find? (h : Hub) : h.current? = h.find? h.generation := by
  cases hc : h.connections with
  | nil => simp [current?, generation, hc]
  | cons c rest => simp [current?, generation, find?_succ, hc, List.getLast?_eq_getElem?]

/-! ## Sound hubs -/

/-- A hub as evolutions make it. -/
structure Sound (h : Hub) : Prop where
  /-- A connection has the number it is found under. -/
  numbered : ∀ {g c}, h.find? g = some c → c.generation = g
  /-- All but the newest connection are on their way out. -/
  retired : ∀ {g}, 0 < g → g < h.generation → (h.stateOf g).isTerminal = true

theorem sound_of_empty (url : String) : Sound { url } where
  numbered {g} c hc := by cases g <;> simp [find?] at hc
  retired h0 hg := by simp [generation] at hg

variable {h h' : Hub}

/-- Nothing but the newest connection can be of any use. -/
theorem Sound.isTerminal_of_ne (hs : h.Sound) {g : Nat} (hg : g ≠ h.generation) :
    (h.stateOf g).isTerminal = true := by
  rcases Nat.lt_or_gt_of_ne hg with hlt | hgt
  · rcases Nat.eq_zero_or_pos g with rfl | h0
    · rfl
    · exact hs.retired h0 hlt
  · rw [stateOf_of_lt hgt]
    rfl

/-- Making room asks the newest connection to close. -/
theorem Sound.retire_eq (hs : h.Sound) : h.retire.1 = h.modify h.generation Connection.close := by
  rw [retire, current?_eq_find?]
  cases hc : h.find? h.generation with
  | none =>
    cases hg : h.generation with
    | zero => rfl
    | succ n => exact absurd (exists_find? (g := h.generation) (by omega) (Nat.le_refl _)) (by simp [hc])
  | some c =>
    have hn : c.close.generation = h.generation :=
      (c.forward_apply .close).generation_eq.trans (hs.numbered hc)
    exact hn ▸ modify_congr (hn.symm ▸ hc) rfl

/-- What a forced request leaves: the new connection, the one before it asked to close,
and all others as they were. -/
theorem Sound.find?_get_true (hs : h.Sound) (g : Nat) :
    (h.get true).1.find? g =
      if g = h.generation + 1 then some { generation := g }
      else if h.generation = g then (h.find? g).map Connection.close else h.find? g := by
  rw [get, if_pos rfl]
  simp only [find?_connect, hs.retire_eq, generation_modify, find?_modify]

theorem get_false_of_pos (hg : 0 < h.generation) : h.get false = (h, []) := by
  have hne : h.connections ≠ [] := List.ne_nil_of_length_pos hg
  simp [get, hne]

theorem get_false_of_empty (hg : h.generation = 0) : h.get false = h.connect := by
  simp only [generation, List.length_eq_zero_iff] at hg
  simp [get, hg]

/-- One change of the hub. -/
inductive Step (h : Hub) : Hub → Prop
  /-- Somebody asks for a connection. -/
  | get (force : Bool) : Step h (h.get force).1
  /-- Something happens to a connection. -/
  | act (g : Nat) (a : ConnectionAction) : Step h (h.modify g fun c => (c.apply a).1)

/-- Any number of changes. -/
abbrev Evolves : Hub → Hub → Prop := Relation.ReflTransGen Step

/-- A connection is still there after a change, further on. -/
theorem Step.forward (hs : h.Sound) (hstep : Step h h') {g : Nat} {c : Connection}
    (hc : h.find? g = some c) : ∃ d, h'.find? g = some d ∧ Connection.Forward c d := by
  have hg := le_generation_of_find? hc
  cases hstep with
  | get force =>
    cases force with
    | false =>
      rw [get_false_of_pos (by omega)]
      exact ⟨c, hc, .refl c⟩
    | true =>
      rw [hs.find?_get_true, if_neg (by omega), hc]
      split
      · exact ⟨c.close, rfl, c.forward_apply .close⟩
      · exact ⟨c, rfl, .refl c⟩
  | act g' a =>
    rw [find?_modify, hc]
    split
    · exact ⟨_, rfl, c.forward_apply a⟩
    · exact ⟨c, rfl, .refl c⟩

theorem Step.generation_le (hstep : Step h h') : h.generation ≤ h'.generation := by
  cases hstep with
  | get force =>
    cases force with
    | false => rw [generation_get_false]; exact Nat.le_max_right ..
    | true => rw [generation_get_true]; exact Nat.le_succ _
  | act g a => exact Nat.le_of_eq (generation_modify ..).symm

/-- Once on its way out, a connection stays so. -/
theorem Step.isTerminal (hs : h.Sound) (hstep : Step h h') {g : Nat} (hg : g ≤ h.generation)
    (ht : (h.stateOf g).isTerminal = true) : (h'.stateOf g).isTerminal = true := by
  rcases Nat.eq_zero_or_pos g with rfl | h0
  · rfl
  obtain ⟨c, hc⟩ := exists_find? h0 hg
  obtain ⟨d, hd, hcd⟩ := hstep.forward hs hc
  rw [ReadyState.isTerminal_iff, stateOf_of_find? hc] at ht
  rw [ReadyState.isTerminal_iff, stateOf_of_find? hd]
  exact Nat.le_trans ht hcd.rank_le

/-- **Every change keeps a hub sound.** -/
theorem Step.sound (hs : h.Sound) (hstep : Step h h') : h'.Sound := by
  cases hstep with
  | get force =>
    cases force with
    | true =>
      have hnew := hs.find?_get_true
      refine ⟨fun {g c} hc => ?_, fun {g} h0 hg => ?_⟩
      · rw [hnew] at hc
        split at hc
        · cases hc; rfl
        · split at hc
          · obtain ⟨b, hb, rfl⟩ := Option.map_eq_some_iff.1 hc
            exact (b.forward_apply .close).generation_eq.trans (hs.numbered hb)
          · exact hs.numbered hc
      · rw [generation_get_true] at hg
        -- what was the newest has just been asked to close
        by_cases heq : h.generation = g
        · obtain ⟨b, hb⟩ := exists_find? (h := h) h0 (by omega)
          rw [stateOf, hnew, if_neg (by omega), if_pos heq, hb]
          exact b.isTerminal_close
        · rw [stateOf, hnew, if_neg (by omega), if_neg heq]
          exact hs.retired h0 (by omega)
    | false =>
      rcases Nat.eq_zero_or_pos h.generation with hz | hpos
      · rw [get_false_of_empty hz]
        refine ⟨fun {g c} hc => ?_, fun {g} h0 hg => ?_⟩
        · rw [find?_connect] at hc
          split at hc
          · cases hc; rfl
          · exact hs.numbered hc
        · have : h.connect.1.generation = 1 := by
            rw [← get_false_of_empty hz, generation_get_false, hz]; rfl
          omega
      · rw [get_false_of_pos hpos]
        exact hs
  -- actions make no connection, and what was on its way out stays so
  | act g' a =>
    refine ⟨fun {g c} hc => ?_, fun {g} h0 hg => ?_⟩
    · rw [find?_modify] at hc
      split at hc
      · obtain ⟨b, hb, rfl⟩ := Option.map_eq_some_iff.1 hc
        exact (b.forward_apply a).generation_eq.trans (hs.numbered hb)
      · exact hs.numbered hc
    · rw [generation_modify] at hg
      exact Step.isTerminal hs (.act g' a) (Nat.le_of_lt hg) (hs.retired h0 hg)

namespace Evolves

theorem sound (hs : h.Sound) (he : Evolves h h') : h'.Sound := by
  induction he with
  | refl => exact hs
  | tail _ hstep ih => exact hstep.sound ih

/-- **Connections only go forward**, along every evolution. -/
theorem forward (hs : h.Sound) (he : Evolves h h') {g : Nat} {c : Connection}
    (hc : h.find? g = some c) : ∃ d, h'.find? g = some d ∧ Connection.Forward c d := by
  induction he with
  | refl => exact ⟨c, hc, .refl c⟩
  | tail hto hstep ih =>
    obtain ⟨d, hd, hcd⟩ := ih
    obtain ⟨e, he, hde⟩ := hstep.forward (Evolves.sound hs hto) hd
    exact ⟨e, he, hcd.trans hde⟩

theorem generation_le (he : Evolves h h') : h.generation ≤ h'.generation := by
  induction he with
  | refl => exact Nat.le_refl _
  | tail _ hstep ih => exact Nat.le_trans ih hstep.generation_le

/-- Once on its way out, a connection stays so for good. -/
theorem isTerminal (hs : h.Sound) (he : Evolves h h') {g : Nat} (hg : g ≤ h.generation)
    (ht : (h.stateOf g).isTerminal = true) : (h'.stateOf g).isTerminal = true := by
  induction he with
  | refl => exact ht
  | tail hto hstep ih =>
    exact hstep.isTerminal (Evolves.sound hs hto) (Nat.le_trans hg (Evolves.generation_le hto)) ih

end Evolves

end Hub

end PushFeed
