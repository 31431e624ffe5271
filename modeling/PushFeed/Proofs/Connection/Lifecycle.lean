import Mathlib.Data.List.Induction
import PushFeed.Proofs.Connection.Evolution
/-!
# A connection's life

Users and the transport write the same state from two sides, each under a condition of its
own. What the two can do to state and queue is said once (`Connection.apply_cases`): a text
joins the queue of an open connection, a request to close joins it at most once, and all
else leaves the queue to the transport. So a connection's queue gets the texts it has taken,
in order, and at most one request to close behind them, whatever happens
(`Connection.lifecycle`).

A request to close is made once. One that was queued and never read is not made again: a
connection that waits for its transport to close goes on waiting for it
(`Connection.closing_after_close`).
-/

namespace PushFeed

namespace Connection

variable {c d : Connection} {a : ConnectionAction} {g : Nat} {actions more : List ConnectionAction}

/-! ## Lives -/

/-- A connection that was just made. -/
def fresh (g : Nat) : Connection := { generation := g }

theorem applyAll_append (c : Connection) (actions more : List ConnectionAction) :
    c.applyAll (actions ++ more) = (c.applyAll actions).applyAll more :=
  List.foldl_append ..

theorem applyAll_concat (c : Connection) (actions : List ConnectionAction) (a : ConnectionAction) :
    c.applyAll (actions ++ [a]) = ((c.applyAll actions).apply a).1 :=
  applyAll_append c actions [a]

/-- What the actions of a life leave behind, put together in their order. -/
def collect {α : Type} (c : Connection) (of : Connection → ConnectionAction → List α) :
    List ConnectionAction → List α
  | [] => []
  | a :: rest => of c a ++ (c.apply a).1.collect of rest

theorem collect_append {α : Type} (c : Connection) (of : Connection → ConnectionAction → List α)
    (actions more : List ConnectionAction) :
    c.collect of (actions ++ more) =
      c.collect of actions ++ (c.applyAll actions).collect of more := by
  induction actions generalizing c with
  | nil => rfl
  | cons a actions ih =>
    rw [List.cons_append, collect, collect, ih, List.append_assoc]
    rfl

theorem collect_concat {α : Type} (c : Connection) (of : Connection → ConnectionAction → List α)
    (actions : List ConnectionAction) (a : ConnectionAction) :
    c.collect of (actions ++ [a]) = c.collect of actions ++ of (c.applyAll actions) a := by
  rw [collect_append, collect, collect, List.append_nil]

/-- **Connections only go forward**, all their life. -/
theorem forward_applyAll (c : Connection) (actions : List ConnectionAction) :
    Forward c (c.applyAll actions) := by
  induction actions generalizing c with
  | nil => exact .refl c
  | cons a actions ih => exact (c.forward_apply a).trans (ih _)

/-- What is closed stays closed. -/
theorem Forward.closed (h : Forward c d) (hc : c.state = .closed) : d.state = .closed := by
  have hrank := h.rank_le
  rw [hc] at hrank
  cases hd : d.state <;> simp [hd, ReadyState.rank] at hrank ⊢

/-! ## What an action does to state and queue -/

/-- The queue is left alone, and the state too, unless the connection opens or closes. -/
structure Calm (c d : Connection) : Prop where
  outbound_eq : d.outbound = c.outbound
  outboundHeld_eq : d.outboundHeld = c.outboundHeld
  driven_cases : d.driven = c.driven ∨ d.state = .closed
  state_cases : d.state = c.state ∨ c.state = .connecting ∧ d.state = .open ∨ d.state = .closed

theorem Calm.refl (c : Connection) : Calm c c := ⟨rfl, rfl, .inl rfl, .inl rfl⟩

theorem calm_modifyMailbox (c : Connection) (n : Nat) (change : Mailbox → Mailbox) :
    Calm c (c.modifyMailbox n change) := by
  obtain ⟨mailboxes, h, -⟩ := c.modifyMailbox_eq n change
  rw [h]
  exact ⟨rfl, rfl, .inl rfl, .inl rfl⟩

/-- A text is taken if and only if the connection is open and its transport still takes
from the queue. -/
theorem exists_sendText_iff (c : Connection) (text : String) :
    (∃ d, c.sendText text = .ok d) ↔ c.state = .open ∧ c.outboundHeld = true := by
  unfold sendText
  cases hs : c.state <;> cases hh : c.outboundHeld <;> simp [ReadyState.isOpen]

/-- Whether an action may add to the queue, take from it or let it go. -/
def meetsQueue : ConnectionAction → Bool
  | .send _ | .close | .takeOutbound | .dropOutbound => true
  | _ => false

/-- **What an action does to state and queue.** -/
inductive ActsOn (c : Connection) : ConnectionAction → Connection → Prop
  /-- An open connection takes a text. -/
  | take (text : String) (hs : c.state = .open) (hh : c.outboundHeld = true) :
      ActsOn c (.send text) { c with outbound := c.outbound ++ [.text text] }
  /-- A text is refused. -/
  | refuse (text : String) (h : ¬(c.state = .open ∧ c.outboundHeld = true)) : ActsOn c (.send text) c
  /-- The connection asks its transport to close. -/
  | ask (hs : c.state.isTerminal = false) (hh : c.outboundHeld = true) :
      ActsOn c .close { c with state := .closing, outbound := c.outbound ++ [.close] }
  /-- Nobody takes the request to close any more. -/
  | end (hs : c.state.isTerminal = false) (hh : c.outboundHeld = false) :
      ActsOn c .close { c with state := .closed }
  /-- The connection is on its way out already. -/
  | wait (hs : c.state.isTerminal = true) : ActsOn c .close c
  /-- The transport takes the oldest entry. -/
  | read (x : Outbound) (rest : List Outbound) (h : c.outbound = x :: rest) :
      ActsOn c .takeOutbound { c with outbound := rest }
  /-- There is nothing to take. -/
  | idle (h : c.outbound = []) : ActsOn c .takeOutbound c
  /-- The transport stops taking from the queue. -/
  | leave : ActsOn c .dropOutbound c.dropOutbound
  /-- Anything else. -/
  | calm (a : ConnectionAction) (d : Connection) (h : Calm c d) (ha : meetsQueue a = false) :
      ActsOn c a d

theorem actsOn_apply (c : Connection) (a : ConnectionAction) : ActsOn c a (c.apply a).1 := by
  cases a with
  | send text =>
    by_cases h : c.state = .open ∧ c.outboundHeld = true
    · obtain ⟨d, hd⟩ := (exists_sendText_iff c text).2 h
      obtain ⟨-, rfl⟩ := sendText_eq_ok hd
      simp only [apply, hd]
      exact .take text h.1 h.2
    · have hno : ∀ d, c.sendText text ≠ .ok d := fun d hd => h ((exists_sendText_iff c text).1 ⟨d, hd⟩)
      cases hd : c.sendText text with
      | ok d => exact absurd hd (hno d)
      | error e =>
        simp only [apply, hd]
        exact .refuse text h
  | close =>
    simp only [apply, close]
    split
    · rename_i hs
      exact .wait hs
    · rename_i hs
      split
      · rename_i hh
        exact .ask (Bool.eq_false_iff.2 hs) hh
      · rename_i hh
        exact .end (Bool.eq_false_iff.2 hs) (Bool.eq_false_iff.2 hh)
  | takeOutbound =>
    simp only [apply, takeOutbound]
    split
    · rename_i h
      exact .idle h
    · rename_i x rest h
      exact .read x rest h
  | dropOutbound => exact .leave
  | markOpen =>
    refine .calm _ _ ?_ rfl
    simp only [apply, markOpen]
    split
    · rename_i hs
      exact ⟨rfl, rfl, .inl rfl, .inr (.inl ⟨hs, rfl⟩)⟩
    · exact .refl c
  | markClosed fault => exact .calm _ _ ⟨rfl, rfl, .inr rfl, .inr (.inr rfl)⟩ rfl
  | dropDriver =>
    refine .calm _ _ ?_ rfl
    simp only [apply, dropDriver]
    split
    · exact ⟨rfl, rfl, .inr rfl, .inr (.inr rfl)⟩
    · exact .refl c
  | dispatch | addListener => exact .calm _ _ ⟨rfl, rfl, .inl rfl, .inl rfl⟩ rfl
  | text => exact .calm _ _ (.refl c) rfl
  | removeListener n =>
    refine .calm _ _ ?_ rfl
    simp only [apply, removeListener]
    split
    · exact c.calm_modifyMailbox n _
    · exact .refl c
  | dropListener n => exact .calm _ _ (c.calm_modifyMailbox n _) rfl
  | receive n =>
    refine .calm _ _ ?_ rfl
    simp only [apply, receive]
    split
    · exact .refl c
    · exact c.calm_modifyMailbox n _

/-- The transport goes on taking from the queue until it stops. -/
theorem outboundHeld_apply (c : Connection) (a : ConnectionAction) :
    (c.apply a).1.outboundHeld = true ↔ c.outboundHeld = true ∧ a ≠ .dropOutbound := by
  have hacts := c.actsOn_apply a
  generalize (c.apply a).1 = d at hacts ⊢
  cases hacts with
  | leave => simp [dropOutbound]
  | calm _ _ h ha =>
    have hdrop : a ≠ .dropOutbound := by
      rintro rfl
      cases ha
    simp [h.outboundHeld_eq, hdrop]
  | take | refuse | ask | «end» | wait | read | idle => simp

/-- A connection that has lost its transport is closed. -/
def Attended (c : Connection) : Prop := c.driven = false → c.state = .closed

theorem Attended.apply (h : c.Attended) (a : ConnectionAction) : (c.apply a).1.Attended := by
  have hclosed := (c.forward_apply a).closed
  have hacts := c.actsOn_apply a
  generalize (c.apply a).1 = d at hacts hclosed ⊢
  intro hd
  cases hacts with
  | calm _ _ hcalm =>
    rcases hcalm.driven_cases with heq | hstate
    · exact hclosed (h (heq ▸ hd))
    · exact hstate
  | take | refuse | ask | «end» | wait | read | idle | leave => exact hclosed (h hd)

/-! ## What goes through the queue -/

/-- What an action adds to the queue. -/
def queues (c : Connection) (a : ConnectionAction) : List Outbound :=
  (c.apply a).1.outbound.drop c.outbound.length

/-- The text that an action has the connection take, if it takes one. -/
def accepts (c : Connection) : ConnectionAction → List String
  | .send text => if (c.sendText text).isOk then [text] else []
  | _ => []

/-- What the transport takes from the queue. -/
def takes (c : Connection) : ConnectionAction → List Outbound
  | .takeOutbound => c.takeOutbound.1.toList
  | _ => []

theorem accepts_send (c : Connection) (text : String) :
    c.accepts (.send text) = if c.state = .open ∧ c.outboundHeld = true then [text] else [] := by
  have htakes := exists_sendText_iff c text
  cases hd : c.sendText text with
  | ok d =>
    rw [if_pos (htakes.1 ⟨d, hd⟩), accepts, hd]
    rfl
  | error e =>
    have hno : ¬(c.state = .open ∧ c.outboundHeld = true) := fun h => by
      obtain ⟨d, hok⟩ := htakes.2 h
      cases hd.symm.trans hok
    rw [if_neg hno, accepts, hd]
    rfl

/-- What has gone through the queue of a connection: what was queued, the texts it has
taken, and what its transport has read. -/
structure Ledger (c : Connection) (queued : List Outbound) (accepted : List String)
    (taken : List Outbound) : Prop where
  /-- The texts come first; one request to close may follow, on the way out. -/
  queued_eq : queued = accepted.map .text ∨
    queued = accepted.map .text ++ [.close] ∧ c.state.isTerminal = true
  /-- The connection waits for its transport only if it has asked it to close. -/
  closing : c.state = .closing → .close ∈ queued
  /-- What was queued has been read, or it is still there. -/
  taken_append : c.outboundHeld = true → taken ++ c.outbound = queued

theorem ledger_fresh (g : Nat) : Ledger (fresh g) [] [] [] :=
  ⟨.inl rfl, nofun, fun _ => rfl⟩

variable {queued taken : List Outbound} {accepted : List String}

/-- Nothing goes through the queue, and the connection does not begin to wait. -/
theorem Ledger.keep (h : Ledger c queued accepted taken) (ho : d.outbound = c.outbound)
    (hh : d.outboundHeld = c.outboundHeld)
    (ht : c.state.isTerminal = true → d.state.isTerminal = true)
    (hc : d.state = .closing → c.state = .closing) : Ledger d queued accepted taken where
  queued_eq := h.queued_eq.imp_right fun hclose => ⟨hclose.1, ht hclose.2⟩
  closing hd := h.closing (hc hd)
  taken_append hd := by rw [ho, h.taken_append (hh ▸ hd)]

theorem Calm.ledger (hcalm : Calm c d) (h : Ledger c queued accepted taken) :
    Ledger d queued accepted taken := by
  refine h.keep hcalm.outbound_eq hcalm.outboundHeld_eq (fun ht => ?_) fun hd => ?_
  · rcases hcalm.state_cases with heq | ⟨hs, -⟩ | hclosed
    · rw [heq, ht]
    · rw [hs] at ht
      cases ht
    · rw [hclosed]
      rfl
  · rcases hcalm.state_cases with heq | ⟨-, hopen⟩ | hclosed
    · exact heq ▸ hd
    · cases hd.symm.trans hopen
    · cases hd.symm.trans hclosed

/-- **An action enters the ledger.** -/
theorem Ledger.apply (h : Ledger c queued accepted taken) (a : ConnectionAction) :
    Ledger (c.apply a).1 (queued ++ c.queues a) (accepted ++ c.accepts a)
      (taken ++ c.takes a) := by
  have hacts := c.actsOn_apply a
  unfold queues
  generalize (c.apply a).1 = d at hacts ⊢
  cases hacts with
  | take text hs hh =>
    -- an open connection has not asked to close, so the text comes after texts only
    have htexts : queued = accepted.map .text := by
      refine h.queued_eq.resolve_right fun hclose => ?_
      rw [hs] at hclose
      cases hclose.2
    simp only [accepts_send, hs, hh, takes, List.drop_left, and_self, if_true, List.append_nil]
    refine ⟨.inl (by simp [htexts]), fun hd => ?_, fun _ => ?_⟩
    · cases hd
    · rw [← h.taken_append hh, List.append_assoc]
  | refuse text hno =>
    simp only [accepts_send, if_neg hno, takes, List.drop_length, List.append_nil]
    exact h
  | ask hs hh =>
    have htexts : queued = accepted.map .text := by
      refine h.queued_eq.resolve_right fun hclose => ?_
      rw [hs] at hclose
      cases hclose.2
    simp only [accepts, takes, List.drop_left, List.append_nil]
    refine ⟨.inr ⟨by rw [htexts], rfl⟩, fun _ => by simp, fun _ => ?_⟩
    rw [← h.taken_append hh, List.append_assoc]
  | «end» hs hh =>
    simp only [accepts, takes, List.drop_length, List.append_nil]
    exact h.keep rfl rfl (fun _ => rfl) fun hclosing => by cases hclosing
  | wait =>
    simp only [accepts, takes, List.drop_length, List.append_nil]
    exact h
  | read x rest hq =>
    have hdrop : rest.drop (x :: rest).length = [] := List.drop_eq_nil_of_le (Nat.le_succ _)
    simp only [accepts, takes, takeOutbound, hq, hdrop, Option.toList_some, List.append_nil]
    refine ⟨h.queued_eq, h.closing, fun hh => ?_⟩
    rw [← h.taken_append hh, hq, List.append_assoc, List.singleton_append]
  | idle hq =>
    simp only [accepts, takes, takeOutbound, hq, Option.toList_none, List.drop_nil,
      List.append_nil]
    exact h
  | leave =>
    simp only [accepts, takes, dropOutbound, List.drop_nil, List.append_nil]
    exact ⟨h.queued_eq, h.closing, fun hheld => by cases hheld⟩
  | calm _ _ hcalm ha =>
    have haccepts : c.accepts a = [] := by
      cases a <;> first | rfl | cases ha
    have htakes : c.takes a = [] := by
      cases a <;> first | rfl | cases ha
    simp only [haccepts, htakes, hcalm.outbound_eq, List.drop_length, List.append_nil]
    exact hcalm.ledger h

/-- **The ledger of a life.** -/
theorem ledger_applyAll (g : Nat) (actions : List ConnectionAction) :
    Ledger ((fresh g).applyAll actions) ((fresh g).collect queues actions)
      ((fresh g).collect accepts actions) ((fresh g).collect takes actions) := by
  induction actions using List.reverseRecOn with
  | nil => exact ledger_fresh g
  | append_singleton actions a ih =>
    rw [applyAll_concat, collect_concat, collect_concat, collect_concat]
    exact ih.apply a

theorem outboundHeld_applyAll (g : Nat) (actions : List ConnectionAction) :
    ((fresh g).applyAll actions).outboundHeld = true ↔ .dropOutbound ∉ actions := by
  induction actions using List.reverseRecOn with
  | nil => exact ⟨fun _ => List.not_mem_nil, fun _ => rfl⟩
  | append_singleton actions a ih =>
    rw [applyAll_concat, outboundHeld_apply, ih]
    simp [ne_comm]

/-- A connection that its transport has left is closed for good. -/
theorem closed_of_dropDriver (g : Nat) (h : .dropDriver ∈ actions) :
    ((fresh g).applyAll actions).state = .closed := by
  obtain ⟨before, after, rfl⟩ := List.append_of_mem h
  have hattended : ((fresh g).applyAll before).Attended := by
    clear h
    induction before using List.reverseRecOn with
    | nil => exact nofun
    | append_singleton before a ih =>
      rw [applyAll_concat]
      exact ih.apply a
  rw [applyAll_append]
  refine (forward_applyAll _ after).closed ?_
  simp only [Connection.apply, dropDriver]
  split
  · rfl
  · rename_i hdriven
    exact hattended (Bool.eq_false_iff.2 hdriven)

/-- **The life of a connection.** Whatever happens to it, its state does not go back, and it
is closed once its transport has gone. It takes a text if and only if it is open and its
transport still takes from the queue, and a text it refuses changes nothing. The queue gets
the texts that are taken, in order, and then one request to close at most, and the
transport reads them in that order. A request to close that comes after the transport has
stopped reading closes the connection at once, unless it waits already for an earlier
request to be read: then it goes on waiting. -/
theorem lifecycle (g : Nat) (actions : List ConnectionAction) :
    let c := (fresh g).applyAll actions
    let queued := (fresh g).collect queues actions
    let texts := ((fresh g).collect accepts actions).map Outbound.text
    (∀ more, c.state.rank ≤ ((fresh g).applyAll (actions ++ more)).state.rank) ∧
    (.dropDriver ∈ actions → c.state = .closed) ∧
    (∀ text, ((∃ d, c.sendText text = .ok d) ↔ c.state = .open ∧ .dropOutbound ∉ actions) ∧
      ∀ error, c.sendText text = .error error → (c.apply (.send text)).1 = c) ∧
    (queued = texts ∨ queued = texts ++ [.close]) ∧
    (.dropOutbound ∉ actions → (fresh g).collect takes actions ++ c.outbound = queued) ∧
    (.dropOutbound ∈ actions →
      c.close.state = if c.state = .closing then .closing else .closed) ∧
    (c.state = .closing → .close ∈ queued) := by
  intro c queued texts
  have hledger := ledger_applyAll g actions
  have hheld := outboundHeld_applyAll g actions
  refine ⟨fun more => ?_, closed_of_dropDriver g, fun text => ⟨?_, fun error he => ?_⟩, ?_,
    fun hdrop => hledger.taken_append (hheld.2 hdrop), fun hdrop => ?_, hledger.closing⟩
  · rw [applyAll_append]
    exact (forward_applyAll c more).rank_le
  · rw [exists_sendText_iff, hheld]
  · simp only [Connection.apply, he]
    rfl
  · exact hledger.queued_eq.imp_right And.left
  · have hleft : c.outboundHeld = false := by
      rw [← Bool.not_eq_true, hheld]
      exact not_not_intro hdrop
    simp only [close, hleft]
    cases hs : c.state <;> simp [hs, ReadyState.isTerminal]

/-- A connection is asked to close, its transport stops reading, and it is asked again: it
goes on waiting to be closed. -/
theorem closing_after_close :
    ((fresh 1).applyAll [.close, .dropOutbound, .close]).state = .closing := by
  decide

end Connection

end PushFeed
