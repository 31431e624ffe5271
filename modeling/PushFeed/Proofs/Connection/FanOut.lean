import Mathlib.Data.List.TakeWhile
import PushFeed.Proofs.Connection.Lifecycle
import PushFeed.Proofs.Connection.Lists
/-!
# What the listeners of a connection get

A frame goes to all listeners that are on the list when it comes in. A listener has its
number from its place among all listeners there ever were, so what it is due can be read
off the connection's life: the frames that come in after it was added, until it is taken
off the list or lets its mailbox go. What it has received and what waits in its mailbox
make up exactly these frames, in order (`Delivery`), whatever the other listeners do
(`Connection.fan_out`).
-/

namespace PushFeed

/-! ## What an action means to one listener -/

namespace ConnectionAction

/-- The frame that comes in, if one does. -/
def frame? : ConnectionAction → Option Wire.Bytes
  | .dispatch frame => some frame
  | _ => none

instance (listener : Nat) (a : ConnectionAction) : Decidable (a.Touches listener) :=
  match a with
  | .removeListener n | .dropListener n => inferInstanceAs (Decidable (n = listener))
  | .markOpen | .markClosed _ | .dropDriver | .dropOutbound | .takeOutbound | .dispatch _
  | .text _ | .close | .send _ | .addListener | .receive _ => inferInstanceAs (Decidable False)

end ConnectionAction

open ConnectionAction

/-- What comes after a listener was added; the first listener has the number one. -/
def since : Nat → List ConnectionAction → List ConnectionAction
  | 0, actions => actions
  | _ + 1, [] => []
  | n + 1, a :: rest => if a = .addListener then since n rest else since (n + 1) rest

/-- The frames due to a listener in its time: those that come in until it is taken off
the list or lets its mailbox go. -/
def due (n : Nat) (time : List ConnectionAction) : List Wire.Bytes :=
  (time.takeWhile fun a => !decide (a.Touches n)).filterMap frame?

section

variable {n : Nat} {a : ConnectionAction} {actions time : List ConnectionAction}

theorem since_concat (h : n ≤ actions.count .addListener) :
    since n (actions ++ [a]) = since n actions ++ [a] := by
  induction actions generalizing n with
  | nil =>
    cases Nat.le_zero.1 h
    rfl
  | cons first rest ih =>
    cases n with
    | zero => rfl
    | succ n =>
      rw [List.cons_append, since, since]
      split
      · rename_i hadd
        refine ih ?_
        rw [hadd, List.count_cons_self] at h
        exact Nat.le_of_succ_le_succ h
      · rename_i hadd
        refine ih ?_
        rwa [List.count_cons_of_ne hadd] at h

theorem count_add_of_ne (h : a ≠ .addListener) : [a].count ConnectionAction.addListener = 0 :=
  List.count_eq_zero.2 (by simpa [eq_comm] using h)

/-- A listener's time begins when it is added. -/
theorem since_concat_add (actions : List ConnectionAction) :
    since (actions.count .addListener + 1) (actions ++ [.addListener]) = [] := by
  induction actions with
  | nil => rfl
  | cons first rest ih =>
    rw [List.cons_append, since]
    by_cases hadd : first = .addListener
    · rw [if_pos hadd, hadd, List.count_cons_self, ih]
    · rw [if_neg hadd, List.count_cons_of_ne hadd, ih]

/-- A listener that nobody has touched is due what comes in. -/
theorem due_concat (h : ∀ b ∈ time, ¬b.Touches n) (ha : ¬a.Touches n) :
    due n (time ++ [a]) = due n time ++ a.frame?.toList := by
  have hall : ∀ b ∈ time ++ [a], (!decide (b.Touches n)) = true := by
    intro b hb
    rw [List.mem_append, List.mem_singleton] at hb
    rcases hb with hb | rfl
    · simp [h b hb]
    · simp [ha]
  have htime : ∀ b ∈ time, (!decide (b.Touches n)) = true :=
    fun b hb => hall b (List.mem_append_left _ hb)
  rw [due, due, List.takeWhile_eq_self_iff.2 hall, List.takeWhile_eq_self_iff.2 htime,
    List.filterMap_append]
  cases hf : a.frame? <;> simp [hf]

/-- Nothing is due to a listener any more once somebody has touched it. -/
theorem due_concat_of_touched {b : ConnectionAction} (hb : b ∈ time ++ [a]) (h : b.Touches n) :
    due n (time ++ [a]) = due n time := by
  rw [due, due, List.takeWhile_append]
  split
  · rename_i hlength
    have htime := List.takeWhile_eq_self_iff.1
      ((List.takeWhile_prefix (fun a => !decide (a.Touches n)) (l := time)).eq_of_length hlength)
    have hlast : b = a := by
      rw [List.mem_append, List.mem_singleton] at hb
      refine hb.resolve_left fun hmem => ?_
      simpa [h] using htime b hmem
    rw [List.takeWhile_cons_of_neg (by simp [← hlast, h]), List.append_nil,
      List.takeWhile_eq_self_iff.2 htime]
  · rfl

end

/-! ## One mailbox -/

namespace Mailbox

/-- What a mailbox has to give now. -/
theorem fst_take (m : Mailbox) : m.take.1 = match m.queue with
    | frame :: _ => .ready (some frame)
    | [] => if m.registered then .pending else .ready none := by
  unfold take
  cases m.queue <;> rfl

end Mailbox

/-- The frame that a look has brought, if it has. -/
def Polled.frames : Polled (Option Wire.Bytes) → List Wire.Bytes
  | .ready (some frame) => [frame]
  | _ => []

namespace Connection

variable {c : Connection} {n : Nat}

/-- What a listener gets from an action: the frame that it takes. -/
def gets (n : Nat) (c : Connection) : ConnectionAction → List Wire.Bytes
  | .receive k => if k = n then (c.receive k).1.frames else []
  | _ => []

/-- The number that an action gives out. -/
def given (c : Connection) : ConnectionAction → List Nat
  | .addListener => [c.addListener.1]
  | _ => []

theorem fst_receive (c : Connection) (n : Nat) :
    (c.receive n).1 = ((c.mailbox? n).map fun m => m.take.1).getD (.ready none) := by
  unfold receive
  cases c.mailbox? n <;> rfl

/-- What an action adds to the mailboxes and to the frames that came in. -/
theorem tally_apply (c : Connection) (a : ConnectionAction) :
    (c.apply a).1.mailboxes.length = c.mailboxes.length + [a].count .addListener ∧
      (c.apply a).1.framesReceived = c.framesReceived + a.frame?.toList.length := by
  have hmodify : ∀ k change, (c.modifyMailbox k change).mailboxes.length = c.mailboxes.length ∧
      (c.modifyMailbox k change).framesReceived = c.framesReceived := by
    intro k change
    obtain ⟨mailboxes, heq, hlength⟩ := c.modifyMailbox_eq k change
    rw [heq]
    exact ⟨hlength, rfl⟩
  cases a with
  | addListener => exact ⟨by simp [apply, addListener], rfl⟩
  | dispatch frame => exact ⟨by simp [apply, dispatch], rfl⟩
  | dropListener k => exact hmodify k _
  | removeListener k =>
    simp only [apply, removeListener]
    split
    · exact hmodify k _
    · exact ⟨rfl, rfl⟩
  | receive k =>
    simp only [apply, receive]
    split
    · exact ⟨rfl, rfl⟩
    · exact hmodify k _
  | close =>
    refine ⟨congrArg List.length c.mailboxes_close, ?_⟩
    simp only [apply, close]
    split
    · rfl
    · split <;> rfl
  | markOpen | dropDriver | takeOutbound =>
    simp only [apply, markOpen, dropDriver, takeOutbound]
    split <;> exact ⟨rfl, rfl⟩
  | send text =>
    simp only [apply]
    cases hd : c.sendText text with
    | error e => exact ⟨rfl, rfl⟩
    | ok d =>
      obtain ⟨-, rfl⟩ := sendText_eq_ok hd
      exact ⟨rfl, rfl⟩
  | markClosed | dropOutbound | text => exact ⟨rfl, rfl⟩

/-- A listener that was never added has no mailbox. -/
theorem mailbox?_eq_none (h : c.mailboxes.length < n) : c.mailbox? n = none := by
  cases n with
  | zero => rfl
  | succ n => exact List.getElem?_eq_none (Nat.le_of_lt_succ h)

theorem gets_of_lt (h : c.mailboxes.length < n) (a : ConnectionAction) : c.gets n a = [] := by
  unfold gets
  split
  · split
    · rename_i heq
      rw [heq, fst_receive, mailbox?_eq_none h]
      rfl
    · rfl
  · rfl

end Connection

/-- How a listener fares in its time, with the frames it has received. -/
structure Delivery (n : Nat) (time : List ConnectionAction) (received : List Wire.Bytes)
    (m : Mailbox) : Prop where
  /-- What is due has been received, or it waits. -/
  received_append : received ++ m.queue = due n time
  held_iff : m.held = true ↔ .dropListener n ∉ time
  active_iff : m.IsActive ↔ ∀ a ∈ time, ¬a.Touches n

theorem delivery_start (n : Nat) : Delivery n [] [] {} :=
  ⟨rfl, by simp, by simp [Mailbox.IsActive]⟩

/-- A mailbox that was let go is not taken up again. -/
theorem Mailbox.held_after (n : Nat) (m : Mailbox) (a : ConnectionAction) (h : m.held = false) :
    (m.after n a).held = false := by
  cases a with
  | dispatch frame => simp [after, deliver, h, apply_ite]
  | receive k =>
    simp only [after, take]
    split
    · split <;> exact h
    · exact h
  | removeListener k | dropListener k =>
    simp only [after]
    split <;> first | rfl | exact h
  | markOpen | markClosed | dropDriver | dropOutbound | takeOutbound | text | close | send
    | addListener => exact h

namespace Delivery

variable {n : Nat} {a : ConnectionAction} {time : List ConnectionAction}
  {received : List Wire.Bytes} {m : Mailbox}

/-- Time goes by without a frame for the listener. -/
theorem idle (h : Delivery n time received m) (ha : ¬a.Touches n) (hf : a.frame? = none) :
    Delivery n (time ++ [a]) received m where
  received_append := by
    rw [h.received_append]
    by_cases htouched : ∀ b ∈ time, ¬b.Touches n
    · simp [due_concat htouched ha, hf]
    · push Not at htouched
      obtain ⟨b, hb, ht⟩ := htouched
      rw [due_concat_of_touched (List.mem_append_left _ hb) ht]
  held_iff := by
    have hne : .dropListener n ≠ a := by
      rintro rfl
      exact ha rfl
    simp [h.held_iff, hne]
  active_iff := by simp [h.active_iff, or_imp, forall_and, ha]

/-- The listener takes the frame that has waited longest. -/
theorem take (h : Delivery n time received m) :
    Delivery n (time ++ [.receive n]) (received ++ m.take.1.frames) m.take.2 := by
  have hidle := h.idle (a := .receive n) id rfl
  unfold Mailbox.take
  split
  · rename_i frame rest hq
    refine ⟨?_, hidle.held_iff, hidle.active_iff⟩
    rw [← hidle.received_append, hq]
    simp [Polled.frames]
  · split <;> simpa [Polled.frames] using hidle

/-- A frame comes in. -/
theorem deliver (h : Delivery n time received m) (frame : Wire.Bytes) :
    Delivery n (time ++ [.dispatch frame]) received (m.deliver frame) := by
  have hno : ¬(ConnectionAction.dispatch frame).Touches n := id
  have hheld : ∀ m' : Mailbox, m'.held = m.held →
      (m'.held = true ↔ .dropListener n ∉ time ++ [.dispatch frame]) := by
    intro m' heq
    simp [heq, h.held_iff]
  have hactive : ∀ m' : Mailbox, (m'.IsActive ↔ m.IsActive) →
      (m'.IsActive ↔ ∀ a ∈ time ++ [.dispatch frame], ¬a.Touches n) := by
    intro m' heq
    simp [heq, h.active_iff, or_imp, forall_and, hno]
  by_cases hm : m.IsActive
  · have hdeliver : m.deliver frame = { m with queue := m.queue ++ [frame] } := by
      simp [Mailbox.deliver, hm.1, hm.2]
    rw [hdeliver]
    refine ⟨?_, hheld _ rfl, hactive _ Iff.rfl⟩
    rw [due_concat (h.active_iff.1 hm) hno, ← h.received_append, List.append_assoc]
    rfl
  · -- somebody has touched the listener, so the frame is not for it
    obtain ⟨b, hb, htouched⟩ : ∃ b ∈ time, b.Touches n := by
      simpa using mt h.active_iff.2 hm
    have hdeliver : (m.deliver frame).queue = m.queue ∧ (m.deliver frame).held = m.held ∧
        ¬(m.deliver frame).IsActive := by
      unfold Mailbox.deliver
      split
      · rename_i hon
        split
        · rename_i hheld
          exact absurd ⟨hon, hheld⟩ hm
        · exact ⟨rfl, rfl, fun hactive => nomatch hactive.1⟩
      · exact ⟨rfl, rfl, hm⟩
    obtain ⟨hqueue, hheldEq, hoff⟩ := hdeliver
    refine ⟨?_, hheld _ hheldEq, hactive _ (iff_of_false hoff hm)⟩
    rw [hqueue, h.received_append, due_concat_of_touched (List.mem_append_left _ hb) htouched]

/-- The listener is taken off the list. -/
theorem remove (h : Delivery n time received m) :
    Delivery n (time ++ [.removeListener n]) received { m with registered := false } where
  received_append := by
    rw [due_concat_of_touched (b := .removeListener n) (by simp) rfl]
    exact h.received_append
  held_iff := by simp [h.held_iff]
  active_iff := iff_of_false (fun hactive => nomatch hactive.1)
    fun hno => hno (.removeListener n) (by simp) rfl

/-- The listener lets its mailbox go. -/
theorem drop (h : Delivery n time received m) :
    Delivery n (time ++ [.dropListener n]) received { m with held := false } where
  received_append := by
    rw [due_concat_of_touched (b := .dropListener n) (by simp) rfl]
    exact h.received_append
  held_iff := by simp
  active_iff := iff_of_false (fun hactive => nomatch hactive.2)
    fun hno => hno (.dropListener n) (by simp) rfl

/-- A listener that holds its mailbox is on the list until it is taken off. -/
theorem registered_iff (h : Delivery n time received m) (hdrop : .dropListener n ∉ time) :
    m.registered = true ↔ .removeListener n ∉ time := by
  have htouched : (∀ a ∈ time, ¬a.Touches n) ↔ .removeListener n ∉ time := by
    refine ⟨fun hno hmem => hno _ hmem rfl, fun hremove a ha htouches => ?_⟩
    cases a <;> first | exact htouches.elim | skip
    · exact hremove (htouches ▸ ha)
    · exact hdrop (htouches ▸ ha)
  rw [← htouched, ← h.active_iff]
  exact ⟨fun hreg => ⟨hreg, h.held_iff.2 hdrop⟩, And.left⟩

end Delivery

/-- **An action in a listener's time.** -/
theorem Delivery.apply {n : Nat} {time : List ConnectionAction} {received : List Wire.Bytes}
    {m : Mailbox} {c : Connection} (h : Delivery n time received m) (hm : c.mailbox? n = some m)
    (a : ConnectionAction) :
    Delivery n (time ++ [a]) (received ++ c.gets n a) (m.after n a) := by
  cases a with
  | dispatch frame =>
    simp only [Connection.gets, List.append_nil]
    exact h.deliver frame
  | removeListener k =>
    simp only [Connection.gets, List.append_nil, Mailbox.after]
    split
    · rename_i heq
      exact heq ▸ h.remove
    · rename_i hne
      exact h.idle hne rfl
  | dropListener k =>
    simp only [Connection.gets, List.append_nil, Mailbox.after]
    split
    · rename_i heq
      exact heq ▸ h.drop
    · rename_i hne
      exact h.idle hne rfl
  | receive k =>
    rw [Connection.gets, Mailbox.after]
    split
    · rename_i heq
      rw [heq, Connection.fst_receive, hm]
      exact h.take
    · rw [List.append_nil]
      exact h.idle id rfl
  | markOpen | markClosed | dropDriver | dropOutbound | takeOutbound | text | close | send
    | addListener =>
    simp only [Connection.gets, List.append_nil]
    exact h.idle id rfl

namespace Connection

variable {n : Nat} {actions more : List ConnectionAction}

/-! ## All listeners -/

/-- The mailboxes are those of all listeners that were added, and all frames are counted. -/
theorem tally_applyAll (g : Nat) (actions : List ConnectionAction) :
    ((fresh g).applyAll actions).mailboxes.length = actions.count .addListener ∧
      ((fresh g).applyAll actions).framesReceived = (actions.filterMap frame?).length := by
  induction actions using List.reverseRecOn with
  | nil => exact ⟨rfl, rfl⟩
  | append_singleton actions a ih =>
    obtain ⟨hlength, hframes⟩ := ((fresh g).applyAll actions).tally_apply a
    rw [applyAll_concat, hlength, hframes, ih.1, ih.2, List.count_append, List.filterMap_append,
      List.length_append]
    refine ⟨rfl, ?_⟩
    cases hf : a.frame? <;> simp [hf]

/-- Listeners are numbered one after the other. -/
theorem given_eq_range' (g : Nat) (actions : List ConnectionAction) :
    (fresh g).collect given actions = List.range' 1 (actions.count .addListener) := by
  induction actions using List.reverseRecOn with
  | nil => rfl
  | append_singleton actions a ih =>
    rw [collect_concat, ih, List.count_append]
    by_cases hadd : a = .addListener
    · subst hadd
      rw [given, addListener, (tally_applyAll g actions).1, List.count_singleton_self,
        List.range'_concat, Nat.one_mul, Nat.add_comm 1]
    · have hgiven : ((fresh g).applyAll actions).given a = [] := by
        cases a <;> first | rfl | exact absurd rfl hadd
      rw [hgiven, List.append_nil, count_add_of_ne hadd, Nat.add_zero]

theorem gets_eq_nil (g : Nat) (h : actions.count .addListener < n) :
    (fresh g).collect (gets n) actions = [] := by
  induction actions using List.reverseRecOn with
  | nil => rfl
  | append_singleton actions a ih =>
    rw [List.count_append] at h
    have hlt : actions.count .addListener < n := by omega
    rw [collect_concat, ih hlt, List.nil_append]
    exact gets_of_lt (by rwa [(tally_applyAll g actions).1]) a

/-- **What a listener is due, it gets.** -/
theorem delivery_applyAll (g : Nat) (hpos : 0 < n) (hn : n ≤ actions.count .addListener) :
    ∃ m, ((fresh g).applyAll actions).mailbox? n = some m ∧
      Delivery n (since n actions) ((fresh g).collect (gets n) actions) m := by
  induction actions using List.reverseRecOn with
  | nil => exact absurd hpos (Nat.not_lt.2 hn)
  | append_singleton actions a ih =>
    rw [applyAll_concat, collect_concat]
    by_cases hold : n ≤ actions.count .addListener
    · obtain ⟨m, hm, hdelivery⟩ := ih hold
      rw [since_concat hold]
      exact ⟨_, mailbox?_apply a hm, hdelivery.apply hm a⟩
    · -- the listener is added by this very action
      rw [List.count_append] at hn
      have hadd : a = .addListener := by
        by_contra hne
        rw [count_add_of_ne hne] at hn
        exact hold hn
      subst hadd
      have hlength := (tally_applyAll g actions).1
      rw [List.count_singleton_self] at hn
      obtain rfl : n = actions.count .addListener + 1 := by omega
      rw [since_concat_add, gets_eq_nil g (Nat.lt_succ_self _), gets_of_lt (by omega)]
      refine ⟨{}, ?_, delivery_start _⟩
      simp [Connection.apply, addListener, mailbox?, hlength]

/-- Whether a listener is on the list. -/
def listed (c : Connection) (n : Nat) : Bool := (c.mailbox? n).any (·.registered)

theorem fst_removeListener (c : Connection) (n : Nat) : (c.removeListener n).1 = c.listed n := by
  unfold removeListener listed
  split
  · rename_i h
    exact h.symm
  · rename_i h
    exact (Bool.eq_false_iff.2 h).symm

/-- Off the list, a listener stays off. -/
theorem off_applyAll {c : Connection} {m : Mailbox} (hm : c.mailbox? n = some m)
    (hoff : m.registered = false) (more : List ConnectionAction) :
    (c.applyAll more).listed n = false := by
  induction more generalizing c m with
  | nil => simp [applyAll, listed, hm, hoff]
  | cons a more ih =>
    exact ih (mailbox?_apply a hm) ((m.becomes_after n a).off hoff)

/-- **A listener that has let its mailbox go is off the list after the next frame.** -/
theorem off_of_dispatch {c : Connection} {m : Mailbox} (hm : c.mailbox? n = some m)
    (hheld : m.held = false) {frame : Wire.Bytes} (hframe : .dispatch frame ∈ more) :
    (c.applyAll more).listed n = false := by
  induction more generalizing c m with
  | nil => cases hframe
  | cons a more ih =>
    rcases List.mem_cons.1 hframe with rfl | hframe
    · refine off_applyAll (mailbox?_apply _ hm) ?_ more
      cases hreg : m.registered <;> simp [Mailbox.after, Mailbox.deliver, hreg, hheld]
    · exact ih (mailbox?_apply a hm) (m.held_after n a hheld) hframe

/-- **The listeners of a connection.** Whatever happens to a connection, its listeners get
the numbers from one on, no number twice. Each listener receives the frames that come in
after it was added and until it is taken off the list or lets its mailbox go, in order and
each once: what it has received and what it can still take are exactly these. Once it has
taken all of them it has ended if it was taken off the list, and it waits if not. A number
is taken off the list at most once, and no other listener notices. A listener that has let
its mailbox go is off the list after the next frame, and all frames are counted. -/
theorem fan_out (g : Nat) (actions : List ConnectionAction) :
    let c := (fresh g).applyAll actions
    let numbers := (fresh g).collect given actions
    (numbers = List.range' 1 (actions.count .addListener)) ∧
    (∀ n ∈ numbers, ∃ m, c.mailbox? n = some m ∧
      (fresh g).collect (gets n) actions ++ m.queue = due n (since n actions) ∧
      (.dropListener n ∉ since n actions → (c.receive n).1 = match m.queue with
        | frame :: _ => .ready (some frame)
        | [] => if .removeListener n ∈ since n actions then .ready none else .pending)) ∧
    (∀ n more, (c.removeListener n).1 = true →
      ((c.applyAll (.removeListener n :: more)).removeListener n).1 = false) ∧
    (∀ n k, k ≠ n → (c.removeListener n).2.1.mailbox? k = c.mailbox? k) ∧
    (∀ n ∈ numbers, ∀ more frame, .dispatch frame ∈ more →
      (c.applyAll (.dropListener n :: more)).listed n = false) ∧
    c.framesReceived = (actions.filterMap frame?).length := by
  intro c numbers
  have hnumbers : numbers = List.range' 1 (actions.count .addListener) := given_eq_range' g actions
  have hdelivery : ∀ n ∈ numbers, ∃ m, c.mailbox? n = some m ∧
      Delivery n (since n actions) ((fresh g).collect (gets n) actions) m := by
    intro n hn
    rw [hnumbers, List.mem_range'_1] at hn
    exact delivery_applyAll g hn.1 (by omega)
  refine ⟨hnumbers, fun n hn => ?_, fun n more hremoved => ?_, fun n k hne => ?_,
    fun n hn more frame hframe => ?_, (tally_applyAll g actions).2⟩
  · obtain ⟨m, hm, hd⟩ := hdelivery n hn
    refine ⟨m, hm, hd.received_append, fun hheld => ?_⟩
    rw [fst_receive, hm, Option.map_some, Option.getD_some, m.fst_take]
    split
    · rfl
    · have hreg := hd.registered_iff hheld
      by_cases hremove : .removeListener n ∈ since n actions <;> simp [hremove, hreg]
  · rw [fst_removeListener] at hremoved
    obtain ⟨m, hm, hreg⟩ : ∃ m, c.mailbox? n = some m ∧ m.registered = true := by
      simpa [listed, Option.any_eq_true] using hremoved
    rw [fst_removeListener]
    exact off_applyAll (mailbox?_apply (.removeListener n) hm) (by simp [Mailbox.after]) more
  · unfold removeListener
    split
    · rw [mailbox?_modifyMailbox, if_neg hne.symm]
    · rfl
  · obtain ⟨m, hm, -⟩ := hdelivery n hn
    have hdropped := mailbox?_apply (.dropListener n) hm
    exact off_of_dispatch (c := (c.apply (.dropListener n)).1) hdropped (by simp [Mailbox.after]) hframe

end Connection

end PushFeed
