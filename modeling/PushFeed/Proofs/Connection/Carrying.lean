import PushFeed.Connection.Transport
import PushFeed.Proofs.Connection.FanOut
import PushFeed.Proofs.Connection.Queue
/-!
# What a transport carries

A transport and the users of its connection meet in the queue and nowhere else. A step of
either comes to a few actions on the connection (`Transport.Carries`), so that the
connection's ledger says what becomes of the texts: before the server has accepted there
are none, and from then on what is written is what has been read from the queue, in order.
`Transport.carries` puts it together for every course that the network, the queue and the
users may take.
-/

namespace PushFeed

/-- The text of a frame that has been written. -/
def Written.text? : Written → Option String
  | .text s => some s
  | .pong _ => none
  | .close => none

/-- Whether a user asks to close the connection. -/
def TransportEvent.asksToClose : TransportEvent → Bool
  | .use .close _ => true
  | _ => false

/-- What users do brings no frame and takes nothing from the queue. -/
theorem Connection.collect_of_isByUsers {a : ConnectionAction} (c : Connection)
    (ha : a.isByUsers = true) :
    c.takes a = [] ∧ a.frame? = none ∧
      (c.outboundHeld = true → (c.apply a).1.outboundHeld = true) := by
  refine ⟨?_, ?_, fun hheld => (c.outboundHeld_apply a).2 ⟨hheld, ?_⟩⟩
  · cases a <;> first | rfl | cases ha
  · cases a <;> first | rfl | cases ha
  · rintro rfl
    cases ha

/-- What users do to a connection moves its state only if they ask it to close. -/
theorem Connection.state_of_isByUsers {a : ConnectionAction} (c : Connection)
    (ha : a.isByUsers = true) (hne : a ≠ .close) : (c.apply a).1.state = c.state := by
  have hmailbox (n : Nat) (change : Mailbox → Mailbox) :
      (c.modifyMailbox n change).state = c.state := by
    obtain ⟨mailboxes, h, -⟩ := c.modifyMailbox_eq n change
    rw [h]
  cases a with
  | close => exact absurd rfl hne
  | send text =>
    simp only [apply]
    cases hd : c.sendText text with
    | error => rfl
    | ok d =>
      obtain ⟨-, rfl⟩ := sendText_eq_ok hd
      rfl
  | addListener => rfl
  | removeListener n =>
    simp only [apply, removeListener]
    split
    · exact hmailbox n _
    · rfl
  | dropListener n => exact hmailbox n _
  | receive n =>
    simp only [apply, receive]
    split
    · rfl
    · exact hmailbox n _
  | markOpen | markClosed | dropDriver | dropOutbound | takeOutbound | dispatch | text => cases ha

theorem Connection.accepts_of_ne {a : ConnectionAction} {c : Connection} (h : c.state ≠ .open) :
    c.accepts a = [] := by
  cases a with
  | send text => rw [accepts_send, if_neg fun hopen => h hopen.1]
  | markOpen | markClosed | dropDriver | dropOutbound | takeOutbound | dispatch | text | close
  | addListener | removeListener | dropListener | receive => rfl

@[simp] theorem Connection.state_takeOutbound (c : Connection) :
    c.takeOutbound.2.state = c.state := by
  unfold takeOutbound
  split
  · rfl
  · rfl

namespace Transport

open Connection (fresh)

variable {t t' : Transport} {c : Connection} {e : TransportEvent} {g : Nat}
  {events : List TransportEvent} {actions : List ConnectionAction}

/-! ## Courses -/

/-- The texts that have been written, in order. -/
def texts (t : Transport) : List String := t.written.filterMap Written.text?

theorem run_cons (t : Transport) (c : Connection) (e : TransportEvent)
    (events : List TransportEvent) :
    t.run c (e :: events) = (t.step c e).1.run (t.step c e).2.1 events := rfl

theorem run_append (t : Transport) (c : Connection) (events more : List TransportEvent) :
    t.run c (events ++ more) = (t.run c events).1.run (t.run c events).2 more :=
  List.foldl_append ..

theorem run_concat (t : Transport) (c : Connection) (events : List TransportEvent)
    (e : TransportEvent) :
    t.run c (events ++ [e]) =
      (((t.run c events).1.step (t.run c events).2 e).1,
        ((t.run c events).1.step (t.run c events).2 e).2.1) :=
  run_append t c events [e]

/-- What the steps of a course leave behind, put together in their order. -/
def collect {α : Type} (t : Transport) (c : Connection)
    (of : Transport → Connection → TransportEvent → List α) : List TransportEvent → List α
  | [] => []
  | e :: rest => of t c e ++ (t.step c e).1.collect (t.step c e).2.1 of rest

theorem collect_append {α : Type} (t : Transport) (c : Connection)
    (of : Transport → Connection → TransportEvent → List α) (events more : List TransportEvent) :
    t.collect c of (events ++ more) =
      t.collect c of events ++ (t.run c events).1.collect (t.run c events).2 of more := by
  induction events generalizing t c with
  | nil => rfl
  | cons first rest ih =>
    rw [List.cons_append, collect, collect, ih, List.append_assoc]
    rfl

theorem collect_concat {α : Type} (t : Transport) (c : Connection)
    (of : Transport → Connection → TransportEvent → List α) (events : List TransportEvent)
    (e : TransportEvent) :
    t.collect c of (events ++ [e]) =
      t.collect c of events ++ of (t.run c events).1 (t.run c events).2 e := by
  rw [collect_append, collect, collect, List.append_nil]

/-- The text that the connection takes in a step, if it takes one. -/
def accepts (_ : Transport) (c : Connection) : TransportEvent → List String
  | .use a _ => c.accepts a
  | _ => []

/-- The binary message that the transport reads in a step, if it reads one. -/
def reads (t : Transport) (_ : Connection) (e : TransportEvent) : List Wire.Bytes :=
  match e with
  | .arrive (.binary frame) _ => if t.stage = .streaming then [frame] else []
  | _ => []

/-- The step itself, if it opens the connection. -/
def opens (t : Transport) (c : Connection) (e : TransportEvent) : List TransportEvent :=
  if c.state ≠ .open ∧ (t.step c e).2.1.state = .open then [e] else []

/-! ## Steps -/

/-- How a transport leaves its connection. -/
def partings (fault : Option String) : List ConnectionAction :=
  [.markClosed fault, .dropOutbound, .dropDriver]

/-- **What a transport may do in a step**, and what that comes to for its connection. -/
inductive Carries (t : Transport) (c : Connection) :
    TransportEvent → Transport → List ConnectionAction → Prop
  /-- Users and listeners do something. -/
  | use (a : ConnectionAction) (ha : a.isByUsers = true) : Carries t c (.use a ha) t [a]
  /-- Nothing comes of what the network brings, or of looking into the queue. -/
  | pass (e : TransportEvent) (he : ∀ a ha, e ≠ .use a ha) (hr : t.reads c e = []) :
      Carries t c e t []
  /-- The server accepts. -/
  | accept (fault : Option String) (hs : t.stage = .dialing) :
      Carries t c (.arrive .accepted fault) { t with stage := .streaming } [.markOpen]
  /-- A binary message comes in. -/
  | hand (frame : Wire.Bytes) (fault : Option String) (hs : t.stage = .streaming) :
      Carries t c (.arrive (.binary frame) fault) t [.dispatch frame]
  /-- A ping is answered. -/
  | pong (payload : Wire.Bytes) (hs : t.stage = .streaming) :
      Carries t c (.arrive (.ping payload) none)
        { t with written := t.written ++ [.pong payload] } []
  /-- A text is lost, for the server has not accepted yet. -/
  | lose (text : String) (rest : List Outbound) (fault : Option String)
      (hs : t.stage = .dialing) (hq : c.outbound = .text text :: rest) :
      Carries t c (.takeCommand fault) t [.takeOutbound]
  /-- A text is written. -/
  | write (text : String) (rest : List Outbound) (hs : t.stage = .streaming)
      (hq : c.outbound = .text text :: rest) :
      Carries t c (.takeCommand none) { t with written := t.written ++ [.text text] }
        [.takeOutbound]
  /-- The request to close is obeyed; a server that has accepted is told so. -/
  | obey (rest : List Outbound) (fault : Option String) (written : List Written)
      (hs : t.stage ≠ .finished) (hq : c.outbound = .close :: rest)
      (hw : written = t.written ∨ t.stage = .streaming ∧ written = t.written ++ [.close]) :
      Carries t c (.takeCommand fault) { stage := .finished, written }
        (.takeOutbound :: partings none)
  /-- It comes to its end over a text that cannot be written. -/
  | choke (text : String) (rest : List Outbound) (reason : String) (hs : t.stage = .streaming)
      (hq : c.outbound = .text text :: rest) :
      Carries t c (.takeCommand (some reason)) { t with stage := .finished }
        (.takeOutbound :: partings (some reason))
  /-- It comes to its end by what the network brings. -/
  | part (a : Arrival) (writeFault fault : Option String) (hs : t.stage ≠ .finished)
      (hr : t.reads c (.arrive a writeFault) = []) :
      Carries t c (.arrive a writeFault) { t with stage := .finished } (partings fault)

theorem exists_carries_dial (hs : t.stage = .dialing) (a : Arrival) (fault : Option String) :
    ∃ actions, Carries t c (.arrive a fault) (t.dial c a).1 actions ∧
      (t.dial c a).2.1 = c.applyAll actions := by
  have hr : t.reads c (.arrive a fault) = [] := by
    cases a <;> simp [reads, hs]
  cases a with
  | accepted => exact ⟨_, .accept fault hs, rfl⟩
  | refused reason => exact ⟨_, .part _ fault (some reason) (by rw [hs]; nofun) hr, rfl⟩
  | binary | text | ping | pong | closing | failed | ended =>
    exact ⟨_, .pass _ (fun _ _ => nofun) hr, rfl⟩

theorem exists_carries_stream (hs : t.stage = .streaming) (a : Arrival) (fault : Option String) :
    ∃ actions, Carries t c (.arrive a fault) (t.stream c a fault).1 actions ∧
      (t.stream c a fault).2.1 = c.applyAll actions := by
  have hne : t.stage ≠ .finished := by
    rw [hs]
    nofun
  have hr (hb : ∀ frame, a ≠ .binary frame) : t.reads c (.arrive a fault) = [] := by
    cases a <;> simp_all [reads]
  cases a with
  | binary frame => exact ⟨_, .hand frame fault hs, rfl⟩
  | ping payload =>
    cases fault with
    | none => exact ⟨_, .pong payload hs, rfl⟩
    | some reason => exact ⟨_, .part _ _ (some reason) hne (hr fun _ => nofun), rfl⟩
  | failed reason => exact ⟨_, .part _ fault (some reason) hne (hr fun _ => nofun), rfl⟩
  | closing | ended => exact ⟨_, .part _ fault none hne (hr fun _ => nofun), rfl⟩
  | text | accepted | refused | pong =>
    exact ⟨_, .pass _ (fun _ _ => nofun) (hr fun _ => nofun), rfl⟩

theorem exists_carries_takeCommand (hs : t.stage ≠ .finished) (fault : Option String) :
    ∃ actions, Carries t c (.takeCommand fault) (t.takeCommand c fault).1 actions ∧
      (t.takeCommand c fault).2.1 = c.applyAll actions := by
  rw [takeCommand, if_neg hs]
  cases hq : c.outbound with
  | nil =>
    simp only [Connection.takeOutbound, hq]
    exact ⟨[], .pass _ (fun _ _ he => by cases he) rfl, rfl⟩
  | cons command rest =>
    have htaken : { c with outbound := rest } = (c.apply .takeOutbound).1 := by
      simp only [Connection.apply, Connection.takeOutbound, hq]
    simp only [Connection.takeOutbound, hq, obey]
    split
    · rename_i text hdial
      exact ⟨_, .lose text rest fault hdial hq, htaken⟩
    · refine ⟨_, .obey rest fault t.written hs hq (.inl rfl), ?_⟩
      exact congrArg (·.applyAll (partings none)) htaken
    · rename_i text hstream
      cases fault with
      | none => exact ⟨_, .write text rest hstream hq, htaken⟩
      | some reason =>
        refine ⟨_, .choke text rest reason hstream hq, ?_⟩
        exact congrArg (·.applyAll (partings (some reason))) htaken
    · rename_i hstream
      refine ⟨_, .obey rest fault _ hs hq ?_, congrArg (·.applyAll (partings none)) htaken⟩
      cases fault with
      | none => exact .inr ⟨hstream, rfl⟩
      | some reason => exact .inl rfl
    · rename_i hfinished
      exact absurd hfinished hs

/-- **A step is one of these.** -/
theorem exists_carries (t : Transport) (c : Connection) (e : TransportEvent) :
    ∃ actions, Carries t c e (t.step c e).1 actions ∧ (t.step c e).2.1 = c.applyAll actions := by
  cases e with
  | use a ha => exact ⟨_, .use a ha, rfl⟩
  | arrive a fault =>
    simp only [step, arrive]
    split
    · rename_i hs
      exact exists_carries_dial hs a fault
    · rename_i hs
      exact exists_carries_stream hs a fault
    · rename_i hs
      exact ⟨[], .pass _ (fun _ _ => nofun) (by cases a <;> simp [reads, hs]), rfl⟩
  | takeCommand fault =>
    by_cases hs : t.stage = .finished
    · simp only [step, takeCommand, if_pos hs]
      exact ⟨[], .pass _ (fun _ _ => nofun) rfl, rfl⟩
    · exact exists_carries_takeCommand hs fault

theorem state_partings (c : Connection) (fault : Option String) :
    (c.applyAll (partings fault)).state = .closed :=
  state_finish {} c fault

/-- A step opens the connection only if the server accepts while it is waited for. -/
theorem Carries.connecting_of_open (h : Carries t c e t' actions) (hclosed : c.state ≠ .open)
    (hopen : (c.applyAll actions).state = .open) :
    (∃ fault, e = .arrive .accepted fault) ∧ t.stage = .dialing ∧ c.state = .connecting := by
  cases h with
  | use a ha =>
    by_cases hclose : a = .close
    · have hterminal := c.isTerminal_close
      rw [hclose] at hopen
      rw [show c.close.state = .open from hopen] at hterminal
      cases hterminal
    · exact absurd ((c.state_of_isByUsers ha hclose).symm.trans hopen) hclosed
  | accept fault hs =>
    refine ⟨⟨fault, rfl⟩, hs, Decidable.byContradiction fun hne => ?_⟩
    simp only [Connection.applyAll, List.foldl_cons, List.foldl_nil, Connection.apply,
      Connection.markOpen, if_neg hne] at hopen
    exact hclosed hopen
  | pass | hand | pong => exact absurd hopen hclosed
  | lose | write => exact absurd (c.state_takeOutbound.symm.trans hopen) hclosed
  | obey | choke => cases (state_partings (c.apply .takeOutbound).1 _).symm.trans hopen
  | part => cases (state_partings c _).symm.trans hopen

/-! ## The account of a course -/

/-- What a transport has carried: the connection has had a life of its own, in which it took
the texts and was handed the messages, and what the transport took from the queue it has
written, as long as it goes on. -/
def Lives (g : Nat) (t : Transport) (c : Connection) (accepted : List String)
    (read : List Wire.Bytes) : Prop :=
  ∃ actions, c = (fresh g).applyAll actions ∧
    (fresh g).collect Connection.accepts actions = accepted ∧
    actions.filterMap ConnectionAction.frame? = read ∧
    (t.stage ≠ .finished →
      ((fresh g).collect Connection.takes actions).filterMap Outbound.text? = t.texts)

variable {accepted more : List String} {read frames : List Wire.Bytes}
  {opened opened' : List TransportEvent} {asked asked' : Bool}

theorem Lives.step (h : Lives g t c accepted read)
    (hm : c.collect Connection.accepts actions = more)
    (hf : actions.filterMap ConnectionAction.frame? = frames)
    (ht : t'.stage ≠ .finished → t.stage ≠ .finished ∧
      t'.texts = t.texts ++ (c.collect Connection.takes actions).filterMap Outbound.text?) :
    Lives g t' (c.applyAll actions) (accepted ++ more) (read ++ frames) := by
  obtain ⟨before, rfl, haccepted, hread, htaken⟩ := h
  refine ⟨before ++ actions, (Connection.applyAll_append ..).symm, ?_, ?_, fun hs => ?_⟩
  · rw [Connection.collect_append, haccepted, hm]
  · rw [List.filterMap_append, hread, hf]
  · obtain ⟨hs, heq⟩ := ht hs
    rw [Connection.collect_append, List.filterMap_append, htaken hs, heq]

/-- Nothing follows on what comes once and at the end. -/
theorem eq_nil_of_concat_eq {α : Type} {x : α} {xs before after : List α} (hx : x ∉ xs)
    (h : xs ++ [x] = before ++ x :: after) : after = [] := by
  rcases List.eq_nil_or_concat after with rfl | ⟨init, last, rfl⟩
  · rfl
  · rw [List.concat_eq_append, ← List.cons_append, ← List.append_assoc] at h
    rw [List.append_inj_left' h rfl] at hx
    exact absurd (List.mem_append_right _ List.mem_cons_self) hx

theorem filterMap_text?_map (texts : List String) :
    (texts.map Outbound.text).filterMap Outbound.text? = texts := by
  rw [List.filterMap_map]
  exact List.filterMap_some

/-- **The texts are written or still queued**, as long as the transport goes on. -/
theorem Lives.balance (h : Lives g t c accepted read) (hs : t.stage ≠ .finished)
    (hh : c.outboundHeld = true) :
    accepted = t.texts ++ c.outbound.filterMap Outbound.text? ∧
      ∀ rest, c.outbound = .close :: rest → t.texts = accepted := by
  obtain ⟨actions, rfl, haccepted, -, htaken⟩ := h
  have hledger := Connection.ledger_applyAll g actions
  rw [haccepted] at hledger
  have hqueue := hledger.taken_append hh
  have htexts :
      ((fresh g).collect Connection.queues actions).filterMap Outbound.text? = accepted := by
    rcases hledger.queued_eq with heq | ⟨heq, -⟩ <;> rw [heq]
    · exact filterMap_text?_map accepted
    · rw [List.filterMap_append, filterMap_text?_map]
      exact List.append_nil accepted
  have hsplit := htexts
  rw [← hqueue, List.filterMap_append, htaken hs] at hsplit
  refine ⟨hsplit.symm, fun rest hrest => ?_⟩
  have htext : Outbound.close ∉ accepted.map Outbound.text := by
    intro hmem
    obtain ⟨text, -, h⟩ := List.mem_map.1 hmem
    cases h
  -- the request to close is the last entry, so all texts have been read before it
  rw [hrest] at hqueue hsplit
  rcases hledger.queued_eq with heq | ⟨heq, -⟩ <;> rw [heq] at hqueue
  · rw [← hqueue] at htext
    exact absurd (List.mem_append_right _ List.mem_cons_self) htext
  · rw [eq_nil_of_concat_eq htext hqueue.symm] at hsplit
    exact (List.append_nil _).symm.trans hsplit

/-- **What a course has come to.** -/
structure Carriage (g : Nat) (t : Transport) (c : Connection) (accepted : List String)
    (read : List Wire.Bytes) (opened : List TransportEvent) (asked : Bool) : Prop where
  lives : Lives g t c accepted read
  /-- While it waits for the server nothing has been taken or written, and the connection is
  as it began or has been asked to close. -/
  dialing : t.stage = .dialing → t.written = [] ∧ accepted = [] ∧ opened = [] ∧
    c.outboundHeld = true ∧ c.state = if asked then .closing else .connecting
  /-- While it carries frames it has not told the server to close. -/
  streaming : t.stage = .streaming → c.outboundHeld = true ∧ .close ∉ t.written
  /-- At its end the connection is closed. -/
  finished : t.stage = .finished → c.state = .closed
  opened_le : opened.length ≤ 1
  texts_prefix : t.texts <+: accepted
  /-- What it tells the server last is to close. -/
  close_last : ∀ before after, t.written = before ++ .close :: after → after = []

theorem carriage_fresh (g : Nat) : Carriage g {} (fresh g) [] [] [] false where
  lives := ⟨[], rfl, rfl, rfl, fun _ => rfl⟩
  dialing _ := ⟨rfl, rfl, rfl, rfl, rfl⟩
  streaming := nofun
  finished := nofun
  opened_le := Nat.zero_le _
  texts_prefix := List.prefix_rfl
  close_last before after h := by simp at h

section Step

variable (h : Carriage g t c accepted read opened asked)

include h

theorem Carriage.outboundHeld (hs : t.stage ≠ .finished) : c.outboundHeld = true := by
  cases hstage : t.stage with
  | dialing => exact (h.dialing hstage).2.2.2.1
  | streaming => exact (h.streaming hstage).1
  | finished => exact absurd hstage hs

theorem Carriage.close_not_mem (hs : t.stage ≠ .finished) : .close ∉ t.written := by
  cases hstage : t.stage with
  | dialing =>
    rw [(h.dialing hstage).1]
    exact List.not_mem_nil
  | streaming => exact (h.streaming hstage).2
  | finished => exact absurd hstage hs

/-- **A step opens the connection if and only if the server accepts while it is waited for
and nobody has asked to close.** -/
theorem Carriage.opens_iff (e : TransportEvent) :
    (c.state ≠ .open ∧ (t.step c e).2.1.state = .open) ↔
      (∃ fault, e = .arrive .accepted fault) ∧ t.stage = .dialing ∧ asked = false := by
  constructor
  · rintro ⟨hclosed, hopen⟩
    obtain ⟨actions, hcarries, hconnection⟩ := exists_carries t c e
    rw [hconnection] at hopen
    obtain ⟨haccept, hs, hstate⟩ := hcarries.connecting_of_open hclosed hopen
    refine ⟨haccept, hs, Bool.eq_false_iff.2 fun hasked => ?_⟩
    rw [(h.dialing hs).2.2.2.2, hasked] at hstate
    cases hstate
  · rintro ⟨⟨fault, rfl⟩, hs, rfl⟩
    have hstate : c.state = .connecting := (h.dialing hs).2.2.2.2
    rw [hstate]
    refine ⟨nofun, ?_⟩
    simp only [step, arrive, hs, dial, Connection.markOpen, hstate, if_true]

theorem Carriage.opened_step (e : TransportEvent) : (opened ++ t.opens c e).length ≤ 1 := by
  rw [opens]
  split
  · rename_i hopens
    obtain ⟨-, hs, -⟩ := (h.opens_iff e).1 hopens
    rw [(h.dialing hs).2.2.1]
    exact Nat.le_refl 1
  · rw [List.append_nil]
    exact h.opened_le

/-- What users do while the transport dials. -/
theorem Carriage.dialing_use {a : ConnectionAction} (ha : a.isByUsers = true)
    (hs : t.stage = .dialing) :
    accepted ++ c.accepts a = [] ∧ (c.apply a).1.state =
      if asked || (TransportEvent.use a ha).asksToClose then .closing else .connecting := by
  obtain ⟨-, haccepted, -, hheld, hstate⟩ := h.dialing hs
  constructor
  · rw [haccepted, Connection.accepts_of_ne]
    · rfl
    · rw [hstate]
      cases asked <;> nofun
  · by_cases hclose : a = .close
    · subst hclose
      cases asked <;>
        simp_all [Connection.apply, Connection.close, TransportEvent.asksToClose,
          ReadyState.isTerminal]
    · have hasks : (TransportEvent.use a ha).asksToClose = false := by
        cases a <;> first | rfl | exact absurd rfl hclose
      rw [c.state_of_isByUsers ha hclose, hstate, hasks, Bool.or_false]

/-- The account of a transport that goes on with a server that has accepted. -/
theorem Carriage.carry (hs : t.stage ≠ .finished) (hs' : t'.stage = .streaming)
    (haccepts : c.collect Connection.accepts actions = more)
    (hframes : actions.filterMap ConnectionAction.frame? = frames)
    (htexts : t'.texts = t.texts ++
      (c.collect Connection.takes actions).filterMap Outbound.text?)
    (hheld : (c.applyAll actions).outboundHeld = true) (hclose : .close ∉ t'.written)
    (hbefore : t'.texts <+: accepted) (hopened : opened'.length ≤ 1) :
    Carriage g t' (c.applyAll actions) (accepted ++ more) (read ++ frames) opened' asked' where
  lives := h.lives.step haccepts hframes fun _ => ⟨hs, htexts⟩
  dialing hd := by cases hs'.symm.trans hd
  streaming _ := ⟨hheld, hclose⟩
  finished hd := by cases hs'.symm.trans hd
  opened_le := hopened
  texts_prefix := hbefore.trans (List.prefix_append _ _)
  close_last before after hw := by
    refine absurd ?_ hclose
    rw [hw]
    exact List.mem_append_right _ List.mem_cons_self

/-- The account of a transport that comes to its end. -/
theorem Carriage.finish (hs' : t'.stage = .finished)
    (haccepts : c.collect Connection.accepts actions = more)
    (hframes : actions.filterMap ConnectionAction.frame? = frames)
    (hstate : (c.applyAll actions).state = .closed) (htexts : t'.texts = t.texts)
    (hclose : ∀ before after, t'.written = before ++ .close :: after → after = [])
    (hopened : opened'.length ≤ 1) :
    Carriage g t' (c.applyAll actions) (accepted ++ more) (read ++ frames) opened' asked' where
  lives := h.lives.step haccepts hframes fun hne => absurd hs' hne
  dialing hd := by cases hs'.symm.trans hd
  streaming hd := by cases hs'.symm.trans hd
  finished _ := hstate
  opened_le := hopened
  texts_prefix := htexts ▸ h.texts_prefix.trans (List.prefix_append _ _)
  close_last := hclose

/-- The account of a transport whose users do something. -/
theorem Carriage.use {a : ConnectionAction} (ha : a.isByUsers = true)
    (hopened : (opened ++ opened').length ≤ 1) (hnone : t.stage = .dialing → opened' = []) :
    Carriage g t (c.applyAll [a]) (accepted ++ c.accepts a) (read ++ []) (opened ++ opened')
      (asked || (TransportEvent.use a ha).asksToClose) where
  lives := by
    obtain ⟨htakes, hframe, -⟩ := c.collect_of_isByUsers ha
    refine h.lives.step (List.append_nil _) ?_ fun hs => ⟨hs, ?_⟩
    · rw [List.filterMap_cons, hframe]
      rfl
    · rw [Connection.collect, htakes]
      exact (List.append_nil _).symm
  dialing hs := by
    obtain ⟨haccepted, hstate⟩ := h.dialing_use ha hs
    obtain ⟨hwritten, -, hopened, hheld, -⟩ := h.dialing hs
    exact ⟨hwritten, haccepted, by rw [hopened, hnone hs]; rfl,
      (c.collect_of_isByUsers ha).2.2 hheld, hstate⟩
  streaming hs :=
    ⟨(c.collect_of_isByUsers ha).2.2 (h.streaming hs).1, (h.streaming hs).2⟩
  finished hs := (c.forward_apply a).closed (h.finished hs)
  opened_le := hopened
  texts_prefix := h.texts_prefix.trans (List.prefix_append _ _)
  close_last := h.close_last

/-- **The account goes on along a course.** -/
theorem Carriage.step (e : TransportEvent) :
    Carriage g (t.step c e).1 (t.step c e).2.1 (accepted ++ t.accepts c e) (read ++ t.reads c e)
      (opened ++ t.opens c e) (asked || e.asksToClose) := by
  obtain ⟨actions, hcarries, hconnection⟩ := exists_carries t c e
  have hopened := h.opened_step e
  have hquiet : (∀ fault, e ≠ .arrive .accepted fault) → t.opens c e = [] := by
    intro hne
    refine if_neg fun hopen => ?_
    obtain ⟨⟨fault, he⟩, -⟩ := (h.opens_iff e).1 hopen
    exact hne fault he
  have hsame : c.applyAll actions = c → t.opens c e = [] := by
    intro hc
    rw [opens, hconnection, hc]
    exact if_neg fun hopen => hopen.1 hopen.2
  rw [hconnection]
  generalize t.opens c e = new at hopened hquiet hsame
  generalize (t.step c e).1 = t' at hcarries
  cases hcarries with
  | use a ha => exact h.use ha hopened fun _ => hquiet fun _ => nofun
  | pass e he hr =>
    have hnone : t.accepts c e = [] ∧ e.asksToClose = false := by
      cases e with
      | use a ha => exact absurd rfl (he a ha)
      | arrive | takeCommand => exact ⟨rfl, rfl⟩
    rw [hr, hnone.1, hnone.2, hsame rfl, Bool.or_false, List.append_nil, List.append_nil,
      List.append_nil]
    exact h
  | accept fault hs =>
    have hne : t.stage ≠ .finished := hs.trans_ne nofun
    refine h.carry hne rfl rfl rfl (List.append_nil _).symm ?_ (h.close_not_mem hne)
      h.texts_prefix hopened
    exact (c.outboundHeld_apply .markOpen).2 ⟨h.outboundHeld hne, nofun⟩
  | hand frame fault hs =>
    have hne : t.stage ≠ .finished := hs.trans_ne nofun
    exact h.carry hne hs rfl (if_pos hs).symm (List.append_nil _).symm (h.outboundHeld hne)
      (h.close_not_mem hne) h.texts_prefix hopened
  | pong payload hs =>
    have hne : t.stage ≠ .finished := hs.trans_ne nofun
    have htexts : texts { t with written := t.written ++ [.pong payload] } = t.texts := by
      rw [texts, List.filterMap_append]
      exact List.append_nil _
    refine h.carry hne hs rfl rfl (htexts.trans (List.append_nil _).symm) (h.outboundHeld hne) ?_
      (htexts ▸ h.texts_prefix) hopened
    simpa using h.close_not_mem hne
  | lose text rest fault hs hq =>
    -- before the server has accepted there is no text to lose
    have hne : t.stage ≠ .finished := hs.trans_ne nofun
    have hbalance := (h.lives.balance hne (h.outboundHeld hne)).1
    rw [(h.dialing hs).2.1, hq] at hbalance
    simp [Outbound.text?] at hbalance
  | write text rest hs hq =>
    have hne : t.stage ≠ .finished := hs.trans_ne nofun
    have hbalance := (h.lives.balance hne (h.outboundHeld hne)).1
    have htexts : texts { t with written := t.written ++ [.text text] } = t.texts ++ [text] := by
      rw [texts, List.filterMap_append]
      rfl
    refine h.carry hne hs rfl rfl ?_ ?_ ?_ ?_ hopened
    · rw [htexts]
      simp [Connection.collect, Connection.takes, Connection.takeOutbound, hq, Outbound.text?]
    · exact (c.outboundHeld_apply .takeOutbound).2 ⟨h.outboundHeld hne, fun h => by cases h⟩
    · simpa using h.close_not_mem hne
    · rw [htexts, hbalance, hq]
      exact ⟨rest.filterMap Outbound.text?, by simp [Outbound.text?]⟩
  | obey rest fault written hs hq hw =>
    refine h.finish rfl rfl rfl (state_partings _ _) ?_ ?_ hopened
    · rcases hw with rfl | ⟨-, rfl⟩
      · rfl
      · rw [texts, List.filterMap_append]
        exact List.append_nil _
    · intro before after hsplit
      rcases hw with rfl | ⟨-, rfl⟩
      · exact h.close_last before after hsplit
      · exact eq_nil_of_concat_eq (h.close_not_mem hs) hsplit
  | choke text rest reason hs hq =>
    exact h.finish rfl rfl rfl (state_partings _ _) rfl h.close_last hopened
  | part a writeFault fault hs hr =>
    exact h.finish rfl rfl hr.symm (state_partings _ _) rfl h.close_last hopened

end Step

/-- **The account of a course.** -/
theorem carriage_run (g : Nat) (events : List TransportEvent) :
    let r := run {} (fresh g) events
    Carriage g r.1 r.2 (collect {} (fresh g) accepts events) (collect {} (fresh g) reads events)
      (collect {} (fresh g) opens events) (events.any TransportEvent.asksToClose) := by
  induction events using List.reverseRecOn with
  | nil => exact carriage_fresh g
  | append_singleton events e ih =>
    simp only [run_concat, collect_concat, List.any_append, List.any_cons, List.any_nil,
      Bool.or_false]
    exact ih.step e

/-- A transport that is done writes nothing more, and its connection takes no text. -/
theorem texts_of_finished (hs : t.stage = .finished) (hc : c.state = .closed)
    (events : List TransportEvent) :
    (t.run c events).1 = t ∧ t.collect c accepts events = [] := by
  induction events generalizing c with
  | nil => exact ⟨rfl, rfl⟩
  | cons e rest ih =>
    have hstep : (t.step c e).1 = t ∧ (t.step c e).2.1.state = .closed ∧ t.accepts c e = [] := by
      cases e with
      | use a ha =>
        exact ⟨rfl, (c.forward_apply a).closed hc, Connection.accepts_of_ne (hc.trans_ne nofun)⟩
      | arrive a fault =>
        rw [step, arrive, hs]
        exact ⟨rfl, hc, rfl⟩
      | takeCommand fault =>
        rw [step, takeCommand, if_pos hs]
        exact ⟨rfl, hc, rfl⟩
    obtain ⟨ht, hclosed, hnone⟩ := hstep
    have hrest := ih hclosed
    rw [run_cons, collect, hnone, ht]
    exact hrest

/-- Taking the request to close ends the transport, and tells no text. -/
theorem takeCommand_of_close (hs : t.stage = .streaming) (hq : c.outbound.head? = some .close)
    (fault : Option String) :
    (t.takeCommand c fault).1.stage = .finished ∧ (t.takeCommand c fault).1.texts = t.texts ∧
      (t.takeCommand c fault).2.1.state = .closed := by
  obtain ⟨rest, hrest⟩ := List.head?_eq_some_iff.1 hq
  have hgoes : t.stage ≠ .finished := hs.trans_ne nofun
  rw [takeCommand, if_neg hgoes, Connection.takeOutbound]
  simp only [hrest, obey, hs]
  refine ⟨rfl, ?_, state_finish _ _ _⟩
  cases fault with
  | none => simp [texts, finish, Written.text?]
  | some reason => rfl

/-- **What a transport does**, whatever the network brings, the queue holds and the users do,
in any order. It opens its connection when the server accepts while it dials, unless
somebody has asked to close before, and in no other way, so once at most; and it leaves the
connection closed. While it dials no text is accepted, so none is in the queue to be lost.
The texts that it writes are the first of the accepted ones, in order, and all of them if
it comes to its end by taking the request to close from a server that has accepted; and
after telling the server to close it writes nothing more. Its connection gets the binary
messages that it reads, each once and in order, and nothing else. -/
theorem carries (g : Nat) (events : List TransportEvent) :
    let t := (run {} (fresh g) events).1
    let c := (run {} (fresh g) events).2
    let accepted := collect {} (fresh g) accepts events
    (∀ e, (c.state ≠ .open ∧ (t.step c e).2.1.state = .open) ↔
      (∃ fault, e = .arrive .accepted fault) ∧ t.stage = .dialing ∧
        ∀ e ∈ events, e.asksToClose = false) ∧
    (collect {} (fresh g) opens events).length ≤ 1 ∧
    (t.stage = .finished → c.state = .closed) ∧
    (t.stage = .dialing → accepted = [] ∧ ∀ text, .text text ∉ c.outbound) ∧
    t.texts <+: accepted ∧
    (t.stage = .streaming → c.outbound.head? = some .close → ∀ fault later,
      let whole := events ++ .takeCommand fault :: later
      (run {} (fresh g) whole).1.stage = .finished ∧
        (run {} (fresh g) whole).1.texts = collect {} (fresh g) accepts whole) ∧
    (∀ before after, t.written = before ++ .close :: after → after = []) ∧
    ∃ actions, c = (fresh g).applyAll actions ∧
      actions.filterMap ConnectionAction.frame? = collect {} (fresh g) reads events := by
  intro t c accepted
  have h := carriage_run g events
  obtain ⟨actions, hlife, -, hread, -⟩ := h.lives
  refine ⟨fun e => ?_, h.opened_le, h.finished, fun hs => ?_, h.texts_prefix,
    fun hs hq fault later => ?_, h.close_last, actions, hlife, hread⟩
  · have hasked : events.any TransportEvent.asksToClose = false ↔
        ∀ e ∈ events, e.asksToClose = false := by
      simp only [List.any_eq_false, Bool.not_eq_true]
    rw [← hasked]
    exact h.opens_iff e
  · have hbalance := (h.lives.balance (hs.trans_ne nofun) (h.dialing hs).2.2.2.1).1
    have haccepted := (h.dialing hs).2.1
    refine ⟨haccepted, fun text hmem => ?_⟩
    rw [haccepted, eq_comm, List.append_eq_nil_iff] at hbalance
    exact absurd (List.filterMap_eq_nil_iff.1 hbalance.2 _ hmem) nofun
  · intro whole
    obtain ⟨rest, hrest⟩ := List.head?_eq_some_iff.1 hq
    have htexts := (h.lives.balance (hs.trans_ne nofun) (h.streaming hs).1).2 rest hrest
    obtain ⟨hfinished, hsame, hclosed⟩ := takeCommand_of_close hs hq fault
    obtain ⟨hrun, hnone⟩ := texts_of_finished hfinished hclosed later
    have hwhole : (run {} (fresh g) whole).1 = (t.takeCommand c fault).1 := by
      rw [run_append]
      exact hrun
    have haccepted : collect {} (fresh g) accepts whole = accepted := by
      rw [collect_append, collect]
      exact (congrArg (accepted ++ ·) hnone).trans (List.append_nil _)
    rw [hwhole, haccepted]
    exact ⟨hfinished, hsame.trans htexts⟩

end Transport

end PushFeed
