import CarRepairShop.ExactlyOnce
import CarRepairShop.ReplyOrder

/-! # From the queue to the tables

The saga queue, its pollers and the service together. `handle` of the poller
starts the unit of work of a reply; the handler resolves once it is committed,
and what other units of work do meanwhile is up to them. A poller may crash at
any moment, and its unit of work then still commits, or not.

`replies_keep_order` is about when the handler is invoked, and
`messages_take_effect_once` about the commits. `replies_take_effect_in_order`
says what follows for the tables: when a reply takes effect, each earlier reply
of its order is recorded there, and takes no effect after it.
-/

namespace CarRepairShop

open Lib Txn

/-! ## The system -/

/-- A unit of work that a poller started for a message of the queue. -/
structure ReplyWork where
  poller : ℕ
  message : ℕ
  session : ℕ
deriving DecidableEq

/-- The saga queue with its pollers, the bodies of all replies ever sent to it, the
service, and the units of work that the pollers started, the newest first. -/
structure ReplyFlow where
  pollers : Pollers := {}
  bodies : List MessageBody := []
  shop : ShopSys
  works : List ReplyWork := []

/-- What can happen. -/
inductive FlowLabel where
  /-- Anything but the call of a handler and its answer. -/
  | queue (event : Fifo.Consumers.Event String MessageBody)
  /-- `handle` calls the handler on the next message of the batch. -/
  | invoke (i : ℕ) (traceparent : Option String)
  /-- The unit of work is committed, so the handler resolves. -/
  | resolve (i : ℕ)
  | shop (label : Label Op)

namespace ReplyFlow

/-- One event at the pollers. -/
def poll (s : ReplyFlow) (event : Fifo.Consumers.Event String MessageBody) : Option Pollers :=
  s.pollers.step sagaQueue SqsQueuePoller.accepts event

/-- The unit of work that poller `i` started last. -/
def current (s : ReplyFlow) (i : ℕ) : Option ReplyWork :=
  s.works.find? fun w => w.poller = i

def step (s : ReplyFlow) : FlowLabel → Option ReplyFlow
  | .queue event =>
      if event.calls then none
      else (s.poll event).map fun pollers =>
        { s with pollers, bodies := s.bodies ++ event.sends }
  | .invoke i traceparent =>
      match s.pollers.consumers[i]? with
      | some (.batch (m :: _)) => do
          let envelope ← parseEnvelope m.body
          match SagaReplyHandler.handle envelope traceparent with
          | .error _ =>
              -- the handler throws before it starts anything
              let pollers ← s.poll (.stop i)
              some { s with pollers }
          | .ok op =>
              let pollers ← s.poll (.invoke i)
              let shop ← s.shop.step postgres program (.launch op)
              some { s with
                pollers, shop
                works := ⟨i, m.id, s.shop.sessions.length⟩ :: s.works }
      | _ => none
  | .resolve i => do
      let w ← s.current i
      match s.shop.sessions[w.session]? with
      | some (.committed _ _) =>
          let pollers ← s.poll (.resolve i)
          some { s with pollers }
      | _ => none
  | .shop label => (s.shop.step postgres program label).map fun shop => { s with shop }

/-- Makes the moves of a list in order. -/
def play (s : ReplyFlow) : List FlowLabel → Option ReplyFlow
  | [] => some s
  | l :: ls => (s.step l).bind fun s' => s'.play ls

/-- The service on the tables `db`, with an empty queue and no poller. -/
def start (db : Db) (nextId : ℕ) : ReplyFlow where
  shop := .start db nextId

/-- The id in the envelope of a message. -/
def replyId (s : ReplyFlow) (message : ℕ) : Option Uuid := do
  let body ← s.bodies[message]?
  let envelope ← parseEnvelope body
  (IdText.read envelope.messageId).stored?

end ReplyFlow

/-- The states that runs from `init` reach. -/
inductive FlowReachable (init : ReplyFlow) : ReplyFlow → Prop where
  | init : FlowReachable init init
  | step {s s' : ReplyFlow} (l : FlowLabel) :
      FlowReachable init s → s.step l = some s' → FlowReachable init s'

theorem flowReachable_of_play {init s s' : ReplyFlow} {ls : List FlowLabel}
    (hs : FlowReachable init s) (h : s.play ls = some s') : FlowReachable init s' := by
  induction ls generalizing s with
  | nil =>
      cases h
      exact hs
  | cons l ls ih =>
      rcases Option.bind_eq_some_iff.mp h with ⟨s₁, hstep, hrest⟩
      exact ih (.step l hs hstep) hrest

theorem getElem?_of_start {α : Type} {xs ys : List α} (h : xs <+: ys) {i : ℕ}
    (hi : i < xs.length) : ys[i]? = xs[i]? := by
  rcases h with ⟨rest, rfl⟩
  exact List.getElem?_append_left hi

namespace ReplyFlow

variable {s s' : ReplyFlow}

/-! ## What a move can do -/

/-- Everything a move can do. -/
inductive Move (s : ReplyFlow) : ReplyFlow → Prop where
  | queue (event : Fifo.Consumers.Event String MessageBody) (pollers : Pollers)
      (calls : event.calls = false) (polled : s.poll event = some pollers) :
      Move s { s with pollers, bodies := s.bodies ++ event.sends }
  | invoke (i : ℕ) (m : PolledMessage) (rest : List PolledMessage)
      (waiting : s.pollers.consumers[i]? = some (.batch (m :: rest)))
      (envelope : MessageEnvelope) (parsed : parseEnvelope m.body = some envelope)
      (traceparent : Option String) (op : Op)
      (handler : SagaReplyHandler.handle envelope traceparent = .ok op)
      (pollers : Pollers) (polled : s.poll (.invoke i) = some pollers)
      (shop : ShopSys) (launched : s.shop.step postgres program (.launch op) = some shop) :
      Move s { s with
        pollers, shop, works := ⟨i, m.id, s.shop.sessions.length⟩ :: s.works }
  | resolve (i : ℕ) (w : ReplyWork) (current : s.current i = some w) (op : Op) (result : Outcome)
      (committed : s.shop.sessions[w.session]? = some (.committed op result))
      (pollers : Pollers) (polled : s.poll (.resolve i) = some pollers) :
      Move s { s with pollers }
  | shop (label : Label Op) (shop : ShopSys)
      (stepped : s.shop.step postgres program label = some shop) : Move s { s with shop }

theorem flowMove_of_step {l : FlowLabel} (h : s.step l = some s') : s.Move s' := by
  cases l with
  | queue event =>
      simp only [step] at h
      split at h
      · cases h
      · next hcalls =>
        rcases Option.map_eq_some_iff.mp h with ⟨pollers, hpolled, rfl⟩
        exact .queue event pollers (by simpa using hcalls) hpolled
  | invoke i traceparent =>
      simp only [step] at h
      split at h
      · next m rest hi =>
        rcases Option.bind_eq_some_iff.mp h with ⟨envelope, hparsed, h⟩
        split at h
        · rcases Option.bind_eq_some_iff.mp h with ⟨pollers, hpolled, h⟩
          cases h
          have hmove : s.Move { s with pollers, bodies := s.bodies ++ [] } :=
            .queue (.stop i) pollers rfl hpolled
          rwa [List.append_nil] at hmove
        · next op hhandler =>
          rcases Option.bind_eq_some_iff.mp h with ⟨pollers, hpolled, h⟩
          rcases Option.bind_eq_some_iff.mp h with ⟨shop, hlaunched, h⟩
          cases h
          exact .invoke i m rest hi envelope hparsed traceparent op hhandler pollers hpolled shop
            hlaunched
      · cases h
  | resolve i =>
      simp only [step] at h
      rcases Option.bind_eq_some_iff.mp h with ⟨w, hw, h⟩
      split at h
      · next op result hcommitted =>
        rcases Option.bind_eq_some_iff.mp h with ⟨pollers, hpolled, h⟩
        cases h
        exact .resolve i w hw op result hcommitted pollers hpolled
      · cases h
  | shop label =>
      rcases Option.map_eq_some_iff.mp h with ⟨shop, hshop, rfl⟩
      exact .shop label shop hshop

/-- The pollers after a handler was called. -/
theorem poll_invoke {i : ℕ} {m : PolledMessage} {rest : List PolledMessage} {pollers : Pollers}
    (hi : s.pollers.consumers[i]? = some (.batch (m :: rest)))
    (h : s.poll (.invoke i) = some pollers) :
    pollers = { s.pollers with
      consumers := s.pollers.consumers.set i (.handling m rest)
      trace := s.pollers.trace ++ [.invoked m.id] } := by
  simp only [poll, Fifo.Consumers.step, hi] at h
  split at h
  · cases h
    rfl
  · cases h

/-- The pollers after a handler resolved. -/
theorem poll_resolve {i : ℕ} {pollers : Pollers} (h : s.poll (.resolve i) = some pollers) :
    ∃ m rest, s.pollers.consumers[i]? = some (.handling m rest) ∧
      pollers = { s.pollers with
        consumers := s.pollers.consumers.set i (.deleting m rest)
        trace := s.pollers.trace ++ [.resolved m.id] } := by
  simp only [poll, Fifo.Consumers.step] at h
  split at h
  · next m rest hi =>
    cases h
    exact ⟨m, rest, hi, rfl⟩
  · cases h

/-! ## The invariant -/

/-- Reply `e` is recorded in these tables. -/
def RecordedIn (s : ReplyFlow) (db : Db) (e : ℕ) : Prop :=
  ∃ body, s.bodies[e]? = some body ∧ Recorded db body

/-- Each earlier reply of the order is recorded in these tables, or a dead letter. -/
def Preceded (s : ReplyFlow) (db : Db) (message : ℕ) : Prop :=
  ∀ e < message, s.pollers.groups[e]? = s.pollers.groups[message]? →
    .deadLettered e ∈ s.pollers.trace ∨ s.RecordedIn db e

/-- What holds of a unit of work that a poller started. -/
structure Begun (s : ReplyFlow) (w : ReplyWork) : Prop where
  sent : w.message < s.pollers.groups.length
  handler : ∃ body envelope traceparent op, s.bodies[w.message]? = some body ∧
    parseEnvelope body = some envelope ∧ SagaReplyHandler.handle envelope traceparent = .ok op ∧
    (s.shop.sessions[w.session]?).map Session.op = some op
  preceded : s.Preceded s.shop.db w.message
  logged : ∀ c ∈ s.shop.log, c.session = w.session → s.Preceded c.before w.message

structure Inv (init : ShopSys) (s : ReplyFlow) : Prop where
  shop : ShopReachable .none init s.shop
  orderly : s.pollers.Orderly
  carries : s.pollers.Carries s.bodies
  resolved : ∀ e, .resolved e ∈ s.pollers.trace → s.RecordedIn s.shop.db e
  handling : ∀ (i : ℕ) (m : PolledMessage) (rest : List PolledMessage),
    s.pollers.consumers[i]? = some (.handling m rest) →
      ∃ w, s.current i = some w ∧ w.message = m.id
  begun : ∀ w ∈ s.works, s.Begun w

/-- Nothing that was sent, settled or recorded is forgotten, and what is new in the log
was committed on the tables before. -/
structure Extends (s s' : ReplyFlow) : Prop where
  pollers : s.pollers.Grows s'.pollers
  bodies : s.bodies <+: s'.bodies
  recorded : ∀ m, (s.shop.db.processed.find? m).isSome = true →
    (s'.shop.db.processed.find? m).isSome = true
  sessions : ∀ (i : ℕ) (op : Op), (s.shop.sessions[i]?).map Session.op = some op →
    (s'.shop.sessions[i]?).map Session.op = some op
  log : ∀ c ∈ s'.shop.log, c ∈ s.shop.log ∨ c.before = s.shop.db

/-! ## One move -/

theorem RecordedIn.mono {db db' : Db} {e : ℕ} (h : s.RecordedIn db e)
    (hbodies : s.bodies <+: s'.bodies)
    (hdb : ∀ m, (db.processed.find? m).isSome = true → (db'.processed.find? m).isSome = true) :
    s'.RecordedIn db' e := by
  rcases h with ⟨body, hbody, envelope, m, hparsed, hcol, hrec⟩
  refine ⟨body, ?_, envelope, m, hparsed, hcol, hdb m hrec⟩
  rw [getElem?_of_start hbodies (List.getElem?_eq_some_iff.mp hbody).1]
  exact hbody

theorem Preceded.mono {db db' : Db} {message : ℕ} (h : s.Preceded db message)
    (hsent : message < s.pollers.groups.length) (hpollers : s.pollers.Grows s'.pollers)
    (hbodies : s.bodies <+: s'.bodies)
    (hdb : ∀ m, (db.processed.find? m).isSome = true → (db'.processed.find? m).isSome = true) :
    s'.Preceded db' message := by
  intro e he hgroup
  rw [getElem?_of_start hpollers.groups (by omega), getElem?_of_start hpollers.groups hsent]
    at hgroup
  rcases h e he hgroup with hdead | hrec
  · exact .inl (hpollers.trace.subset hdead)
  · exact .inr (hrec.mono hbodies hdb)

/-- A unit of work that was started stays in order, whatever the service commits. -/
theorem Begun.mono {w : ReplyWork} (h : s.Begun w) (hext : s.Extends s') : s'.Begun w where
  sent := h.sent.trans_le hext.pollers.groups.length_le
  handler := by
    rcases h.handler with ⟨body, envelope, traceparent, op, hbody, hparsed, hhandler, hop⟩
    refine ⟨body, envelope, traceparent, op, ?_, hparsed, hhandler, hext.sessions _ _ hop⟩
    rw [getElem?_of_start hext.bodies (List.getElem?_eq_some_iff.mp hbody).1]
    exact hbody
  preceded := h.preceded.mono h.sent hext.pollers hext.bodies hext.recorded
  logged := by
    intro c hc hw
    rcases hext.log c hc with hold | hbefore
    · exact (h.logged c hold hw).mono h.sent hext.pollers hext.bodies (fun _ hm => hm)
    · rw [hbefore]
      exact h.preceded.mono h.sent hext.pollers hext.bodies (fun _ hm => hm)

/-- A move of the pollers alone. -/
theorem extends_polled {pollers : Pollers} (hgrows : s.pollers.Grows pollers)
    (bodies : List MessageBody) :
    s.Extends { s with pollers, bodies := s.bodies ++ bodies } where
  pollers := hgrows
  bodies := List.prefix_append _ _
  recorded _ hm := hm
  sessions _ _ hop := hop
  log _ hc := .inl hc

/-- A move of the service. -/
theorem extends_stepped {shop : ShopSys} {l : Label Op} {pollers : Pollers} {works : List ReplyWork}
    (hgrows : s.pollers.Grows pollers) (h : s.shop.step postgres program l = some shop) :
    s.Extends { s with pollers, shop, works } where
  pollers := hgrows
  bodies := List.prefix_rfl
  recorded _ hm := recorded_of_step h hm
  sessions i op hop := by
    rcases Option.map_eq_some_iff.mp hop with ⟨t, ht, rfl⟩
    rcases session_op_of_step h ht with ⟨t', ht', hop'⟩
    simp [ht', hop']
  log c hc := by
    cases move_of_step (s.shop.allowed_none postgres l) h with
    | commit i op result tx hi =>
        rcases List.mem_append.mp hc with hold | hnew
        · exact .inl hold
        · rw [List.mem_singleton.mp hnew]
          exact .inr rfl
    | _ => exact .inl hc

/-- A handler resolved because its unit of work was committed. -/
theorem Inv.recorded_of_committed {db : Db} {nextId : ℕ} (h : Inv (.start db nextId) s)
    {w : ReplyWork} (hw : w ∈ s.works) {op : Op} {result : Outcome}
    (hcommitted : s.shop.sessions[w.session]? = some (.committed op result)) :
    s.RecordedIn s.shop.db w.message := by
  rcases (h.begun w hw).handler with
    ⟨body, envelope, traceparent, op', hbody, hparsed, hhandler, hop⟩
  rw [hcommitted, Option.map_some, Option.some.injEq] at hop
  have hop' : op = op' := hop
  subst hop'
  have hid : op.messageId = some (IdText.read envelope.messageId) := by
    have hreply : PolledQueue.sagaReplies.handler envelope traceparent = .ok op := hhandler
    exact PolledQueue.handler_messageId hreply
  exact ⟨body, hbody, CarRepairShop.recorded_of_committed h.shop hcommitted hparsed hid⟩

/-- A handler was called: everything earlier of the order is settled by then. -/
theorem Inv.begin {db : Db} {nextId : ℕ} (h : Inv (.start db nextId) s) {i : ℕ} {m : PolledMessage}
    {rest : List PolledMessage} (hi : s.pollers.consumers[i]? = some (.batch (m :: rest))) :
    m.id < s.pollers.groups.length ∧ s.bodies[m.id]? = some m.body ∧
      s.Preceded s.shop.db m.id := by
  have hbatch := h.orderly.batches _ (List.mem_of_getElem? hi)
  have hgroup := hbatch.received m List.mem_cons_self
  refine ⟨(List.getElem?_eq_some_iff.mp hgroup).1, ?_, ?_⟩
  · exact h.carries.batches _ (List.mem_of_getElem? hi) m List.mem_cons_self
  · intro e he heq
    rw [hgroup] at heq
    rcases hbatch.ahead [] m rest rfl e he heq with (hresolved | hdead) | hdone
    · exact .inr (h.resolved e hresolved)
    · exact .inl hdead
    · cases hdone

theorem Inv.invoke {db : Db} {nextId : ℕ} (h : Inv (.start db nextId) s) {i : ℕ} {m : PolledMessage}
    {rest : List PolledMessage} (hi : s.pollers.consumers[i]? = some (.batch (m :: rest)))
    {envelope : MessageEnvelope} (hparsed : parseEnvelope m.body = some envelope)
    {traceparent : Option String} {op : Op}
    (hhandler : SagaReplyHandler.handle envelope traceparent = .ok op)
    {pollers : Pollers} (hpolled : s.poll (.invoke i) = some pollers)
    {shop : ShopSys} (hlaunched : s.shop.step postgres program (.launch op) = some shop) :
    Inv (.start db nextId) { s with
      pollers, shop, works := ⟨i, m.id, s.shop.sessions.length⟩ :: s.works } := by
  rcases h.begin hi with ⟨hsent, hbody, hpreceded⟩
  have hpollers := poll_invoke hi hpolled
  have hgrows : s.pollers.Grows pollers := by
    rw [hpollers]
    exact ⟨List.prefix_rfl, List.prefix_append _ _⟩
  have hext : s.Extends { s with
      pollers, shop, works := ⟨i, m.id, s.shop.sessions.length⟩ :: s.works } :=
    extends_stepped hgrows hlaunched
  have hcarries := h.carries.step h.orderly.sent hpolled
  simp only [Fifo.Consumers.Event.sends, List.append_nil] at hcarries
  refine ⟨.step _ h.shop (s.shop.allowed_none postgres _) hlaunched, h.orderly.step hpolled,
    hcarries, ?_, ?_, ?_⟩
  · intro e he
    have hold : .resolved e ∈ s.pollers.trace := by simpa [hpollers] using he
    exact (h.resolved e hold).mono hext.bodies hext.recorded
  · intro j m' rest' hj
    simp only [hpollers] at hj
    rcases Fifo.Consumers.handling_of_invoke hj with ⟨rfl, rfl⟩ | ⟨hne, hold⟩
    · exact ⟨_, List.find?_cons_of_pos (by simp), rfl⟩
    · rcases h.handling j m' rest' hold with ⟨w, hw, hmessage⟩
      refine ⟨w, ?_, hmessage⟩
      unfold current
      rw [List.find?_cons_of_neg (by simpa using Ne.symm hne)]
      exact hw
  · intro w hw
    rcases List.mem_cons.mp hw with rfl | hw
    · refine ⟨hsent.trans_le hgrows.groups.length_le, ⟨m.body, envelope, traceparent, op, hbody, hparsed,
        hhandler, ?_⟩, hpreceded.mono hsent hgrows hext.bodies hext.recorded, ?_⟩
      · cases hlaunched
        simp [Session.op]
      · -- nothing in the log is of the session that just began
        intro c hc hsession
        have hlog : shop.log = s.shop.log := by
          cases hlaunched
          rfl
        rw [hlog] at hc
        have hold := (List.getElem?_eq_some_iff.mp (h.shop.logged_session rfl c hc)).1
        rw [hsession] at hold
        exact absurd hold (Nat.lt_irrefl _)
    · exact (h.begun w hw).mono hext

theorem Inv.resolve {db : Db} {nextId : ℕ} (h : Inv (.start db nextId) s) {i : ℕ} {w : ReplyWork}
    (hcurrent : s.current i = some w) {op : Op} {result : Outcome}
    (hcommitted : s.shop.sessions[w.session]? = some (.committed op result))
    {pollers : Pollers} (hpolled : s.poll (.resolve i) = some pollers) :
    Inv (.start db nextId) { s with pollers } := by
  rcases poll_resolve hpolled with ⟨m, rest, hi, hpollers⟩
  have hgrows : s.pollers.Grows pollers := by
    rw [hpollers]
    exact ⟨List.prefix_rfl, List.prefix_append _ _⟩
  have hcarries := h.carries.step h.orderly.sent hpolled
  simp only [Fifo.Consumers.Event.sends, List.append_nil] at hcarries
  have hext := extends_polled (s := s) hgrows []
  rw [List.append_nil] at hext
  refine ⟨h.shop, h.orderly.step hpolled, hcarries, ?_, ?_, fun w hw => (h.begun w hw).mono hext⟩
  · intro e he
    have hcases : .resolved e ∈ s.pollers.trace ∨ e = m.id := by simpa [hpollers] using he
    rcases hcases with hold | rfl
    · exact h.resolved e hold
    · -- the message is the one the poller's last unit of work was started for
      rcases h.handling i m rest hi with ⟨w', hw', hmessage⟩
      rw [hcurrent, Option.some.injEq] at hw'
      rw [← hmessage, ← hw']
      exact h.recorded_of_committed (List.mem_of_find?_eq_some hcurrent) hcommitted
  · intro j m' rest' hj
    simp only [hpollers] at hj
    rw [List.getElem?_set] at hj
    split at hj
    · split at hj
      · cases hj
      · cases hj
    · exact h.handling j m' rest' hj

theorem Inv.move {db : Db} {nextId : ℕ} (h : Inv (.start db nextId) s) (hmove : s.Move s') :
    Inv (.start db nextId) s' := by
  cases hmove with
  | queue event pollers hcalls hpolled =>
      have hquiet := Fifo.Consumers.quiet_of_step hpolled hcalls
      have hext := extends_polled hquiet.toGrows event.sends
      refine ⟨h.shop, h.orderly.step hpolled, h.carries.step h.orderly.sent hpolled, ?_, ?_, ?_⟩
      · intro e he
        exact (h.resolved e (hquiet.resolved e he)).mono hext.bodies hext.recorded
      · intro i m rest hi
        exact h.handling i m rest (hquiet.handling i m rest hi)
      · intro w hw
        exact (h.begun w hw).mono hext
  | invoke i m rest hi envelope hparsed traceparent op hhandler pollers hpolled shop hlaunched =>
      exact h.invoke hi hparsed hhandler hpolled hlaunched
  | resolve i w hcurrent op result hcommitted pollers hpolled =>
      exact h.resolve hcurrent hcommitted hpolled
  | shop label shop hstep =>
      have hext : s.Extends { s with shop } :=
        extends_stepped ⟨List.prefix_rfl, List.prefix_rfl⟩ hstep
      refine ⟨.step label h.shop (s.shop.allowed_none postgres label) hstep, h.orderly, h.carries, ?_,
        h.handling, fun w hw => (h.begun w hw).mono hext⟩
      intro e he
      exact (h.resolved e he).mono hext.bodies hext.recorded

theorem Inv.start (db : Db) (nextId : ℕ) : Inv (.start db nextId) (start db nextId) where
  shop := .init
  orderly := Fifo.Consumers.Orderly.init
  carries := Fifo.Consumers.Carries.init
  resolved := by simp [ReplyFlow.start]
  handling := by simp [ReplyFlow.start]
  begun := by simp [ReplyFlow.start]

end ReplyFlow

theorem FlowReachable.inv {db : Db} {nextId : ℕ} {s : ReplyFlow}
    (h : FlowReachable (.start db nextId) s) : s.Inv (.start db nextId) := by
  induction h with
  | init => exact .start db nextId
  | step l _ hstep ih => exact ih.move (ReplyFlow.flowMove_of_step hstep)

/-! ## In the tables -/

/-- A unit of work for a message commits only if its id is one. -/
theorem RecordStep.column {op : Op} {result : Outcome} {tx : ShopTx} {db : Db} {id : IdText}
    (h : RecordStep op result tx db) (hid : op.messageId = some id) :
    ∃ m, id.stored? = some m := by
  cases h with
  | none hno _ =>
      rw [hno] at hid
      cases hid
  | duplicate id' m hid' hcol _ _ _ =>
      rw [hid', Option.some.injEq] at hid
      exact ⟨m, hid ▸ hcol⟩
  | recorded id' m hid' hcol _ _ _ =>
      rw [hid', Option.some.injEq] at hid
      exact ⟨m, hid ▸ hcol⟩

/-- What is recorded takes no effect any more. -/
theorem RecordInvariant.no_effect {start db : Db} {log earlier later : List ShopCommit}
    {c : ShopCommit} (h : RecordInvariant start db log) (hsplit : log = earlier ++ c :: later)
    {m : Uuid} (hrec : (c.before.processed.find? m).isSome = true) :
    ∀ c' ∈ later, effects m c' = false := by
  intro c' hc'
  rcases List.append_of_mem hc' with ⟨between, rest, rfl⟩
  have hsplit' : log = (earlier ++ c :: between) ++ c' :: rest := by simp [hsplit]
  have hbefore : (c'.before.processed.find? m).isSome = true := by
    refine (h.before _ c' rest hsplit' m).mpr ?_
    rcases (h.before earlier c _ hsplit m).mp hrec with hstart | ⟨e, he, hrecords⟩
    · exact .inl hstart
    · exact .inr ⟨e, List.mem_append_left _ he, hrecords⟩
  have hmem : c' ∈ log := by simp [hsplit]
  cases hhandles : handles m c' with
  | false => simp [effects, hhandles]
  | true =>
      rcases duplicate_or_recorded (i := c'.session) (h.steps c' hmem) hhandles with
        ⟨-, hwrites, -⟩ | ⟨hnone, -⟩
      · simp [effects, hwrites]
      · rw [hnone] at hbefore
        cases hbefore

/-- The commit of a unit of work that a poller started is of the reply it was started for.
Each earlier reply of the same order is a dead letter, or it was recorded when this one
committed and takes no effect after it. -/
structure ReplyFlow.EffectInOrder (s : ReplyFlow) (start : Db) (w : ReplyWork)
    (earlier : List ShopCommit) (c : ShopCommit) (later : List ShopCommit) : Prop where
  own : ∃ id, s.replyId w.message = some id ∧ handles id c = true
  inOrder : ∀ e < w.message, s.pollers.groups[e]? = s.pollers.groups[w.message]? →
    .deadLettered e ∈ s.pollers.trace ∨ ∃ id, s.replyId e = some id ∧
      ((start.processed.find? id).isSome = true ∨ ∃ c' ∈ earlier, records id c' = true) ∧
      ∀ c' ∈ later, effects id c' = false

/-- From the queue to the tables: in every run of any number of pollers among all units of
work of the service, whatever is redelivered, overtaken or crashes, a commit that a poller
started is of its own message, and the earlier messages of the same order are dead letters
or recorded by then, and take no effect later. -/
theorem replies_take_effect_in_order {db : Db} {nextId : ℕ} {s : ReplyFlow}
    (h : FlowReachable (.start db nextId) s) {w : ReplyWork} (hw : w ∈ s.works)
    {earlier later : List ShopCommit} {c : ShopCommit}
    (hlog : s.shop.log = earlier ++ c :: later) (hc : c.session = w.session) :
    s.EffectInOrder db w earlier c later := by
  have hinv := h.inv
  have hbegun := hinv.begun w hw
  have hrecord := reachable_record hinv.shop
  have hmem : c ∈ s.shop.log := by simp [hlog]
  constructor
  · rcases hbegun.handler with ⟨body, envelope, traceparent, op, hbody, hparsed, hhandler, hop⟩
    rw [← hc, hinv.shop.logged_session rfl c hmem, Option.map_some, Option.some.injEq] at hop
    have hreply : PolledQueue.sagaReplies.handler envelope traceparent = .ok op := hhandler
    have hid : c.op.messageId = some (IdText.read envelope.messageId) := by
      have hcop : c.op = op := hop
      rw [hcop]
      exact PolledQueue.handler_messageId hreply
    rcases (hrecord.steps c hmem).column hid with ⟨m, hm⟩
    refine ⟨m, ?_, ?_⟩
    · simp [ReplyFlow.replyId, hbody, hparsed, hm]
    · simp [handles, hid, hm]
  · intro e he hgroup
    rcases hbegun.logged c hmem hc e he hgroup with hdead | hrec
    · exact .inl hdead
    · rcases hrec with ⟨body, hbody, envelope, m, hparsed, hcol, hm⟩
      refine .inr ⟨m, ?_, (hrecord.before earlier c later hlog m).mp hm, hrecord.no_effect hlog hm⟩
      simp [ReplyFlow.replyId, hbody, hparsed, hcol]

/-- The reply with the budget of order 4. -/
def budgetGeneratedBody : MessageBody :=
  some (.obj [("messageId", .str "00000000-0000-0000-0000-000000000067"),
    ("type", .str "BudgetGenerated"),
    ("serviceOrderId", .str "00000000-0000-0000-0000-000000000004"),
    ("occurredAt", .str "2026-10-31T10:05:00.000Z"),
    ("payload", .obj [("total", .num (.finite 100))])])

/-- Two replies of order 4. The first poller takes longer than the visibility timeout
over the first, so the other receives it too, with the second. -/
def lateReply : List FlowLabel :=
  List.flatten [
    [.queue (.send "4" diagnosisCompletedBody), .queue (.send "4" budgetGeneratedBody),
      .queue .join, .queue .join, .queue (.receive 0 [0]), .invoke 0 none],
    List.replicate 5 (.shop (.advance 0)),
    [.queue (.tick 30), .queue (.receive 1 [0, 1]), .invoke 1 none],
    List.replicate 14 (.shop (.advance 0)),
    List.replicate 3 (.shop (.advance 1)),
    [.resolve 1, .queue (.delete 1 true true), .invoke 1 none],
    List.replicate 11 (.shop (.advance 2)),
    [.resolve 1, .queue (.delete 1 true true)]]

theorem late_reply_takes_effect_in_order : ∃ s,
    (ReplyFlow.start sharedItem.db sharedItem.nextId).play lateReply = some s ∧
    ∃ first second third, s.shop.log = [first, second] ++ third :: [] ∧
      [first, second, third].map (fun c => c.result.handled)
        = [some .applied, some .duplicate, some .applied] ∧
      s.EffectInOrder sharedItem.db ⟨1, 1, 2⟩ [first, second] third [] := by
  have hplay : ((ReplyFlow.start sharedItem.db sharedItem.nextId).play lateReply).map
      (fun s => (s.works, s.shop.log.map fun c => (c.session, c.result.handled)))
      = some ([⟨1, 1, 2⟩, ⟨1, 0, 1⟩, ⟨0, 0, 0⟩],
          [(0, some .applied), (1, some .duplicate), (2, some .applied)]) := by
    decide +kernel
  rcases Option.map_eq_some_iff.mp hplay with ⟨s, hs, hfacts⟩
  rw [Prod.mk.injEq] at hfacts
  rcases hfacts with ⟨hworks, hlog⟩
  -- the three commits
  rcases List.map_eq_cons_iff.mp hlog with ⟨first, tail, hfirst, h₁, hlog⟩
  rcases List.map_eq_cons_iff.mp hlog with ⟨second, tail', rfl, h₂, hlog⟩
  rcases List.map_eq_cons_iff.mp hlog with ⟨third, tail'', rfl, h₃, hlog⟩
  rw [List.map_eq_nil_iff.mp hlog] at hfirst
  rw [Prod.mk.injEq] at h₁ h₂ h₃
  refine ⟨s, hs, first, second, third, hfirst, by simp [h₁, h₂, h₃], ?_⟩
  exact replies_take_effect_in_order (flowReachable_of_play .init hs) (by simp [hworks]) hfirst h₃.1

end CarRepairShop
