import CarRepairShop.Compensation
import CarRepairShop.Poller
import CarRepairShop.StockConcurrency

/-! # Messages take effect once

Any number of pollers receive messages, hand them to the saga and delete them,
while the service does anything else it can do. A message can be received
again as long as it is on its queue, by the same poller or by another; a
poller can give up at any moment, since the handler threw, the process
crashed or a call to the queue failed; and the answer to a deletion can be
lost.

Every unit of work that handles a message either commits, or leaves nothing
behind. `RecordStep` says what its commit does to the record of messages; by
induction over the commits at most one of them records a given id, and by
induction over the moves a poller deletes only what was committed.
-/

namespace CarRepairShop

open Lib Txn

/-! ## The pollers -/

/-- A message on a queue. -/
structure QueuedMessage where
  receipt : ℕ
  queue : PolledQueue
  body : MessageBody
deriving Repr

/-- Where a poller is: waiting for a batch, about to take the next message of
one, in the unit of work of a message, or about to delete it. -/
inductive PollerState where
  | idle
  | batch (messages : List QueuedMessage)
  | handling (message : QueuedMessage) (session : ℕ) (rest : List QueuedMessage)
  | resolved (message : QueuedMessage) (rest : List QueuedMessage)

/-- A poller of one queue. -/
structure Poller where
  queue : PolledQueue
  state : PollerState := .idle

/-- A deletion, with the tables at that moment. -/
structure Deletion where
  message : QueuedMessage
  before : Db

/-- The service, the queues and the pollers of all replicas. -/
structure Messaging where
  shop : ShopSys
  queued : List QueuedMessage := []
  sent : ℕ := 0
  pollers : List Poller := []
  deletions : List Deletion := []

/-- The moves of the system. -/
inductive MessagingLabel where
  | send (queue : PolledQueue) (body : MessageBody)
  | start (queue : PolledQueue)
  | receive (p : ℕ) (receipts : List ℕ)
  | take (p : ℕ) (traceparent : Option String)
  | resolve (p : ℕ)
  | giveUp (p : ℕ)
  | delete (p : ℕ) (acknowledged : Bool)
  | shop (label : Label Op)

namespace Messaging

/-- Replaces the state of poller `p`. -/
def poll (s : Messaging) (p : ℕ) (poller : Poller) : Messaging :=
  { s with pollers := s.pollers.set p poller }

/-- The next message of a batch: what is not an envelope, or of no known type,
ends the batch; for the others the handler starts its unit of work. -/
def take (s : Messaging) (p : ℕ) (queue : PolledQueue) (traceparent : Option String) :
    List QueuedMessage → Option Messaging
  | [] => some (s.poll p { queue })
  | m :: rest =>
      match parseEnvelope m.body with
      | none => some (s.poll p { queue })
      | some envelope =>
          match queue.handler envelope traceparent with
          | .error _ => some (s.poll p { queue })
          | .ok op =>
              (s.shop.step postgres program (.launch op)).map fun shop =>
                { s.poll p { queue, state := .handling m s.shop.sessions.length rest } with shop }

/-- One move; `none` when it is not possible. -/
def step (s : Messaging) : MessagingLabel → Option Messaging
  | .send queue body =>
      some { s with queued := s.queued ++ [⟨s.sent, queue, body⟩], sent := s.sent + 1 }
  | .start queue => some { s with pollers := s.pollers ++ [{ queue }] }
  | .receive p receipts =>
      match s.pollers[p]? with
      | some ⟨queue, .idle⟩ =>
          let batch := receipts.filterMap fun r =>
            s.queued.find? fun m => m.receipt = r ∧ m.queue = queue
          if batch.length ≤ maxMessages then some (s.poll p { queue, state := .batch batch })
          else none
      | _ => none
  | .take p traceparent =>
      match s.pollers[p]? with
      | some ⟨queue, .batch messages⟩ => s.take p queue traceparent messages
      | _ => none
  | .resolve p =>
      match s.pollers[p]? with
      | some ⟨queue, .handling m i rest⟩ =>
          match s.shop.sessions[i]? with
          | some (.committed _ _) => some (s.poll p { queue, state := .resolved m rest })
          | _ => none
      | _ => none
  | .giveUp p =>
      match s.pollers[p]? with
      | some ⟨queue, _⟩ => some (s.poll p { queue })
      | none => none
  | .delete p acknowledged =>
      match s.pollers[p]? with
      | some ⟨queue, .resolved m rest⟩ =>
          some { s.poll p { queue, state := if acknowledged then .batch rest else .idle } with
            queued := s.queued.filter fun x => x.receipt ≠ m.receipt
            deletions := s.deletions ++ [⟨m, s.shop.db⟩] }
      | _ => none
  | .shop label => (s.shop.step postgres program label).map fun shop => { s with shop }

/-- Makes the moves of a list in order. -/
def play (s : Messaging) : List MessagingLabel → Option Messaging
  | [] => some s
  | l :: ls => (s.step l).bind fun s' => s'.play ls

end Messaging

/-- The states that runs from `init` reach. -/
inductive MessagingReachable (init : Messaging) : Messaging → Prop where
  | init : MessagingReachable init init
  | step {s s' : Messaging} (l : MessagingLabel) :
      MessagingReachable init s → s.step l = some s' → MessagingReachable init s'

/-- Everything a move can do: to the service as one of its own moves, and to
the pollers. -/
inductive MessagingMove (s : Messaging) : Messaging → Prop where
  | queues (queued : List QueuedMessage) (sent : ℕ) :
      MessagingMove s { s with queued, sent }
  | start (queue : PolledQueue) : MessagingMove s { s with pollers := s.pollers ++ [{ queue }] }
  | quiet (p : ℕ) (queue : PolledQueue) (state : PollerState)
      (h : state = .idle ∨ ∃ messages, state = .batch messages) :
      MessagingMove s (s.poll p { queue, state })
  | began (p : ℕ) (queue : PolledQueue) (m : QueuedMessage) (rest : List QueuedMessage)
      (envelope : MessageEnvelope) (traceparent : Option String) (op : Op)
      (parsed : parseEnvelope m.body = some envelope)
      (handler : queue.handler envelope traceparent = .ok op) (shop : ShopSys)
      (launched : s.shop.step postgres program (.launch op) = some shop) :
      MessagingMove s
        { s.poll p { queue, state := .handling m s.shop.sessions.length rest } with shop }
  | resolved (p : ℕ) (queue : PolledQueue) (m : QueuedMessage) (i : ℕ) (rest : List QueuedMessage)
      (hp : s.pollers[p]? = some ⟨queue, .handling m i rest⟩) (op : Op) (result : Outcome)
      (hi : s.shop.sessions[i]? = some (.committed op result)) :
      MessagingMove s (s.poll p { queue, state := .resolved m rest })
  | deleted (p : ℕ) (queue : PolledQueue) (m : QueuedMessage) (rest : List QueuedMessage)
      (hp : s.pollers[p]? = some ⟨queue, .resolved m rest⟩) (state : PollerState)
      (h : state = .idle ∨ ∃ messages, state = .batch messages) (queued : List QueuedMessage) :
      MessagingMove s { s.poll p { queue, state } with
        queued, deletions := s.deletions ++ [⟨m, s.shop.db⟩] }
  | shop (label : Label Op) (shop : ShopSys)
      (stepped : s.shop.step postgres program label = some shop) :
      MessagingMove s { s with shop }

theorem messagingMove_of_take {s s' : Messaging} {p : ℕ} {queue : PolledQueue}
    {traceparent : Option String} {messages : List QueuedMessage}
    (h : s.take p queue traceparent messages = some s') : MessagingMove s s' := by
  cases messages with
  | nil =>
      cases h
      exact .quiet p queue .idle (Or.inl rfl)
  | cons m rest =>
      unfold Messaging.take at h
      cases hparsed : parseEnvelope m.body with
      | none =>
          simp only [hparsed] at h
          cases h
          exact .quiet p queue .idle (Or.inl rfl)
      | some envelope =>
          simp only [hparsed] at h
          cases hhandler : queue.handler envelope traceparent with
          | error e =>
              simp only [hhandler] at h
              cases h
              exact .quiet p queue .idle (Or.inl rfl)
          | ok op =>
              simp only [hhandler] at h
              rcases Option.map_eq_some_iff.mp h with ⟨shop, hshop, rfl⟩
              exact .began p queue m rest envelope traceparent op hparsed hhandler shop hshop

theorem messagingMove_of_step {s s' : Messaging} {l : MessagingLabel} (h : s.step l = some s') :
    MessagingMove s s' := by
  cases l with
  | send queue body =>
      cases h
      exact .queues _ _
  | start queue =>
      cases h
      exact .start queue
  | receive p receipts =>
      simp only [Messaging.step] at h
      split at h
      · split at h
        · cases h
          exact .quiet p _ _ (Or.inr ⟨_, rfl⟩)
        · cases h
      · cases h
  | take p traceparent =>
      simp only [Messaging.step] at h
      split at h
      · exact messagingMove_of_take h
      · cases h
  | resolve p =>
      simp only [Messaging.step] at h
      split at h
      · next queue m i rest hp =>
        split at h
        · next op result hi =>
          cases h
          exact .resolved p queue m i rest hp op result hi
        · cases h
      · cases h
  | giveUp p =>
      simp only [Messaging.step] at h
      split at h
      · cases h
        exact .quiet p _ .idle (Or.inl rfl)
      · cases h
  | delete p acknowledged =>
      simp only [Messaging.step] at h
      split at h
      · next queue m rest hp =>
        cases h
        refine .deleted p queue m rest hp _ ?_ _
        cases acknowledged with
        | false => exact Or.inl rfl
        | true => exact Or.inr ⟨rest, rfl⟩
      · cases h
  | shop label =>
      rcases Option.map_eq_some_iff.mp h with ⟨shop, hshop, rfl⟩
      exact .shop label shop hshop

/-! ## The record of messages -/

/-- The commit records the message `m`. -/
def records (m : Uuid) (c : ShopCommit) : Bool := (lastProcessed c.tx.writes m).isSome

/-- The commit is of a unit of work that handled the message `m`. -/
def handles (m : Uuid) (c : ShopCommit) : Bool :=
  (c.op.messageId.bind IdText.stored?) = some m

/-- The commit handled the message `m` and wrote something. -/
def effects (m : Uuid) (c : ShopCommit) : Bool := handles m c && !c.tx.writes.isEmpty

/-- What holds of the record of messages and the commits so far. -/
structure RecordInvariant (start db : Db) (log : List ShopCommit) : Prop where
  recorded : ∀ m, (db.processed.find? m).isSome = true ↔
    (start.processed.find? m).isSome = true ∨ ∃ c ∈ log, records m c = true
  once : ∀ m, (log.filter (records m)).length ≤ 1
  steps : ∀ c ∈ log, RecordStep c.op c.result c.tx c.before
  before : ∀ earlier c later, log = earlier ++ c :: later → ∀ m,
    (c.before.processed.find? m).isSome = true ↔
      (start.processed.find? m).isSome = true ∨ ∃ e ∈ earlier, records m e = true

theorem RecordInvariant.start (db : Db) : RecordInvariant db db [] where
  recorded := by simp
  once := by simp
  steps := by simp
  before := by
    intro earlier c later hsplit
    simp at hsplit

section Commits

variable {start db : Db} {log : List ShopCommit} {op : Op} {result : Outcome} {tx : ShopTx} {i : ℕ}

/-- What was recorded stays, and a commit adds what it records. -/
theorem recorded_after (m : Uuid) (c : ShopCommit) :
    ((c.after postgres).processed.find? m).isSome = true ↔
      (c.before.processed.find? m).isSome = true ∨ records m c = true := by
  unfold Commit.after
  rw [applyAll_processed, Option.isSome_or, Bool.or_eq_true]
  exact Or.comm

/-- A commit records only what was not recorded. -/
theorem isNew_of_records (h : RecordStep op result tx db) {m : Uuid}
    (hm : records m ⟨i, op, result, tx, db⟩ = true) : db.processed.find? m = none := by
  have hsome : (lastProcessed tx.writes m).isSome = true := hm
  cases h with
  | none _ hnone =>
      rw [hnone m] at hsome
      cases hsome
  | duplicate id m' _ _ _ hw _ =>
      rw [hw] at hsome
      cases hsome
  | recorded id m' _ _ hnew hproc _ =>
      rw [(hproc m).mp hsome]
      exact hnew

theorem RecordInvariant.commit (h : RecordInvariant start db log)
    (hstep : RecordStep op result tx db) :
    RecordInvariant start (postgres.applyAll db tx.writes) (log ++ [⟨i, op, result, tx, db⟩]) := by
  constructor
  · intro m
    refine (recorded_after m ⟨i, op, result, tx, db⟩).trans ?_
    rw [h.recorded m]
    simp only [List.mem_append, List.mem_singleton, or_and_right, exists_or, exists_eq_left, or_assoc]
  · intro m
    rw [List.filter_append, List.length_append]
    cases hm : records m ⟨i, op, result, tx, db⟩ with
    | false =>
        have hold := h.once m
        simpa [List.filter_cons, hm] using hold
    | true =>
        -- the id is new, so no commit before recorded it
        have hnew := isNew_of_records hstep hm
        have hnone : log.filter (records m) = [] := by
          rw [List.filter_eq_nil_iff]
          intro c hc hrec
          have hsome := (h.recorded m).mpr (Or.inr ⟨c, hc, hrec⟩)
          rw [hnew] at hsome
          cases hsome
        simp [hnone, hm]
  · intro c hc
    rcases List.mem_append.mp hc with hc | hc
    · exact h.steps c hc
    · rw [List.mem_singleton.mp hc]
      exact hstep
  · intro earlier c later hsplit m
    rcases split_snoc hsplit with ⟨rfl, rfl⟩ | ⟨rest, hlog⟩
    · exact h.recorded m
    · exact h.before earlier c rest hlog m

/-- A commit that handled `m` found it recorded and wrote nothing, or recorded it. -/
theorem duplicate_or_recorded (h : RecordStep op result tx db) {m : Uuid}
    (hm : handles m ⟨i, op, result, tx, db⟩ = true) :
    ((db.processed.find? m).isSome = true ∧ tx.writes = [] ∧ result.handled = some .duplicate) ∨
      (db.processed.find? m = none ∧ records m ⟨i, op, result, tx, db⟩ = true ∧
        (result.handled = some .applied ∨ result.handled = some .ignored)) := by
  have hid : op.messageId.bind IdText.stored? = some m := of_decide_eq_true hm
  cases h with
  | none hno _ =>
      rw [hno] at hid
      cases hid
  | duplicate id m' hop hcol hrec hw hout =>
      rw [hop, Option.bind_some, hcol, Option.some.injEq] at hid
      subst hid
      exact Or.inl ⟨Option.isSome_iff_exists.mpr hrec, hw, hout⟩
  | recorded id m' hop hcol hnew hproc hout =>
      rw [hop, Option.bind_some, hcol, Option.some.injEq] at hid
      subst hid
      refine Or.inr ⟨hnew, (hproc m').mpr rfl, ?_⟩
      rcases hout with happlied | ⟨hignored, -⟩
      · exact Or.inl happlied
      · exact Or.inr hignored

/-- A message whose handling committed is recorded. -/
theorem RecordInvariant.handled (h : RecordInvariant start db log) {c : ShopCommit} (hc : c ∈ log)
    {m : Uuid} (hm : handles m c = true) : (db.processed.find? m).isSome = true := by
  rcases List.append_of_mem hc with ⟨earlier, later, hsplit⟩
  rcases duplicate_or_recorded (i := c.session) (h.steps c hc) hm with ⟨hbefore, -⟩ | ⟨-, hrec, -⟩
  · rcases (h.before earlier c later hsplit m).mp hbefore with hstart | ⟨e, he, hrec⟩
    · exact (h.recorded m).mpr (Or.inl hstart)
    · refine (h.recorded m).mpr (Or.inr ⟨e, ?_, hrec⟩)
      rw [hsplit]
      exact List.mem_append_left _ he
  · exact (h.recorded m).mpr (Or.inr ⟨c, hc, hrec⟩)

end Commits

/-- The record of messages in every reachable state of the service. -/
theorem reachable_record {db : Db} {nextId : ℕ} {s : ShopSys}
    (h : ShopReachable .none (.start db nextId) s) : RecordInvariant db s.db s.log := by
  refine h.log_induction (shop_relyGuarantee .none) rfl (.start db) ?_
  intro db' log i op result tx hinv _ hQ
  exact hinv.commit hQ.record

/-! ## What a poller knows -/

/-- The id in the body of a message is recorded. -/
def Recorded (db : Db) (body : MessageBody) : Prop :=
  ∃ envelope m, parseEnvelope body = some envelope ∧
    (IdText.read envelope.messageId).stored? = some m ∧ (db.processed.find? m).isSome = true

/-- What a poller has established about the message in its hands. -/
def Poller.Knows (shop : ShopSys) (poller : Poller) : Prop :=
  match poller.state with
  | .handling m i _ => ∃ envelope traceparent op t, parseEnvelope m.body = some envelope ∧
      poller.queue.handler envelope traceparent = .ok op ∧
      shop.sessions[i]? = some t ∧ t.op = op
  | .resolved m _ => Recorded shop.db m.body
  | _ => True

/-- A handler starts a unit of work for the message it is given. -/
theorem PolledQueue.handler_messageId {queue : PolledQueue} {envelope : MessageEnvelope}
    {traceparent : Option String} {op : Op} (h : queue.handler envelope traceparent = .ok op) :
    op.messageId = some (IdText.read envelope.messageId) := by
  have hreply : SagaReplyHandler.handle envelope traceparent = .ok op →
      op.messageId = some (IdText.read envelope.messageId) := by
    intro h
    unfold SagaReplyHandler.handle at h
    split at h
    · cases h
    · cases h
      rfl
  have hcommand : FailedCommandHandler.handle envelope traceparent = .ok op →
      op.messageId = some (IdText.read envelope.messageId) := by
    intro h
    unfold FailedCommandHandler.handle at h
    split at h
    · cases h
    · cases h
      rfl
  cases queue with
  | sagaReplies => exact hreply h
  | billingCommandsDlq => exact hcommand h
  | executionCommandsDlq => exact hcommand h

/-- What is recorded stays recorded, whatever the service does. -/
theorem recorded_of_step {s s' : ShopSys} {l : Label Op}
    (h : s.step postgres program l = some s') {m : Uuid}
    (hm : (s.db.processed.find? m).isSome = true) : (s'.db.processed.find? m).isSome = true := by
  cases move_of_step (s.allowed_none postgres l) h with
  | commit i op result tx hi =>
      exact (recorded_after m ⟨i, op, result, tx, s.db⟩).mpr (Or.inl hm)
  | _ => exact hm

theorem Poller.Knows.step {s s' : ShopSys} {l : Label Op} {poller : Poller}
    (hk : poller.Knows s) (h : s.step postgres program l = some s') : poller.Knows s' := by
  rcases poller with ⟨queue, state⟩
  cases state with
  | idle => trivial
  | batch messages => trivial
  | handling m i rest =>
      rcases hk with ⟨envelope, traceparent, op, t, hparsed, hhandler, hi, hop⟩
      rcases session_op_of_step h hi with ⟨t', hi', hop'⟩
      exact ⟨envelope, traceparent, op, t', hparsed, hhandler, hi', hop'.trans hop⟩
  | resolved m rest =>
      rcases hk with ⟨envelope, id, hparsed, hcol, hrec⟩
      exact ⟨envelope, id, hparsed, hcol, recorded_of_step h hrec⟩

/-! ## Every run -/

/-- The service on the tables `db`, with empty queues. -/
def Messaging.start (db : Db := {}) (nextId : ℕ := 0) : Messaging where
  shop := .start db nextId

/-- What holds in every reachable state. -/
structure MessagingInvariant (start : ShopSys) (s : Messaging) : Prop where
  shop : ShopReachable .none start s.shop
  pollers : ∀ poller ∈ s.pollers, poller.Knows s.shop
  deletions : ∀ d ∈ s.deletions, Recorded d.before d.message.body

/-- Giving poller `p` a state that it knows to be right. -/
theorem pollers_poll {s : Messaging} {p : ℕ} {poller : Poller} {shop : ShopSys}
    (h : ∀ x ∈ s.pollers, x.Knows shop) (hp : poller.Knows shop) :
    ∀ x ∈ (s.poll p poller).pollers, x.Knows shop := by
  intro x hx
  rcases List.mem_or_eq_of_mem_set hx with hx | rfl
  · exact h x hx
  · exact hp

theorem knows_quiet {shop : ShopSys} {queue : PolledQueue} {state : PollerState}
    (h : state = .idle ∨ ∃ messages, state = .batch messages) :
    Poller.Knows shop { queue, state } := by
  rcases h with rfl | ⟨messages, rfl⟩
  · trivial
  · trivial

/-- A handler whose unit of work committed has its message recorded. -/
theorem recorded_of_committed {db : Db} {nextId : ℕ} {shop : ShopSys}
    (h : ShopReachable .none (.start db nextId) shop) {i : ℕ} {op : Op} {result : Outcome}
    (hi : shop.sessions[i]? = some (.committed op result)) {envelope : MessageEnvelope}
    {body : MessageBody} (hparsed : parseEnvelope body = some envelope)
    (hop : op.messageId = some (IdText.read envelope.messageId)) : Recorded shop.db body := by
  -- the session is in the log
  have hmem : (op, result) ∈ shop.sessions.filterMap Session.completed? :=
    List.mem_filterMap.mpr ⟨_, List.mem_of_getElem? hi, rfl⟩
  have hlogged := (h.completed_perm rfl rfl).mem_iff.mpr hmem
  rcases List.mem_map.mp hlogged with ⟨c, hc, heq⟩
  have hcop : c.op = op := congrArg Prod.fst heq
  have hinv := reachable_record h
  -- and what its commit did to the record is about the id of the envelope
  have hid : c.op.messageId = some (IdText.read envelope.messageId) := hcop.symm ▸ hop
  have hcolumn : ∃ m, (IdText.read envelope.messageId).stored? = some m := by
    cases hinv.steps c hc with
    | none hno _ =>
        rw [hno] at hid
        cases hid
    | duplicate id m hid' hcol _ _ _ =>
        rw [hid', Option.some.injEq] at hid
        exact ⟨m, hid ▸ hcol⟩
    | recorded id m hid' hcol _ _ _ =>
        rw [hid', Option.some.injEq] at hid
        exact ⟨m, hid ▸ hcol⟩
  rcases hcolumn with ⟨m, hm⟩
  have hhandles : handles m c = true := by
    simp [handles, hid, hm]
  exact ⟨envelope, m, hparsed, hm, hinv.handled hc hhandles⟩

theorem MessagingInvariant.move {db : Db} {nextId : ℕ} {s s' : Messaging}
    (h : MessagingInvariant (.start db nextId) s) (hmove : MessagingMove s s') :
    MessagingInvariant (.start db nextId) s' := by
  have hshop : ∀ {l : Label Op} {shop : ShopSys}, s.shop.step postgres program l = some shop →
      ShopReachable .none (.start db nextId) shop ∧ ∀ x ∈ s.pollers, x.Knows shop := by
    intro l shop hstep
    refine ⟨.step l h.shop (s.shop.allowed_none postgres l) hstep, ?_⟩
    intro x hx
    exact (h.pollers x hx).step hstep
  cases hmove with
  | queues queued sent => exact ⟨h.shop, h.pollers, h.deletions⟩
  | start queue =>
      refine ⟨h.shop, ?_, h.deletions⟩
      intro x hx
      rcases List.mem_append.mp hx with hx | hx
      · exact h.pollers x hx
      · rw [List.mem_singleton.mp hx]
        trivial
  | quiet p queue state hstate =>
      exact ⟨h.shop, pollers_poll h.pollers (knows_quiet hstate), h.deletions⟩
  | began p queue m rest envelope traceparent op hparsed hhandler shop hlaunched =>
      rcases hshop hlaunched with ⟨hreach, hpollers⟩
      refine ⟨hreach, pollers_poll hpollers ?_, h.deletions⟩
      -- the session it started is the last one
      cases hlaunched
      exact ⟨envelope, traceparent, op, .running op (program op) {}, hparsed, hhandler, by simp, rfl⟩
  | resolved p queue m i rest hp op result hi =>
      rcases h.pollers _ (List.mem_of_getElem? hp)
        with ⟨envelope, traceparent, op', t, hparsed, hhandler, ht, hop⟩
      rw [hi, Option.some.injEq] at ht
      subst ht
      have hop' : op = op' := hop
      subst hop'
      have hrec := recorded_of_committed h.shop hi hparsed (PolledQueue.handler_messageId hhandler)
      exact ⟨h.shop, pollers_poll h.pollers hrec, h.deletions⟩
  | deleted p queue m rest hp state hstate queued =>
      have hrec : Recorded s.shop.db m.body := h.pollers _ (List.mem_of_getElem? hp)
      refine ⟨h.shop, pollers_poll h.pollers (knows_quiet hstate), ?_⟩
      intro d hd
      rcases List.mem_append.mp hd with hd | hd
      · exact h.deletions d hd
      · rw [List.mem_singleton.mp hd]
        exact hrec
  | shop label shop hstep =>
      rcases hshop hstep with ⟨hreach, hpollers⟩
      exact ⟨hreach, hpollers, h.deletions⟩

theorem reachable_messaging {db : Db} {nextId : ℕ} {s : Messaging}
    (h : MessagingReachable (.start db nextId) s) : MessagingInvariant (.start db nextId) s := by
  induction h with
  | init => exact ⟨.init, by simp [Messaging.start], by simp [Messaging.start]⟩
  | step l _ hstep ih => exact ih.move (messagingMove_of_step hstep)

/-- The message `m` in the commits of a run: one of them at most records it,
one at most has an effect, and which one that is depends on nothing but the
commits before it. -/
structure TakesEffectOnce (start : Db) (log : List ShopCommit) (m : Uuid) : Prop where
  recorded : (log.filter (records m)).length ≤ 1
  effect : (log.filter (effects m)).length ≤ 1
  first : ∀ earlier c later, log = earlier ++ c :: later → handles m c = true →
    start.processed.find? m = none → (∀ e ∈ earlier, records m e = false) →
      records m c = true ∧
        (c.result.handled = some .applied ∨ c.result.handled = some .ignored)
  repeated : ∀ earlier c later, log = earlier ++ c :: later → handles m c = true →
    (∃ e ∈ earlier, records m e = true) →
      c.tx.writes = [] ∧ c.result.handled = some .duplicate

theorem RecordInvariant.once_each {start db : Db} {log : List ShopCommit}
    (h : RecordInvariant start db log) (m : Uuid) : TakesEffectOnce start log m where
  recorded := h.once m
  effect := by
    -- a commit with an effect records the message
    have hsub : (log.filter (effects m)).Sublist (log.filter (records m)) := by
      have heq : log.filter (effects m) = (log.filter (records m)).filter (effects m) := by
        rw [List.filter_filter]
        apply List.filter_congr
        intro c hc
        cases hm : effects m c with
        | false => rfl
        | true =>
            simp only [effects, Bool.and_eq_true, Bool.not_eq_true'] at hm
            rcases duplicate_or_recorded (i := c.session) (h.steps c hc) hm.1 with ⟨-, hw, -⟩ | ⟨-, hrec, -⟩
            · rw [hw] at hm
              exact absurd hm.2 (by simp)
            · exact hrec.symm
      rw [heq]
      exact List.filter_sublist
    exact hsub.length_le.trans (h.once m)
  first := by
    intro earlier c later hsplit hm hstart hnone
    have hc : c ∈ log := by
      rw [hsplit]
      exact List.mem_append_right _ List.mem_cons_self
    rcases duplicate_or_recorded (i := c.session) (h.steps c hc) hm with ⟨hbefore, -, -⟩ | ⟨-, hrec, hout⟩
    · exfalso
      rcases (h.before earlier c later hsplit m).mp hbefore with hsome | ⟨e, he, hrec⟩
      · rw [hstart] at hsome
        cases hsome
      · rw [hnone e he] at hrec
        cases hrec
    · exact ⟨hrec, hout⟩
  repeated := by
    intro earlier c later hsplit hm hearlier
    have hc : c ∈ log := by
      rw [hsplit]
      exact List.mem_append_right _ List.mem_cons_self
    have hbefore := (h.before earlier c later hsplit m).mpr (Or.inr hearlier)
    rcases duplicate_or_recorded (i := c.session) (h.steps c hc) hm with ⟨-, hw, hout⟩ | ⟨hnew, -, -⟩
    · exact ⟨hw, hout⟩
    · rw [hnew] at hbefore
      cases hbefore

/-- In every run, whatever is received again, duplicated, given up or lost:
every message takes effect once; a unit of work that throws commits nothing,
and a message is recorded when one that handled it committed, and only then;
and a message that was deleted from its queue was recorded by then. -/
theorem messages_take_effect_once {db : Db} {nextId : ℕ} {s : Messaging}
    (h : MessagingReachable (.start db nextId) s) :
    (∀ m, TakesEffectOnce db s.shop.log m) ∧
    (∀ i op e, s.shop.sessions[i]? = some (.aborted op e) → ∀ c ∈ s.shop.log, c.session ≠ i) ∧
    (∀ m, (s.shop.db.processed.find? m).isSome = true ↔
      (db.processed.find? m).isSome = true ∨ ∃ c ∈ s.shop.log, records m c = true) ∧
    ∀ d ∈ s.deletions, Recorded d.before d.message.body := by
  have hinv := reachable_messaging h
  have hrecord := reachable_record hinv.shop
  refine ⟨hrecord.once_each, ?_, hrecord.recorded, hinv.deletions⟩
  intro i op e hi c hc heq
  have hcommitted := hinv.shop.logged_session rfl c hc
  rw [heq, hi] at hcommitted
  cases hcommitted

theorem messagingReachable_of_play {init s s' : Messaging} {ls : List MessagingLabel}
    (hs : MessagingReachable init s) (h : s.play ls = some s') : MessagingReachable init s' := by
  induction ls generalizing s with
  | nil =>
      cases h
      exact hs
  | cons l ls ih =>
      rcases Option.bind_eq_some_iff.mp h with ⟨s₁, hstep, hrest⟩
      exact ih (.step l hs hstep) hrest

/-- The reply that the diagnosis of order 4 is completed. -/
def diagnosisCompletedBody : MessageBody :=
  some (.obj [("messageId", .str "00000000-0000-0000-0000-000000000066"),
    ("type", .str "DiagnosisCompleted"),
    ("serviceOrderId", .str "00000000-0000-0000-0000-000000000004"),
    ("occurredAt", .str "2026-10-31T10:00:00.000Z"), ("payload", .obj [])])

/-- The reply is sent twice. Two pollers receive the first copy and start on it
at once; the one that carries it out crashes before it deletes it, and the
other finds it recorded and deletes both copies. -/
def redeliveredMoves : List MessagingLabel :=
  List.flatten [
    [.send .sagaReplies diagnosisCompletedBody, .send .sagaReplies diagnosisCompletedBody,
      .start .sagaReplies, .start .sagaReplies, .receive 0 [0], .receive 1 [0, 1], .take 0 none,
      .take 1 none, .shop (.advance 1)],
    List.replicate 19 (.shop (.advance 0)),
    [.resolve 0, .giveUp 0],
    List.replicate 2 (.shop (.advance 1)),
    [.resolve 1, .delete 1 true, .take 1 none],
    List.replicate 3 (.shop (.advance 2)),
    [.resolve 1, .delete 1 true]]

theorem redelivered_message_takes_effect_once : ∃ s,
    (Messaging.start sharedItem.db sharedItem.nextId).play redeliveredMoves = some s ∧
    s.shop.log.map (fun c => c.result.handled)
      = [some .applied, some .duplicate, some .duplicate] ∧
    s.deletions.map (fun d => d.message.receipt) = [0, 1] ∧
    (∀ m, TakesEffectOnce sharedItem.db s.shop.log m) ∧
    (∀ i op e, s.shop.sessions[i]? = some (.aborted op e) → ∀ c ∈ s.shop.log, c.session ≠ i) ∧
    (∀ m, (s.shop.db.processed.find? m).isSome = true ↔
      (sharedItem.db.processed.find? m).isSome = true ∨
        ∃ c ∈ s.shop.log, records m c = true) ∧
    ∀ d ∈ s.deletions, Recorded d.before d.message.body := by
  have hplay : ((Messaging.start sharedItem.db sharedItem.nextId).play redeliveredMoves).map
      (fun s => (s.shop.log.map (fun c => c.result.handled),
        s.deletions.map (fun d => d.message.receipt)))
      = some ([some .applied, some .duplicate, some .duplicate], [0, 1]) := by
    decide +kernel
  rcases Option.map_eq_some_iff.mp hplay with ⟨s, hs, hfacts⟩
  rw [Prod.mk.injEq] at hfacts
  refine ⟨s, hs, hfacts.1, hfacts.2, ?_⟩
  exact messages_take_effect_once (messagingReachable_of_play .init hs)

end CarRepairShop
