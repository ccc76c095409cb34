import CarRepairShop.History

/-! # The outbox is a function of the status path

Whatever messages were handled, and in whatever interleaving, the commands
stored for an order are those its path obliges to (`commandsAlong`), in the
order of the path. The counts and the exclusions follow from there by looking
at the twelve paths an order can take (`lives`).
-/

namespace CarRepairShop

open Lib Txn

/-! ## Paths and their edges -/

/-- The moves of a path, with the opening as the first. -/
def edges (path : List OSStatus) : List (Option OSStatus × OSStatus) :=
  (none :: path.map some).zip path

/-- The rows of a history are the moves of its path. -/
theorem Chain.edges {history : List StatusChange} {status : OSStatus}
    (h : Chain none history status) :
    history.map (fun c => (c.fromStatus, c.toStatus)) = edges (pathOf history) := by
  have hall : ∀ {previous : Option OSStatus} {history : List StatusChange} {status : OSStatus},
      Chain previous history status → history.map (fun c => (c.fromStatus, c.toStatus))
        = (previous :: (pathOf history).map some).zip (pathOf history) := by
    intro previous history status h
    induction h with
    | last previous change hc => simp [pathOf, hc]
    | cons previous change rest status hc _ ih =>
        rw [List.map_cons, ih]
        simp [pathOf, hc]
  exact hall h

/-- One more status on a path obliges to the commands of the move to it. -/
theorem commandsAlong_move {path : List OSStatus} {a b : OSStatus} (ha : path.getLast? = some a) :
    commandsAlong (path ++ [b]) = commandsAlong path ++ commandsOn a b := by
  have hpath : path.dropLast ++ [a] = path := List.dropLast_append_getLast? a ha
  have hsnoc := commandsAlong_snoc path.dropLast a b
  rw [hpath] at hsnoc
  rw [← hsnoc]
  congr 1
  conv_lhs => rw [← hpath]
  rw [List.append_assoc]
  rfl

/-! ## What the path obliges to -/

/-- `CANCELLED` was reached from `a`. -/
def cancelledFrom (row : OrderRow) (a : OSStatus) : Prop :=
  ∃ c ∈ row.history, c.fromStatus = some a ∧ c.toStatus = .cancelled

/-- The order came to a status where the diagnosis is called off. -/
def callsOffDiagnosis (row : OrderRow) : Prop :=
  row.status = .rejected ∨ cancelledFrom row .waitingApproval ∨ cancelledFrom row .approved

/-- The commands `sent` are exactly those that the history of `row` asks for. -/
structure CommandsMatch (row : OrderRow) (sent : List SagaCommandType) : Prop where
  enqueueDiagnosis : sent.count .enqueueDiagnosis = 1
  generateBudget : sent.count .generateBudget ≤ 1 ∧
    (.generateBudget ∈ sent ↔ .waitingApproval ∈ pathOf row.history)
  requestPayment : sent.count .requestPayment ≤ 1 ∧
    (.requestPayment ∈ sent ↔ .approved ∈ pathOf row.history)
  enqueueRepair : sent.count .enqueueRepair ≤ 1 ∧
    (.enqueueRepair ∈ sent ↔ .paid ∈ pathOf row.history)
  cancelExecution : sent.count .cancelExecution ≤ 1 ∧
    (.cancelExecution ∈ sent ↔ callsOffDiagnosis row)
  cancelBudget : sent.count .cancelBudget ≤ 1 ∧
    (.cancelBudget ∈ sent ↔ cancelledFrom row .approved)
  exclusive : .enqueueRepair ∈ sent → .cancelExecution ∉ sent ∧ .cancelBudget ∉ sent

theorem OrderRow.Accounted.cancelledFrom_iff {row : OrderRow} (h : row.Accounted) (a : OSStatus) :
    cancelledFrom row a ↔ (some a, OSStatus.cancelled) ∈ edges (pathOf row.history) := by
  rw [← h.chain.edges, List.mem_map]
  constructor
  · rintro ⟨c, hc, hfrom, hto⟩
    exact ⟨c, hc, by rw [hfrom, hto]⟩
  · rintro ⟨c, hc, heq⟩
    rw [Prod.mk.injEq] at heq
    exact ⟨c, hc, heq.1, heq.2⟩

/-- The commands along the path of an order are those its history asks for. -/
theorem OrderRow.Accounted.commandsMatch {row : OrderRow} (h : row.Accounted) :
    CommandsMatch row (.enqueueDiagnosis :: commandsAlong (pathOf row.history)) := by
  have hlast := h.chain.getLast
  have hoff : callsOffDiagnosis row ↔ (pathOf row.history).getLast? = some .rejected ∨
      (some .waitingApproval, .cancelled) ∈ edges (pathOf row.history) ∨
      (some .approved, .cancelled) ∈ edges (pathOf row.history) := by
    unfold callsOffDiagnosis
    rw [h.cancelledFrom_iff, h.cancelledFrom_iff, hlast, Option.some.injEq]
  have hfrom := h.cancelledFrom_iff .approved
  -- twelve paths, each looked at once
  have hall : ∀ path ∈ lives,
      (SagaCommandType.enqueueDiagnosis :: commandsAlong path).count .enqueueDiagnosis = 1 ∧
      (∀ type ∈ sagaCommandTypes,
        (SagaCommandType.enqueueDiagnosis :: commandsAlong path).count type ≤ 1) ∧
      (.generateBudget ∈ commandsAlong path ↔ OSStatus.waitingApproval ∈ path) ∧
      (.requestPayment ∈ commandsAlong path ↔ OSStatus.approved ∈ path) ∧
      (.enqueueRepair ∈ commandsAlong path ↔ OSStatus.paid ∈ path) ∧
      (.cancelExecution ∈ commandsAlong path ↔ path.getLast? = some .rejected ∨
        (some OSStatus.waitingApproval, OSStatus.cancelled) ∈ edges path ∨
        (some OSStatus.approved, OSStatus.cancelled) ∈ edges path) ∧
      (.cancelBudget ∈ commandsAlong path ↔
        (some OSStatus.approved, OSStatus.cancelled) ∈ edges path) ∧
      (.enqueueRepair ∈ commandsAlong path →
        .cancelExecution ∉ commandsAlong path ∧ .cancelBudget ∉ commandsAlong path) := by
    decide
  obtain ⟨hone, hmost, hbudget, hpayment, hrepair, hexecution, hcancel, hexclusive⟩ :=
    hall _ h.path
  constructor
  · exact hone
  · exact ⟨hmost _ (by decide), by simpa using hbudget⟩
  · exact ⟨hmost _ (by decide), by simpa using hpayment⟩
  · exact ⟨hmost _ (by decide), by simpa using hrepair⟩
  · refine ⟨hmost _ (by decide), ?_⟩
    rw [hoff]
    simpa using hexecution
  · refine ⟨hmost _ (by decide), ?_⟩
    rw [hfrom]
    simpa using hcancel
  · simpa using hexclusive

/-! ## One commit -/

/-- The types of the commands stored for order `o`, oldest first. -/
def Db.commandsOf (db : Db) (o : Uuid) : List SagaCommandType :=
  (db.outbox.filter fun m => m.serviceOrderId = o).map (·.type)

/-- A cancel command says why, with the reason of the operation. -/
def GivesReason (op : Op) (m : OutboxRow) : Prop :=
  m.type = .cancelExecution ∨ m.type = .cancelBudget →
    ∃ why, op.reason = some why ∧ m.payload = .reason why

section Step

variable {R : List Write → Db → Db → Prop} {G : ShopTx → Stmt → Db → Prop}
variable {op : Op} {tx : ShopTx} {db : Db} {log : List ShopCommit}

section Commands

variable {r : OrderRow} {reason : Option CompensationReason} {messages : List OutboxRow}
variable {types : List SagaCommandType} (h : List.Forall₂ (IsCommand r reason) messages types)

include h

theorem commands_types : messages.map (·.type) = types := by
  induction h with
  | nil => rfl
  | cons hm _ ih => rw [List.map_cons, hm.isType, ih]

theorem commands_destinations : messages.map (·.destination) = types.map queueOf := by
  induction h with
  | nil => rfl
  | cons hm _ ih => rw [List.map_cons, List.map_cons, hm.destination, ih]

theorem commands_each : ∀ m ∈ messages, ∃ type, IsCommand r reason m type := by
  intro m hm
  induction h with
  | nil => cases hm
  | cons hhead _ ih =>
      rcases List.mem_cons.mp hm with rfl | hm
      · exact ⟨_, hhead⟩
      · exact ih hm

end Commands

/-- The commands of one move go to different queues. -/
theorem commandsTo_queues (a : OSStatus) (b : Option OSStatus) :
    ((commandsTo a b).map queueOf).Nodup := by
  cases b with
  | none => exact List.nodup_nil
  | some b => cases a <;> cases b <;> decide

theorem IsCommand.givesReason {r : OrderRow} {m : OutboxRow} {type : SagaCommandType}
    (h : IsCommand r op.reason m type) : GivesReason op m := by
  have hpayload := h.payload
  intro hcancel
  rw [h.isType] at hcancel
  rcases hcancel with rfl | rfl
  · exact hpayload
  · exact hpayload

/-- What is true of every message a commit stores. -/
theorem OrderStep.stored_each (h : OrderStep R G op tx db) : ∀ m ∈ stored tx.writes,
    m.destination = queueOf m.type ∧ GivesReason op m := by
  intro m hm
  cases h with
  | quiet _ hstored _ _ =>
      rw [hstored] at hm
      cases hm
  | opened input o row message hopen =>
      rw [hopen.stored, List.mem_singleton] at hm
      subst hm
      have htype : m.type = .enqueueDiagnosis := hopen.carries.type
      constructor
      · rw [hopen.carries.destination, htype]
        rfl
      · intro hcancel
        rw [htype] at hcancel
        rcases hcancel with hcancel | hcancel <;> cases hcancel
  | updated o data expected r₀ r₁ hcommit _ hstored _ _ =>
      rcases commands_each hstored m hm with ⟨type, hcommand⟩
      constructor
      · rw [hcommand.destination, hcommand.isType]
      · exact hcommand.givesReason

/-- No transaction stores two messages for one queue. -/
theorem OrderStep.stored_apart (h : OrderStep R G op tx db) :
    ((stored tx.writes).map (·.destination)).Nodup := by
  cases h with
  | quiet _ hstored _ _ =>
      rw [hstored]
      exact List.nodup_nil
  | opened input o row message hopen =>
      rw [hopen.stored]
      exact List.nodup_singleton _
  | updated o data expected r₀ r₁ hcommit _ hstored _ _ =>
      rw [commands_destinations hstored]
      exact commandsTo_queues _ _

/-- The messages a commit stores for an order: none, unless it writes it. -/
theorem OrderStep.commandsOf (h : OrderStep R G op tx db) (o : Uuid) :
    (lastOrder tx.writes o = none ∧
      (postgres.applyAll db tx.writes).commandsOf o = db.commandsOf o) ∨
    (∃ input row message, OrderOpened R input o row message tx db ∧
      (postgres.applyAll db tx.writes).commandsOf o = db.commandsOf o ++ [.enqueueDiagnosis]) ∨
    ∃ data expected r₀ r₁, OrderCommit o data expected r₀ r₁ tx db ∧
      (∀ b, data.status = some b → canTransition r₀.status b = true) ∧
      (postgres.applyAll db tx.writes).commandsOf o
        = db.commandsOf o ++ commandsTo r₀.status data.status := by
  have happly : (postgres.applyAll db tx.writes).commandsOf o = db.commandsOf o ++
      ((stored tx.writes).filter fun m => m.serviceOrderId = o).map (·.type) := by
    unfold Db.commandsOf
    rw [applyAll_outbox, List.filter_append, List.map_append]
  cases h with
  | quiet horders hstored _ _ =>
      refine Or.inl ⟨horders o, ?_⟩
      rw [happly, hstored]
      simp
  | opened input o' row message hopen =>
      have horder := hopen.carries.order
      by_cases ho : o = o'
      · subst ho
        refine Or.inr (Or.inl ⟨input, row, message, hopen, ?_⟩)
        rw [happly, hopen.stored]
        simp [horder, hopen.carries.type]
      · refine Or.inl ⟨hopen.others o ho, ?_⟩
        rw [happly, hopen.stored]
        simp [horder, Ne.symm ho]
  | updated o' data expected r₀ r₁ hcommit hlegal hstored _ _ =>
      have hid : r₀.id = o' := order_id hcommit.found
      by_cases ho : o = o'
      · subst ho
        refine Or.inr (Or.inr ⟨data, expected, r₀, r₁, hcommit, hlegal, ?_⟩)
        have hmine : (stored tx.writes).filter (fun m => m.serviceOrderId = o) = stored tx.writes := by
          rw [List.filter_eq_self]
          intro m hm
          rcases commands_each hstored m hm with ⟨type, hcommand⟩
          simp [hcommand.order, hid]
        rw [happly, hmine, commands_types hstored]
      · refine Or.inl ⟨hcommit.others o ho, ?_⟩
        have hnone : (stored tx.writes).filter (fun m => m.serviceOrderId = o) = [] := by
          rw [List.filter_eq_nil_iff]
          intro m hm
          rcases commands_each hstored m hm with ⟨type, hcommand⟩
          simp [hcommand.order, hid, Ne.symm ho]
        rw [happly, hnone]
        simp

/-! ## A move of an order -/

/-- The commit stores the command `type` about order `o`. -/
def Sends (c : ShopCommit) (o : Uuid) (type : SagaCommandType) : Prop :=
  ∃ m ∈ stored c.tx.writes, m.serviceOrderId = o ∧ m.type = type

/-- The commit takes order `o` from `r₀` to `r₁`, in another status. -/
structure Moves (c : ShopCommit) (o : Uuid) (r₀ r₁ : OrderRow) : Prop where
  before : c.before.orders.find? o = some r₀
  after : (c.after postgres).orders.find? o = some r₁
  status : r₁.status ≠ r₀.status

/-- A commit that moves an order writes it, claims it, and sends the commands
of the move. -/
theorem OrderStep.moves (h : OrderStep R G op tx db) {result : Outcome} {i : ℕ} {o : Uuid} {r₀ r₁ : OrderRow}
    (hm : Moves ⟨i, op, result, tx, db⟩ o r₀ r₁) :
    lastOrder tx.writes o = some r₁ ∧ canTransition r₀.status r₁.status = true ∧
      (∃ cl ∈ claims tx.trace, cl.order = o) ∧
      ∀ type ∈ commandsOn r₀.status r₁.status, Sends ⟨i, op, result, tx, db⟩ o type := by
  have hbefore : db.orders.find? o = some r₀ := hm.before
  have hafter : (postgres.applyAll db tx.writes).orders.find? o = some r₁ := hm.after
  rw [applyAll_orders, hbefore] at hafter
  have hlast : lastOrder tx.writes o = some r₁ := by
    cases hl : lastOrder tx.writes o with
    | none =>
        rw [hl, Option.none_or, Option.some.injEq] at hafter
        exact absurd (by rw [hafter]) hm.status
    | some r =>
        rw [hl, Option.some_or] at hafter
        exact hafter
  cases h with
  | quiet horders _ _ _ =>
      rw [horders o] at hlast
      cases hlast
  | opened input o' row message hopen =>
      by_cases ho : o = o'
      · subst ho
        -- an order that is opened was not there before
        rw [hopen.isNew] at hbefore
        cases hbefore
      · rw [hopen.others o ho] at hlast
        cases hlast
  | updated o' data expected q₀ q₁ hcommit hlegal hstored _ _ =>
      rcases hcommit.written hlast with ⟨rfl, rfl⟩
      have heq : q₀ = r₀ := Option.some.inj (hcommit.found.symm.trans hbefore)
      subst heq
      have hs := hcommit.revision.status
      cases hd : data.status with
      | none =>
          rw [hd] at hs
          exact absurd hs hm.status
      | some b =>
          rw [hd] at hs hstored
          have hb : r₁.status = b := hs
          rw [hb]
          refine ⟨hlast, hlegal b hd, ⟨_, by rw [hcommit.claims]; exact List.mem_singleton_self _, rfl⟩, ?_⟩
          intro type htype
          -- one message is stored for each command of the move
          have htypes : type ∈ (stored tx.writes).map (·.type) := by
            rw [commands_types hstored]
            exact htype
          rcases List.mem_map.mp htypes with ⟨m, hmem, hmtype⟩
          rcases commands_each hstored m hmem with ⟨type', hcommand⟩
          refine ⟨m, hmem, ?_, hmtype⟩
          rw [hcommand.order]
          exact order_id hcommit.found

/-! ## Every run -/

/-- What holds of the outbox and of the commits so far. -/
structure OutboxInvariant (db : Db) (log : List ShopCommit) : Prop where
  commands : ∀ o row, db.orders.find? o = some row →
    db.commandsOf o = .enqueueDiagnosis :: commandsAlong (pathOf row.history)
  unopened : ∀ o, db.orders.find? o = none → db.commandsOf o = []
  logged : db.outbox = log.flatMap fun c => stored c.tx.writes
  queues : ∀ m ∈ db.outbox, m.destination = queueOf m.type
  reasons : ∀ c ∈ log, ∀ m ∈ stored c.tx.writes, GivesReason c.op m
  apart : ∀ c ∈ log, ((stored c.tx.writes).map (·.destination)).Nodup

theorem OutboxInvariant.start : OutboxInvariant {} [] where
  commands := by
    intro o row h
    cases h
  unopened := by
    intro o _
    rfl
  logged := rfl
  queues := by
    intro m hm
    cases hm
  reasons := by
    intro c hc
    cases hc
  apart := by
    intro c hc
    cases hc

/-- The step: every commit keeps the outbox a function of the paths. -/
theorem OutboxInvariant.commit (h : OutboxInvariant db log) (hh : HistoryInvariant db log)
    (hstep : OrderStep R G op tx db) (i : ℕ) (result : Outcome) :
    OutboxInvariant (postgres.applyAll db tx.writes) (log ++ [⟨i, op, result, tx, db⟩]) := by
  constructor
  · intro o row hrow
    rw [applyAll_orders] at hrow
    rcases hstep.commandsOf o with ⟨hlast, hsame⟩ | ⟨input, row', message, hopen, hmore⟩ |
      ⟨data, expected, r₀, r₁, hcommit, hlegal, hmore⟩
    · rw [hlast, Option.none_or] at hrow
      rw [hsame]
      exact h.commands o row hrow
    · rw [hopen.order, Option.some_or, Option.some.injEq] at hrow
      rcases hopen.history with ⟨t, hhistory⟩
      -- nothing was sent about the order before it was opened
      rw [hmore, h.unopened o hopen.isNew, ← hrow, hhistory]
      rfl
    · rw [hcommit.order, Option.some_or, Option.some.injEq] at hrow
      have hlast := (hh.accounted o r₀ hcommit.found).chain.getLast
      rcases hcommit.revision.history with ⟨t, hhistory⟩
      rw [hmore, h.commands o r₀ hcommit.found, ← hrow, hhistory]
      cases hs : data.status with
      | none => simp [commandsTo, statusChange]
      | some b =>
          -- a move adds one status to the path, and its commands to the outbox
          have hne := canTransition_ne (hlegal b hs)
          have hsnoc : pathOf (r₀.history ++ statusChange r₀.status (some b) t)
              = pathOf r₀.history ++ [b] := by
            simp [pathOf, statusChange, hne]
          rw [hsnoc, commandsAlong_move hlast]
          rfl
  · intro o hnone
    rw [applyAll_orders, Option.or_eq_none_iff] at hnone
    rcases hstep.commandsOf o with ⟨_, hsame⟩ | ⟨input, row', message, hopen, _⟩ |
      ⟨data, expected, r₀, r₁, hcommit, _, _⟩
    · rw [hsame]
      exact h.unopened o hnone.2
    · rw [hopen.order] at hnone
      cases hnone.1
    · rw [hcommit.order] at hnone
      cases hnone.1
  · rw [applyAll_outbox, h.logged, List.flatMap_append]
    simp
  · intro m hm
    rw [applyAll_outbox] at hm
    rcases List.mem_append.mp hm with hm | hm
    · exact h.queues m hm
    · exact (hstep.stored_each m hm).1
  · intro c hc m hm
    rcases List.mem_append.mp hc with hc | hc
    · exact h.reasons c hc m hm
    · rw [List.mem_singleton.mp hc] at hm ⊢
      exact (hstep.stored_each m hm).2
  · intro c hc
    rcases List.mem_append.mp hc with hc | hc
    · exact h.apart c hc
    · rw [List.mem_singleton.mp hc]
      exact hstep.stored_apart

end Step

theorem reachable_outbox {G : ShopGuard} {s : ShopSys} (h : ShopReachable G (.start) s) :
    HistoryInvariant s.db s.log ∧ OutboxInvariant s.db s.log := by
  refine h.log_induction (P := fun db log => HistoryInvariant db log ∧ OutboxInvariant db log)
    (shop_relyGuarantee G) rfl ⟨.start, .start⟩ ?_
  intro db log i op result tx hinv _ hQ
  exact ⟨hinv.1.commit hQ.step i result, hinv.2.commit hinv.1 hQ.step i result⟩

/-- Whatever replies and dead commands were handled, in any number, order and
interleaving: the commands stored for each order are those its history asks
for; each is addressed to the queue of its participant; the outbox holds what
the commits stored and nothing else; a cancel command carries the reason of
the message whose handling stored it; no transaction stores two messages for
one queue. -/
theorem outbox_follows_path {s : ShopSys} (h : ShopReachable .none (.start) s) :
    (∀ o row, s.db.orders.find? o = some row → CommandsMatch row (s.db.commandsOf o)) ∧
    (∀ m ∈ s.db.outbox, m.destination = queueOf m.type) ∧
    (s.db.outbox = s.log.flatMap fun c => stored c.tx.writes) ∧
    (∀ c ∈ s.log, ∀ m ∈ stored c.tx.writes, GivesReason c.op m) ∧
    ∀ c ∈ s.log, ((stored c.tx.writes).map (·.destination)).Nodup := by
  rcases reachable_outbox h with ⟨hhistory, houtbox⟩
  refine ⟨?_, houtbox.queues, houtbox.logged, houtbox.reasons, houtbox.apart⟩
  intro o row hrow
  rw [houtbox.commands o row hrow]
  exact (hhistory.accounted o row hrow).commandsMatch

/-- On a run where the payment of a budgeted order fails. -/
theorem outbox_of_failed_payment : ∃ s row,
    (ShopSys.start).play postgres program .none (openingMoves ++
      replyMoves 5 100 .diagnosisStarted [] 13 ++ replyMoves 6 101 .diagnosisCompleted [] 19 ++
      replyMoves 7 102 .budgetApproved [] 16 ++ replyMoves 8 103 .paymentFailed [] 20) = some s ∧
    s.db.orders.find? 4 = some row ∧ row.status = .cancelled ∧
    CommandsMatch row (s.db.commandsOf 4) := by
  have hplay : (((ShopSys.start).play postgres program .none (openingMoves ++
      replyMoves 5 100 .diagnosisStarted [] 13 ++ replyMoves 6 101 .diagnosisCompleted [] 19 ++
      replyMoves 7 102 .budgetApproved [] 16 ++ replyMoves 8 103 .paymentFailed [] 20)).bind
        fun s => (s.db.orders.find? 4).map (·.status)) = some .cancelled := by
    decide +kernel
  rcases Option.bind_eq_some_iff.mp hplay with ⟨s, hs, hrow⟩
  rcases Option.map_eq_some_iff.mp hrow with ⟨row, hrow, hstatus⟩
  have hmatch := (outbox_follows_path (reachable_of_play .init hs)).1 4 row hrow
  exact ⟨s, row, hs, hrow, hstatus, hmatch⟩

end CarRepairShop
