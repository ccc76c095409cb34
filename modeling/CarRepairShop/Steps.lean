import CarRepairShop.OperationSpecs

/-! # What a commit does to the orders

`Committed` says everything about one commit; the theorems about runs need
less of it. This module boils it down to what a commit can do to the orders
and to the outbox (`OrderStep`), shows that no commit does more to the others
than they rely on (`Committed.advances`), and concludes that the service meets
the rely–guarantee rule (`shop_relyGuarantee`).
-/

namespace CarRepairShop

open Lib Txn

/-- The four line editors. -/
def Op.edits : Op → Bool
  | .addItemToOS .. | .removeItemFromOS .. | .addServiceToOS .. | .removeServiceFromOS .. => true
  | _ => false

/-- The operations on the items of the catalogue. -/
def Op.setsItems : Op → Bool
  | .createItem .. | .updateItem .. | .deleteItem _ => true
  | _ => false

/-- The reason with which an operation cancels what was done. -/
def Op.reason : Op → Option CompensationReason
  | .handle reply _ => ServiceOrderSaga.compensation reply.type
  | .handleFailedCommand .. => some .stepFailed
  | _ => none

/-- The commands of an update that sets the status, or leaves it. -/
def commandsTo (a : OSStatus) : Option OSStatus → List SagaCommandType
  | none => []
  | some b => commandsOn a b

/-- How an update that sets the status, or leaves it, moves the reserved units. -/
def reservedTo (b : Option OSStatus) : ℤ := (b.map reservedOn).getD 0

/-- How it moves the units in stock. -/
def stockedTo (b : Option OSStatus) : ℤ := (b.map stockedOn).getD 0

/-- What a commit does to the orders and to the outbox: nothing, or it opens
one order, or it updates one. An update moves the order along the graph,
stores the commands of that move and moves the stock of its lines; only an
editor replaces lines. -/
inductive OrderStep (R : List Write → Db → Db → Prop) (G : ShopTx → Stmt → Db → Prop) (op : Op)
    (tx : ShopTx) (db : Db) : Prop where
  | quiet (orders : ∀ o, lastOrder tx.writes o = none) (stored : stored tx.writes = [])
      (claims : claims tx.trace = [])
      (items : op.setsItems = true ∨ ∀ i, lastItem tx.writes i = none)
  | opened (input : CreateServiceOrderInput) (o : Uuid) (row : OrderRow) (message : OutboxRow)
      (opening : OrderOpened R input o row message tx db)
  | updated (o : Uuid) (data : ServiceOrderChanges) (expected : Option ℕ) (r₀ r₁ : OrderRow)
      (commit : OrderCommit o data expected r₀ r₁ tx db)
      (legal : ∀ b, data.status = some b → canTransition r₀.status b = true)
      (stored : List.Forall₂ (IsCommand r₀ op.reason) (stored tx.writes)
        (commandsTo r₀.status data.status))
      (budget : data.budgetTotal ≠ none → r₀.status = .waitingApproval)
      (lines : (data.services = none ∧ data.items = none ∧
          Shift tx.writes db (fun i => reservedTo data.status * lineUnits r₀.items i)
            (fun i => stockedTo data.status * lineUnits r₀.items i)) ∨
        op.edits = true ∧ data.status = none ∧
          Was R (fun d => d.orders.find? o = some r₀ ∧ ∃ tx' : ShopTx,
            (∀ o, lastOrder tx'.writes o = none) ∧
              G tx' (.claimVersion o none) (postgres.view tx' d)) db)

section Steps

variable {R : List Write → Db → Db → Prop} {G : ShopTx → Stmt → Db → Prop}
variable {op : Op} {tx : ShopTx} {db : Db}

/-! ## One case for each kind of operation -/

theorem Quiet.step (h : Quiet tx.writes) (hc : claims tx.trace = [])
    (hitems : op.setsItems = true ∨ ∀ i, lastItem tx.writes i = none) : OrderStep R G op tx db :=
  .quiet h.orders h.stored hc hitems

theorem RegistryWrites.quiet {ws : List Write} (h : RegistryWrites ws) : Quiet ws :=
  ⟨h.order, h.stored, h.processed⟩

theorem OnlyRecorded.stored {m : Uuid} (h : OnlyRecorded m tx) : stored tx.writes = [] := by
  rcases h.writes with ⟨row, -, hw⟩
  rw [hw]
  rfl

theorem OnlyRecorded.items {m : Uuid} (h : OnlyRecorded m tx) (i : Uuid) :
    lastItem tx.writes i = none := by
  rcases h.writes with ⟨row, -, hw⟩
  rw [hw]
  rfl

theorem OnlyRecorded.step {m : Uuid} (h : OnlyRecorded m tx) : OrderStep R G op tx db :=
  .quiet h.orders h.stored h.claims (Or.inr h.items)

/-- An editor stores no message. -/
theorem Edited.stored {o : Uuid} {ids : List Uuid} {lines : List ItemLine}
    {data : ServiceOrderChanges} {r₀ r₁ : OrderRow} {itemWrites : List Write}
    (h : Edited R G o ids lines data r₀ r₁ itemWrites tx db) : stored tx.writes = [] := by
  rcases h.writes with ⟨ws, hws, hord⟩
  rw [hws, stored_append, h.itemWrites.1.stored, hord.stored]
  rfl

/-- An editor records no message. -/
theorem Edited.processed {o : Uuid} {ids : List Uuid} {lines : List ItemLine}
    {data : ServiceOrderChanges} {r₀ r₁ : OrderRow} {itemWrites : List Write}
    (h : Edited R G o ids lines data r₀ r₁ itemWrites tx db) (m : Uuid) :
    lastProcessed tx.writes m = none := by
  rcases h.writes with ⟨ws, hws, hord⟩
  rw [hws, lastProcessed, lastOf_append]
  rw [show lastOf (Write.processed? m) ws = none from hord.processed m]
  rw [show lastOf (Write.processed? m) itemWrites = none from h.itemWrites.1.processed m]
  rfl

theorem Edited.step {o : Uuid} {ids : List Uuid} {lines : List ItemLine}
    {data : ServiceOrderChanges} {r₀ r₁ : OrderRow} {itemWrites : List Write}
    (h : Edited R G o ids lines data r₀ r₁ itemWrites tx db) (hop : op.edits = true)
    (hstatus : data.status = none) (hbudget : data.budgetTotal = none) :
    OrderStep R G op tx db := by
  refine .updated o data none r₀ r₁ h.commit ?_ ?_ ?_ ?_
  · intro b hb
    rw [hstatus] at hb
    cases hb
  · rw [h.stored, hstatus]
    exact .nil
  · intro hne
    exact absurd hbudget hne
  -- the editor claimed the version of the row it had read, before any order was written
  · refine Or.inr ⟨hop, hstatus, ?_⟩
    refine h.claimed.imp fun d hd => ?_
    rcases hd with ⟨hfind, tx', hno, -, -, hg⟩
    exact ⟨hfind, tx', hno, hg⟩

/-- A reaction that fits the status it meets is an update of its order. -/
theorem Performed.step {reaction : Reaction} {o m : Uuid} {data : ServiceOrderChanges}
    {r₀ r₁ : OrderRow} (h : Performed R G reaction o m data r₀ r₁ tx db)
    (hreason : reaction.reason = op.reason)
    (hfits : (∀ b, reaction.status = some b →
        canTransition r₀.status b = true ∧ reaction.commands = commandsOn r₀.status b) ∧
      (reaction.status = none → reaction.commands = []))
    (hunits : reaction.reserved = (reaction.status.map reservedOn).getD 0 ∧
      reaction.stocked = (reaction.status.map stockedOn).getD 0)
    (hbudget : data.budgetTotal ≠ none → r₀.status = .waitingApproval) :
    OrderStep R G op tx db := by
  -- the units a reaction moves are those of the status it sets
  have hshift : Shift tx.writes db (fun i => reservedTo data.status * lineUnits r₀.items i)
      (fun i => stockedTo data.status * lineUnits r₀.items i) := by
    unfold reservedTo stockedTo
    rw [h.status, ← hunits.1, ← hunits.2]
    exact h.shift
  refine .updated o data _ r₀ r₁ h.commit ?_ ?_ hbudget
    (Or.inl ⟨h.noServices, h.noItems, hshift⟩)
  · intro b hb
    rw [h.status] at hb
    exact (hfits.1 b hb).1
  · have hstored := h.stored
    rw [hreason] at hstored
    have hcommands : reaction.commands = commandsTo r₀.status data.status := by
      rw [h.status]
      cases hs : reaction.status with
      | none => exact hfits.2 hs
      | some b => exact (hfits.1 b hs).2
    rwa [hcommands] at hstored

/-- The reason of a reaction is that of the reply. -/
theorem replyReaction_reason {type : SagaReplyType} {reaction : Reaction}
    (h : replyReaction type = some reaction) :
    reaction.reason = ServiceOrderSaga.compensation type := by
  cases type <;> cases h <;> rfl

theorem failedCommandReaction_reason {type : SagaCommandType} {reaction : Reaction}
    (h : failedCommandReaction type = some reaction) : reaction.reason = some .stepFailed := by
  cases type <;> cases h <;> rfl

theorem ReplyApplied.step {reply : SagaReply} {traceparent : Option String} {m o : Uuid}
    (h : ReplyApplied R G reply m o tx db) : OrderStep R G (.handle reply traceparent) tx db := by
  unfold ReplyApplied at h
  cases hreaction : replyReaction reply.type with
  | none =>
      rw [hreaction] at h
      exact h.step
  | some reaction =>
      rw [hreaction] at h
      rcases h with ⟨data, r₀, r₁, hperf, hstatus, -, hbudget, -⟩
      refine hperf.step (replyReaction_reason hreaction) (replyReaction_commands hreaction hstatus)
        (replyReaction_units hreaction) ?_
      intro hne
      -- only a generated budget sets the total, and it is due while the order waits
      by_cases htype : reply.type = .budgetGenerated
      · rw [htype] at hstatus
        simpa [ServiceOrderSaga.expectedStatus] using hstatus
      · exact absurd (hbudget htype) hne

theorem FailureApplied.step {command : FailedSagaCommand} {traceparent : Option String} {m o : Uuid}
    (h : FailureApplied R G command m o tx db) :
    OrderStep R G (.handleFailedCommand command traceparent) tx db := by
  unfold FailureApplied at h
  cases hreaction : failedCommandReaction command.type with
  | none =>
      rw [hreaction] at h
      exact h.step
  | some reaction =>
      rw [hreaction] at h
      rcases h with ⟨data, r₀, r₁, hperf, hstatus, hbudget⟩
      refine hperf.step (failedCommandReaction_reason hreaction)
        (failedCommandReaction_commands hreaction hstatus)
        (failedCommandReaction_units hreaction) ?_
      intro hne
      exact absurd hbudget hne

/-- What the handling of a message does to the orders is what its effect does. -/
theorem Processed.step {messageId orderId : IdText} {expected : ServiceOrderSaga.Expected}
    {Effect : Uuid → Uuid → ShopTx → Db → Prop} {outcome : SagaReplyOutcome}
    (h : Processed R messageId orderId expected Effect outcome tx db)
    (heffect : ∀ m o, Effect m o tx db → OrderStep R G op tx db) : OrderStep R G op tx db := by
  cases h with
  | duplicate m hm hrec hw hc =>
      refine .quiet ?_ ?_ hc (Or.inr ?_)
      · intro o
        rw [hw]
        rfl
      · rw [hw]
        rfl
      · intro i
        rw [hw]
        rfl
  | ignored m hm hnew honly hwhy => exact honly.step
  | applied m o hm hnew ho hstatus heff => exact heffect m o heff

/-- A handled message that wrote an order took effect. -/
theorem Processed.effect {messageId orderId : IdText} {expected : ServiceOrderSaga.Expected}
    {Effect : Uuid → Uuid → ShopTx → Db → Prop} {outcome : SagaReplyOutcome}
    (h : Processed R messageId orderId expected Effect outcome tx db) {o : Uuid} {r : OrderRow}
    (hr : lastOrder tx.writes o = some r) :
    outcome = .applied ∧ ∃ m o', messageId.stored? = some m ∧ orderId.column? = some o' ∧
      Effect m o' tx db := by
  cases h with
  | duplicate m hm hrec hw hc =>
      rw [hw] at hr
      cases hr
  | ignored m hm hnew honly hwhy =>
      rw [honly.orders o] at hr
      cases hr
  | applied m o' hm hnew ho hstatus heff => exact ⟨rfl, m, o', hm, ho, heff⟩

/-- What any operation does to the orders. -/
theorem Committed.step {result : Outcome} (h : Committed R G op result tx db) :
    OrderStep R G op tx db := by
  cases op with
  | createServiceOrder input traceparent =>
      rcases h with ⟨o, row, message, hopen⟩
      exact .opened input o row message hopen
  | addItemToOS osId itemId quantity =>
      rcases h with ⟨o, i, ids, lines, r₀, r₁, ws, -, hadd⟩
      exact hadd.edited.step rfl rfl rfl
  | removeItemFromOS osId itemId =>
      rcases h with ⟨o, line, ids, lines, r₀, r₁, ws, -, hrem⟩
      exact hrem.edited.step rfl rfl rfl
  | addServiceToOS osId serviceId =>
      rcases h with ⟨o, ids, lines, r₀, r₁, -, hadd⟩
      exact hadd.edited.step rfl rfl rfl
  | removeServiceFromOS osId serviceId =>
      rcases h with ⟨o, ids, lines, r₀, r₁, -, hrem⟩
      exact hrem.edited.step rfl rfl rfl
  | deliverOS osId =>
      obtain ⟨o, r₀, r₁, data, -, hcommit, hserv, hitems, hstatus, hbudget, hcan, hstored, -,
        hnone⟩ := h
      have hshift : Shift tx.writes db (fun i => reservedTo data.status * lineUnits r₀.items i)
          (fun i => stockedTo data.status * lineUnits r₀.items i) := by
        rw [hstatus]
        exact (Shift.none hnone db).congr (fun i => (zero_mul _).symm) (fun i => (zero_mul _).symm)
      refine .updated o data _ r₀ r₁ hcommit ?_ ?_ ?_ (Or.inl ⟨hserv, hitems, hshift⟩)
      · intro b hb
        rw [hstatus] at hb
        cases hb
        exact hcan
      · rw [hstored, hstatus]
        have hnone : commandsTo r₀.status (some .delivered) = [] := by
          cases r₀.status <;> rfl
        rw [hnone]
        exact .nil
      · intro hne
        exact absurd hbudget hne
  | handle reply traceparent =>
      rcases h with ⟨res, -, hproc⟩
      exact hproc.step fun m o heff => heff.step
  | handleFailedCommand command traceparent =>
      rcases h with ⟨res, -, hproc⟩
      exact hproc.step fun m o heff => heff.step
  | createItem name price stockQuantity => exact h.1.step h.2.1 (Or.inl rfl)
  | updateItem id data => exact h.1.step h.2.1 (Or.inl rfl)
  | deleteItem id => exact h.1.step h.2.1 (Or.inl rfl)
  | _ => exact h.1.quiet.step h.2.1 (Or.inr h.1.item)

/-- The order an update writes is the one it is about. -/
theorem OrderCommit.written {o o' : Uuid} {data : ServiceOrderChanges} {expected : Option ℕ}
    {r₀ r₁ r : OrderRow} (h : OrderCommit o data expected r₀ r₁ tx db)
    (h' : lastOrder tx.writes o' = some r) : o' = o ∧ r = r₁ := by
  by_cases ho : o' = o
  · subst ho
    exact ⟨rfl, Option.some.inj (h'.symm.trans h.order)⟩
  · rw [h.others o' ho] at h'
    cases h'

/-! ## Recording messages -/

/-- The id of the message an operation handles. -/
def Op.messageId : Op → Option IdText
  | .handle reply _ => some reply.messageId
  | .handleFailedCommand command _ => some command.messageId
  | _ => none

/-- The result of handling a message. -/
def Outcome.handled : Outcome → Option SagaReplyOutcome
  | .saga result => some result.outcome
  | _ => none

/-- What a commit does to the record of messages: a message handled for the
first time is recorded, and nothing else is. -/
inductive RecordStep (op : Op) (result : Outcome) (tx : ShopTx) (db : Db) : Prop where
  | none (other : op.messageId = none) (processed : ∀ m, lastProcessed tx.writes m = none)
  | duplicate (id : IdText) (m : Uuid) (isId : op.messageId = some id) (column : id.stored? = some m)
      (recorded : ∃ r, db.processed.find? m = some r) (writes : tx.writes = [])
      (outcome : result.handled = some .duplicate)
  | recorded (id : IdText) (m : Uuid) (isId : op.messageId = some id) (column : id.stored? = some m)
      (isNew : db.processed.find? m = none)
      (processed : ∀ m', (lastProcessed tx.writes m').isSome = true ↔ m' = m)
      (outcome : result.handled = some .applied ∨ result.handled = some .ignored ∧
        ∃ row, tx.writes = [.putProcessed row])

theorem OnlyRecorded.processed {m : Uuid} (h : OnlyRecorded m tx) (m' : Uuid) :
    (lastProcessed tx.writes m').isSome = true ↔ m' = m := by
  rcases h.writes with ⟨row, hrow, hw⟩
  rw [hw]
  by_cases hm : row.messageId = m'
  · simp [Write.processed?, hm, ← hrow]
  · simp [Write.processed?, hm, ← hrow, Ne.symm hm]

theorem ReplyApplied.processed {reply : SagaReply} {m o : Uuid}
    (h : ReplyApplied R G reply m o tx db) (m' : Uuid) :
    (lastProcessed tx.writes m').isSome = true ↔ m' = m := by
  unfold ReplyApplied at h
  cases hreaction : replyReaction reply.type with
  | none =>
      rw [hreaction] at h
      exact h.processed m'
  | some reaction =>
      rw [hreaction] at h
      rcases h with ⟨data, r₀, r₁, hperf, -⟩
      exact hperf.recorded m'

theorem FailureApplied.processed {command : FailedSagaCommand} {m o : Uuid}
    (h : FailureApplied R G command m o tx db) (m' : Uuid) :
    (lastProcessed tx.writes m').isSome = true ↔ m' = m := by
  unfold FailureApplied at h
  cases hreaction : failedCommandReaction command.type with
  | none =>
      rw [hreaction] at h
      exact h.processed m'
  | some reaction =>
      rw [hreaction] at h
      rcases h with ⟨data, r₀, r₁, hperf, -⟩
      exact hperf.recorded m'

theorem Processed.record {messageId orderId : IdText} {expected : ServiceOrderSaga.Expected}
    {Effect : Uuid → Uuid → ShopTx → Db → Prop} {res : SagaReplyResult}
    (h : Processed R messageId orderId expected Effect res.outcome tx db)
    (hop : op.messageId = some messageId)
    (heffect : ∀ m o, Effect m o tx db → ∀ m', (lastProcessed tx.writes m').isSome = true ↔ m' = m) :
    RecordStep op (.saga res) tx db := by
  generalize hout : res.outcome = outcome at h
  have hhandled : Outcome.handled (.saga res) = some outcome := by
    rw [← hout]
    rfl
  cases h with
  | duplicate m hm hrec hw hc => exact .duplicate messageId m hop hm hrec hw hhandled
  | ignored m hm hnew honly hwhy =>
      rcases honly.writes with ⟨row, -, hw⟩
      exact .recorded messageId m hop hm hnew honly.processed (Or.inr ⟨hhandled, row, hw⟩)
  | applied m o hm hnew ho hstatus heff =>
      exact .recorded messageId m hop hm hnew (heffect m o heff) (Or.inl hhandled)

/-- What any operation does to the record of messages. -/
theorem Committed.record {result : Outcome} (h : Committed R G op result tx db) :
    RecordStep op result tx db := by
  cases op with
  | createServiceOrder input traceparent =>
      rcases h with ⟨o, row, message, hopen⟩
      exact .none rfl hopen.processed
  | addItemToOS osId itemId quantity =>
      rcases h with ⟨o, i, ids, lines, r₀, r₁, ws, -, hadd⟩
      exact .none rfl hadd.edited.processed
  | removeItemFromOS osId itemId =>
      rcases h with ⟨o, line, ids, lines, r₀, r₁, ws, -, hrem⟩
      exact .none rfl hrem.edited.processed
  | addServiceToOS osId serviceId =>
      rcases h with ⟨o, ids, lines, r₀, r₁, -, hadd⟩
      exact .none rfl hadd.edited.processed
  | removeServiceFromOS osId serviceId =>
      rcases h with ⟨o, ids, lines, r₀, r₁, -, hrem⟩
      exact .none rfl hrem.edited.processed
  | deliverOS osId =>
      rcases h with ⟨o, r₀, r₁, data, -, -, -, -, -, -, -, -, hproc, -⟩
      exact .none rfl hproc
  | handle reply traceparent =>
      rcases h with ⟨res, rfl, hproc⟩
      exact hproc.record rfl fun m o heff => heff.processed
  | handleFailedCommand command traceparent =>
      rcases h with ⟨res, rfl, hproc⟩
      exact hproc.record rfl fun m o heff => heff.processed
  | createItem name price stockQuantity => exact .none rfl h.1.processed
  | updateItem id data => exact .none rfl h.1.processed
  | deleteItem id => exact .none rfl h.1.processed
  | _ => exact .none rfl h.1.processed

/-! ## The guarantee -/

/-- An update moves the version by one. -/
theorem Revision.version {data : ServiceOrderChanges} {r₀ r₁ : OrderRow} (h : Revision data r₀ r₁) :
    r₁.version = r₀.version + 1 :=
  congrArg OrderColumns.version h.columns

/-- An update sets the status it is given, or keeps it. -/
theorem Revision.budgetTotal {data : ServiceOrderChanges} {r₀ r₁ : OrderRow}
    (h : Revision data r₀ r₁) :
    r₁.budgetTotal = (data.budgetTotal.map toDecimal).or r₀.budgetTotal :=
  congrArg OrderColumns.budgetTotal h.columns

theorem Revision.customerId {data : ServiceOrderChanges} {r₀ r₁ : OrderRow}
    (h : Revision data r₀ r₁) : r₁.customerId = r₀.customerId := by
  have hcolumns := congrArg OrderColumns.customerId h.columns
  exact hcolumns

/-- A commit takes orders forward only, and records only what was not recorded. -/
theorem Committed.advances {result : Outcome} (h : Committed R G op result tx db) :
    Advances db tx.writes := by
  constructor
  · intro o r r' hr hr'
    cases h.step with
    | quiet horders _ _ _ =>
        rw [horders o] at hr'
        cases hr'
    | opened input o' row message hopen =>
        by_cases ho : o = o'
        · subst ho
          rw [hopen.isNew] at hr
          cases hr
        · rw [hopen.others o ho] at hr'
          cases hr'
    | updated o' data expected r₀ r₁ hcommit _ _ _ _ =>
        by_cases ho : o = o'
        · subst ho
          have h₀ : r₀ = r := Option.some.inj (hcommit.found.symm.trans hr)
          have h₁ : r₁ = r' := Option.some.inj (hcommit.order.symm.trans hr')
          subst h₀ h₁
          have hv := hcommit.revision.version
          omega
        · rw [hcommit.others o ho] at hr'
          cases hr'
  · intro m r hr
    cases h.record with
    | none _ hproc =>
        rw [hproc m] at hr
        cases hr
    | duplicate id m' _ _ _ hw _ =>
        rw [hw] at hr
        cases hr
    | recorded id m' _ _ hnew hproc _ =>
        have hm : m = m' := (hproc m).mp (by rw [hr]; rfl)
        rw [hm]
        exact hnew

end Steps

/-- The service meets the rely–guarantee rule: whatever the guard, each unit of
work ensures `Committed`, and what is committed respects what the others
rely on. -/
theorem shop_relyGuarantee (G : ShopGuard) :
    RelyGuarantee postgres program G Rely
      (fun op => Committed Rely (fun tx q v => G.stmt op tx q v = true) op) where
  conflicts_comm := Write.conflicts_comm
  refl := Rely.refl
  trans _ _ _ _ := Rely.trans
  launch op _ db := program_ensures shopInterference_rely op db
  commit _ _ _ _ _ hQ hclear := rely_of_commit hQ.advances hclear

end CarRepairShop
