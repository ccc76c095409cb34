import CarRepairShop.UseCases

/-! # The service order saga

`ServiceOrderSaga.ts`: the orchestrator. Every message is handled in one unit
of work: record its id, read the order, check its status, apply the effect
with the version that was read. Log lines are left out; the notice to the
customer goes out after the commit.
-/

namespace CarRepairShop.ServiceOrderSaga

open Txn Prog

/-! ## What each message expects and does -/

/-- `EXPECTED_STATUS`: the status each reply expects to find. -/
def expectedStatus : SagaReplyType → List OSStatus
  | .diagnosisStarted => [.received]
  | .diagnosisCompleted => [.diagnosis]
  | .budgetGenerated => [.waitingApproval]
  | .budgetApproved => [.waitingApproval]
  | .budgetRejected => [.waitingApproval]
  | .paymentConfirmed => [.approved]
  | .paymentFailed => [.approved]
  | .repairStarted => [.paid]
  | .repairCompleted => [.execution]
  | .executionCancelled => [.rejected, .cancelled]
  | .budgetCancelled => [.cancelled]

/-- `COMPENSATION`: the replies that undo the earlier steps. -/
def compensation : SagaReplyType → Option CompensationReason
  | .budgetRejected => some .budgetRejected
  | .paymentFailed => some .paymentFailed
  | _ => none

/-- `OSStatus[] | 'any'`. -/
inductive Expected where
  | oneOf (statuses : List OSStatus)
  | any
deriving DecidableEq, Repr

/-- `expected.includes(order.status)`. -/
def Expected.admits : Expected → OSStatus → Bool
  | .oneOf statuses, status => statuses.contains status
  | .any, _ => true

/-- The steps a dead command has cancelled. -/
inductive CancelTarget where
  | execution
  | budget
deriving DecidableEq, Repr

/-- `('execution' | 'budget')[] | 'report'`. -/
inductive CancelRule where
  | cancel (targets : List CancelTarget)
  | report
deriving DecidableEq, Repr

/-- `FAILED_COMMAND`: what a dead command means, by the status the order
should still be in. -/
def failedCommand : SagaCommandType → Expected × CancelRule
  | .enqueueDiagnosis => (.oneOf [.received], .cancel [])
  | .generateBudget => (.oneOf [.waitingApproval], .cancel [.execution])
  | .requestPayment => (.oneOf [.approved], .cancel [.execution, .budget])
  | .enqueueRepair => (.oneOf [.paid], .report)
  | .cancelExecution => (.any, .report)
  | .cancelBudget => (.any, .report)

/-- What an effect hands back to `process`. -/
structure Effect where
  serviceOrder : ServiceOrder
  compensation : Option CompensationReason := none
  stuck : Bool := false
deriving DecidableEq, Repr

/-! ## Writing the order -/

/-- Writes with the version that was read. -/
def save (order : ServiceOrder) (changes : ServiceOrderChanges) : Work ServiceOrder := do
  let updated ← ServiceOrderRepository.update order.id changes (some order.version)
  -- an update that meets another version has thrown by now
  match updated with
  | none => throwApp (.notFound "Service order")
  | some order => .pure order

/-- Moves the order to a new status, if the state machine allows it. -/
def moveTo (order : ServiceOrder) (status : OSStatus) (changes : ServiceOrderChanges := {}) :
    Work ServiceOrder := do
  ofExcept (assertTransition order.status status)
  save order { changes with status := some status }

/-! ## The effects -/

/-- One round of the loop of `releaseReservations`. -/
def releaseLine (line : OSItem) : Work Unit := do
  let released ← ItemRepository.release line.itemId line.quantity
  if released then .pure ()
  else throwApp (.validation
    s!"Cannot release {line.quantity} reserved units of item {line.itemId}")

def releaseReservations (order : ServiceOrder) : Work Unit := do
  let _released ← each releaseLine order.items
  .pure ()

/-- One round of the loop of `paymentConfirmed`. -/
def consumeLine (line : OSItem) : Work Unit := do
  let consumed ← ItemRepository.consume line.itemId line.quantity
  if consumed then .pure ()
  else throwApp (.validation
    s!"Cannot consume {line.quantity} reserved units of item {line.itemId}")

def budgetCommandFor (order : ServiceOrder) : Work GenerateBudgetCommand := do
  let customer ← CustomerRepository.findById order.customerId
  match customer with
  | none => throwApp (.notFound s!"Customer {order.customerId}")
  | some customer => do
      let catalogServices ← each (fun s => ServiceRepository.findById s.serviceId) order.services
      let catalogItems ← each (fun i => ItemRepository.findById i.itemId) order.items
      let lines ← ofExcept (buildBudgetLines order (catalogServices.filterMap id)
        (catalogItems.filterMap id))
      .pure
        { customer := { id := customer.id, name := customer.name, email := customer.email }
          lines }

/-- The repair task of one service of the order. -/
def repairTask (line : OSService) : Work RepairTask := do
  let service ← ServiceRepository.findById line.serviceId
  match service with
  | none => throwApp (.notFound s!"Service {line.serviceId}")
  | some service => .pure { serviceId := line.serviceId, name := service.name }

def repairCommandFor (order : ServiceOrder) : Work EnqueueRepairCommand := do
  let tasks ← each repairTask order.services
  .pure { tasks }

section Effects

variable (traceparent : Option String) (order : ServiceOrder)

def diagnosisStarted : Work ServiceOrder := moveTo order .diagnosis

/-- The order leaves `DIAGNOSIS` before the budget exists, so that nothing
added later is left out of it. -/
def diagnosisCompleted : Work ServiceOrder := do
  let command ← budgetCommandFor order
  let updated ← moveTo order .waitingApproval
  Outbox.add traceparent
    { destination := .billingCommands, type := .generateBudget, serviceOrderId := order.id
      payload := .generateBudget command }
  .pure updated

def budgetGenerated (reply : SagaReply) : Work ServiceOrder :=
  match reply.payload.lookup "total" with
  | some (.num (.finite total)) => save order { budgetTotal := some total }
  | _ => throwApp (.validation "The budget total must be a number")

def budgetApproved : Work ServiceOrder := do
  let updated ← moveTo order .approved
  Outbox.add traceparent
    { destination := .billingCommands, type := .requestPayment, serviceOrderId := order.id
      payload := .empty }
  .pure updated

def budgetRejected : Work ServiceOrder := do
  releaseReservations order
  let updated ← moveTo order .rejected
  Outbox.add traceparent
    { destination := .executionCommands, type := .cancelExecution, serviceOrderId := order.id
      payload := .reason .budgetRejected }
  .pure updated

/-- The point of no return: the reserved parts leave the stock. -/
def paymentConfirmed : Work ServiceOrder := do
  let _consumed ← each consumeLine order.items
  let command ← repairCommandFor order
  let updated ← moveTo order .paid
  Outbox.add traceparent
    { destination := .executionCommands, type := .enqueueRepair, serviceOrderId := order.id
      payload := .enqueueRepair command }
  .pure updated

def paymentFailed : Work ServiceOrder := do
  releaseReservations order
  let updated ← moveTo order .cancelled
  Outbox.add traceparent
    { destination := .executionCommands, type := .cancelExecution, serviceOrderId := order.id
      payload := .reason .paymentFailed }
  Outbox.add traceparent
    { destination := .billingCommands, type := .cancelBudget, serviceOrderId := order.id
      payload := .reason .paymentFailed }
  .pure updated

def repairStarted : Work ServiceOrder := do
  let startedAt ← now
  moveTo order .execution { startedAt := some startedAt }

def repairCompleted : Work ServiceOrder := do
  let finishedAt ← now
  moveTo order .finished { finishedAt := some finishedAt }

/-- A participant confirms that it undid its step; nothing changes here. -/
def compensationConfirmed : Work ServiceOrder := .pure order

/-- Stores a cancel command of `stepFailed`, when `cancel` includes `target`. -/
def cancelStep (cancel : List CancelTarget) (target : CancelTarget) : Work Unit :=
  if cancel.contains target then
    match target with
    | .execution => Outbox.add traceparent
        { destination := .executionCommands, type := .cancelExecution, serviceOrderId := order.id
          payload := .reason .stepFailed }
    | .budget => Outbox.add traceparent
        { destination := .billingCommands, type := .cancelBudget, serviceOrderId := order.id
          payload := .reason .stepFailed }
  else .pure ()

/-- A participant could not process a command: the steps before it are undone. -/
def stepFailed (cancel : List CancelTarget) : Work ServiceOrder := do
  releaseReservations order
  let updated ← moveTo order .cancelled
  cancelStep traceparent order cancel .execution
  cancelStep traceparent order cancel .budget
  .pure updated

def apply (reply : SagaReply) : Work ServiceOrder :=
  match reply.type with
  | .diagnosisStarted => diagnosisStarted order
  | .diagnosisCompleted => diagnosisCompleted traceparent order
  | .budgetGenerated => budgetGenerated order reply
  | .budgetApproved => budgetApproved traceparent order
  | .budgetRejected => budgetRejected traceparent order
  | .paymentConfirmed => paymentConfirmed traceparent order
  | .paymentFailed => paymentFailed traceparent order
  | .repairStarted => repairStarted order
  | .repairCompleted => repairCompleted order
  | .executionCancelled => compensationConfirmed order
  | .budgetCancelled => compensationConfirmed order

/-- The effect of a reply. -/
def replyEffect (reply : SagaReply) : Work Effect := do
  let serviceOrder ← apply traceparent order reply
  .pure { serviceOrder, compensation := compensation reply.type }

/-- The effect of a dead command: `stepFailed`, or `reportStuck`. -/
def failedCommandEffect (rule : CancelRule) : Work Effect :=
  match rule with
  | .report => .pure { serviceOrder := order, stuck := true }
  | .cancel cancel => do
      let serviceOrder ← stepFailed traceparent order cancel
      .pure { serviceOrder, compensation := some .stepFailed }

end Effects

/-! ## The algorithm every message follows -/

/-- `SagaMessage`. -/
structure SagaMessage where
  messageId : IdText
  type : String
  serviceOrderId : IdText
deriving DecidableEq, Repr

def process (message : SagaMessage) (expected : Expected)
    (effect : ServiceOrder → Work Effect) : Work SagaReplyResult := do
  -- stored with the effect, in one unit of work: both commit or neither
  let marked ← ProcessedMessages.markProcessed message.messageId message.type
  if !marked then .pure { outcome := .duplicate }
  else do
    let order ← ServiceOrderRepository.findById message.serviceOrderId
    match order with
    -- the id stays recorded, so a redelivery is a duplicate
    | none => .pure { outcome := .ignored }
    | some order =>
        -- a stale message is not an error either
        if !expected.admits order.status then .pure { outcome := .ignored }
        else do
          let applied ← effect order
          .pure
            { outcome := .applied
              serviceOrder := some applied.serviceOrder
              statusChanged := decide (applied.serviceOrder.status ≠ order.status)
              compensation := applied.compensation
              stuck := applied.stuck }

def handle (reply : SagaReply) (traceparent : Option String) : Work SagaReplyResult :=
  process ⟨reply.messageId, reply.type.name, reply.serviceOrderId⟩
    (.oneOf (expectedStatus reply.type)) fun order => replyEffect traceparent order reply

def handleFailedCommand (command : FailedSagaCommand) (traceparent : Option String) :
    Work SagaReplyResult :=
  process ⟨command.messageId, command.type.name, command.serviceOrderId⟩
    (failedCommand command.type).1
    fun order => failedCommandEffect traceparent order (failedCommand command.type).2

end CarRepairShop.ServiceOrderSaga
