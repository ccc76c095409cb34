import CarRepairShop.Entities

/-! # Saga messages

The vocabulary of the saga (`use-cases/saga/messages.ts`,
`use-cases/messaging/MessageEnvelope.ts`) and the budget lines
(`buildBudgetLines.ts`).
-/

namespace CarRepairShop

/-! ## JSON values -/

/-- A number of a JSON document as JavaScript holds it: a literal beyond the
range of doubles is parsed to an infinity. -/
inductive JsNumber where
  | finite (value : ℚ)
  | infinite
deriving DecidableEq, Repr

/-- A parsed JSON value. -/
inductive Json where
  | null
  | bool (b : Bool)
  | num (n : JsNumber)
  | str (s : String)
  | arr (elements : List Json)
  | obj (fields : List (String × Json))
deriving Repr

/-! ## Replies and commands -/

/-- `SAGA_REPLY_TYPES`: what the participants answer. -/
inductive SagaReplyType where
  | diagnosisStarted
  | diagnosisCompleted
  | budgetGenerated
  | budgetApproved
  | budgetRejected
  | paymentConfirmed
  | paymentFailed
  | repairStarted
  | repairCompleted
  | executionCancelled
  | budgetCancelled
deriving DecidableEq, Repr

def SagaReplyType.name : SagaReplyType → String
  | .diagnosisStarted => "DiagnosisStarted"
  | .diagnosisCompleted => "DiagnosisCompleted"
  | .budgetGenerated => "BudgetGenerated"
  | .budgetApproved => "BudgetApproved"
  | .budgetRejected => "BudgetRejected"
  | .paymentConfirmed => "PaymentConfirmed"
  | .paymentFailed => "PaymentFailed"
  | .repairStarted => "RepairStarted"
  | .repairCompleted => "RepairCompleted"
  | .executionCancelled => "ExecutionCancelled"
  | .budgetCancelled => "BudgetCancelled"

/-- `SAGA_REPLY_TYPES`, in the order of the source. -/
def sagaReplyTypes : List SagaReplyType :=
  [.diagnosisStarted, .diagnosisCompleted, .budgetGenerated, .budgetApproved, .budgetRejected,
    .paymentConfirmed, .paymentFailed, .repairStarted, .repairCompleted, .executionCancelled,
    .budgetCancelled]

/-- `SagaReply`. -/
structure SagaReply where
  messageId : IdText
  type : SagaReplyType
  serviceOrderId : IdText
  payload : List (String × Json)
deriving Repr

/-- `SAGA_COMMAND_TYPES`: what the orchestrator asks of the participants. -/
inductive SagaCommandType where
  | enqueueDiagnosis
  | generateBudget
  | requestPayment
  | enqueueRepair
  | cancelExecution
  | cancelBudget
deriving DecidableEq, Repr

def SagaCommandType.name : SagaCommandType → String
  | .enqueueDiagnosis => "EnqueueDiagnosis"
  | .generateBudget => "GenerateBudget"
  | .requestPayment => "RequestPayment"
  | .enqueueRepair => "EnqueueRepair"
  | .cancelExecution => "CancelExecution"
  | .cancelBudget => "CancelBudget"

/-- `SAGA_COMMAND_TYPES`, in the order of the source. -/
def sagaCommandTypes : List SagaCommandType :=
  [.enqueueDiagnosis, .generateBudget, .requestPayment, .enqueueRepair, .cancelExecution,
    .cancelBudget]

/-- `FailedSagaCommand`: a command read back from a dead-letter queue. -/
structure FailedSagaCommand where
  messageId : IdText
  type : SagaCommandType
  serviceOrderId : IdText
deriving DecidableEq, Repr

/-- `COMPENSATION_REASONS`. -/
inductive CompensationReason where
  | budgetRejected
  | paymentFailed
  | stepFailed
deriving DecidableEq, Repr

/-- `SAGA_REPLY_OUTCOMES`. -/
inductive SagaReplyOutcome where
  | applied
  | duplicate
  | ignored
deriving DecidableEq, Repr

/-- `SagaReplyResult`. -/
structure SagaReplyResult where
  outcome : SagaReplyOutcome
  serviceOrder : Option ServiceOrder := none
  statusChanged : Bool := false
  compensation : Option CompensationReason := none
  stuck : Bool := false
deriving DecidableEq, Repr

/-! ## Outgoing messages -/

/-- `BudgetLine.kind`. -/
inductive BudgetLineKind where
  | service
  | item
deriving DecidableEq, Repr

/-- `BudgetLine`. -/
structure BudgetLine where
  kind : BudgetLineKind
  referenceId : IdText
  description : String
  unitPrice : Money
  quantity : ℤ
deriving DecidableEq, Repr

/-- The customer of a `GenerateBudgetCommand`. -/
structure BudgetCustomer where
  id : IdText
  name : String
  email : String
deriving DecidableEq, Repr

/-- `GenerateBudgetCommand`. -/
structure GenerateBudgetCommand where
  customer : BudgetCustomer
  lines : List BudgetLine
deriving DecidableEq, Repr

/-- A task of an `EnqueueRepairCommand`. -/
structure RepairTask where
  serviceId : IdText
  name : String
deriving DecidableEq, Repr

/-- `EnqueueRepairCommand`. -/
structure EnqueueRepairCommand where
  tasks : List RepairTask
deriving DecidableEq, Repr

/-- The payloads the service writes to its outbox. -/
inductive Payload where
  | empty
  | generateBudget (command : GenerateBudgetCommand)
  | enqueueRepair (command : EnqueueRepairCommand)
  | reason (reason : CompensationReason)
deriving DecidableEq, Repr

/-- `MessageDestination`. -/
inductive MessageDestination where
  | billingCommands
  | executionCommands
deriving DecidableEq, Repr

/-- `OutgoingMessage`. -/
structure OutgoingMessage where
  destination : MessageDestination
  type : SagaCommandType
  serviceOrderId : IdText
  payload : Payload
deriving DecidableEq, Repr

/-! ## The lines of a budget -/

/-- The `SERVICE` line of one service of the order. -/
def serviceLine (services : List Service) (line : OSService) : Except Failure BudgetLine :=
  match services.find? (fun candidate => candidate.id = line.serviceId) with
  | none => .error (.app (.notFound s!"Service {line.serviceId}"))
  | some service => .ok
      { kind := .service, referenceId := service.id, description := service.name
        unitPrice := service.price, quantity := 1 }

/-- The `ITEM` line of one item of the order. -/
def itemLine (items : List Item) (line : OSItem) : Except Failure BudgetLine :=
  match items.find? (fun candidate => candidate.id = line.itemId) with
  | none => .error (.app (.notFound s!"Item {line.itemId}"))
  | some item => .ok
      { kind := .item, referenceId := item.id, description := item.name
        unitPrice := item.price, quantity := line.quantity }

/-- `buildBudgetLines`: every service once, every item at the quantity
ordered, at the prices the catalog has now. -/
def buildBudgetLines (order : ServiceOrder) (services : List Service) (items : List Item) :
    Except Failure (List BudgetLine) := do
  let serviceLines ← order.services.mapM (serviceLine services)
  let itemLines ← order.items.mapM (itemLine items)
  .ok (serviceLines ++ itemLines)

end CarRepairShop
