import CarRepairShop.Saga

/-! # The life of an order

What the orchestration is for, in its own terms. An order moves along the
status graph; some moves oblige the service to send commands to the
participants, and some release or consume the parts reserved for the order.
Nothing here runs: these are the tables and the paths that the units of work
are measured against.
-/

namespace CarRepairShop

/-! ## Commands -/

/-- The queue of the participant that carries out each command. -/
def queueOf : SagaCommandType → MessageDestination
  | .enqueueDiagnosis | .enqueueRepair | .cancelExecution => .executionCommands
  | .generateBudget | .requestPayment | .cancelBudget => .billingCommands

/-- The commands that a change of status obliges to. A cancelled order has
its earlier steps undone: from `WAITING_APPROVAL` the diagnosis was done, from
`APPROVED` the budget too. -/
def commandsOn : OSStatus → OSStatus → List SagaCommandType
  | .diagnosis, .waitingApproval => [.generateBudget]
  | .waitingApproval, .approved => [.requestPayment]
  | .waitingApproval, .rejected => [.cancelExecution]
  | .waitingApproval, .cancelled => [.cancelExecution]
  | .approved, .paid => [.enqueueRepair]
  | .approved, .cancelled => [.cancelExecution, .cancelBudget]
  | _, _ => []

/-- The commands along the edges of a path. -/
def commandsAlong : List OSStatus → List SagaCommandType
  | a :: b :: path => commandsOn a b ++ commandsAlong (b :: path)
  | _ => []

theorem commandsAlong_snoc (path : List OSStatus) (a b : OSStatus) :
    commandsAlong (path ++ [a, b]) = commandsAlong (path ++ [a]) ++ commandsOn a b := by
  induction path with
  | nil => simp [commandsAlong]
  | cons x path ih =>
      cases path with
      | nil => simp [commandsAlong]
      | cons y path =>
          simp only [List.cons_append, commandsAlong, List.append_assoc]
          congr 1

/-- How a change to a status moves the reserved units of each unit of the
lines: paid parts are used, those of an order that ends earlier are freed. -/
def reservedOn : OSStatus → ℤ
  | .paid | .rejected | .cancelled => -1
  | _ => 0

/-- How it moves the units in stock. -/
def stockedOn : OSStatus → ℤ
  | .paid => -1
  | _ => 0

/-- The statuses in which an order holds a reservation of its lines. -/
def OSStatus.active : OSStatus → Bool
  | .received | .diagnosis | .waitingApproval | .approved => true
  | _ => false

/-- A legal move frees the reservation exactly when it leaves the statuses that
hold one. -/
theorem reservedOn_active {a b : OSStatus} (h : canTransition a b = true) :
    (if b.active then (1 : ℤ) else 0) = (if a.active then 1 else 0) + reservedOn b := by
  cases a <;> cases b <;>
    first
    | (simp [canTransition, validTransitions] at h; done)
    | rfl

/-! ## Reactions -/

/-- What handling a message does to its order: the status it gets, how each
unit of its lines moves the counters of the item, and the commands stored. -/
structure Reaction where
  status : Option OSStatus := none
  reserved : ℤ := 0
  stocked : ℤ := 0
  commands : List SagaCommandType := []
  reason : Option CompensationReason := none
deriving DecidableEq, Repr

/-- The reaction to each reply; the confirmations of a compensation change
nothing. -/
def replyReaction : SagaReplyType → Option Reaction
  | .diagnosisStarted => some { status := some .diagnosis }
  | .diagnosisCompleted => some { status := some .waitingApproval, commands := [.generateBudget] }
  | .budgetGenerated => some {}
  | .budgetApproved => some { status := some .approved, commands := [.requestPayment] }
  | .budgetRejected => some
      { status := some .rejected, reserved := -1, commands := [.cancelExecution]
        reason := some .budgetRejected }
  | .paymentConfirmed => some
      { status := some .paid, reserved := -1, stocked := -1, commands := [.enqueueRepair] }
  | .paymentFailed => some
      { status := some .cancelled, reserved := -1, commands := [.cancelExecution, .cancelBudget]
        reason := some .paymentFailed }
  | .repairStarted => some { status := some .execution }
  | .repairCompleted => some { status := some .finished }
  | .executionCancelled => none
  | .budgetCancelled => none

/-- The reaction to each dead command; some are only reported. -/
def failedCommandReaction : SagaCommandType → Option Reaction
  | .enqueueDiagnosis => some
      { status := some .cancelled, reserved := -1, reason := some .stepFailed }
  | .generateBudget => some
      { status := some .cancelled, reserved := -1, commands := [.cancelExecution]
        reason := some .stepFailed }
  | .requestPayment => some
      { status := some .cancelled, reserved := -1, commands := [.cancelExecution, .cancelBudget]
        reason := some .stepFailed }
  | .enqueueRepair | .cancelExecution | .cancelBudget => none

/-- A reaction to a reply that the order expects is a legal move with the
commands of that move. -/
theorem replyReaction_commands {type : SagaReplyType} {reaction : Reaction}
    (h : replyReaction type = some reaction) {a : OSStatus} (ha : a ∈ ServiceOrderSaga.expectedStatus type) :
    (∀ b, reaction.status = some b → canTransition a b = true ∧ reaction.commands = commandsOn a b) ∧
      (reaction.status = none → reaction.commands = []) := by
  cases type <;> cases h <;> cases a <;>
    first
    | (simp [ServiceOrderSaga.expectedStatus] at ha; done)
    | simp [commandsOn, canTransition, validTransitions]

/-- A reaction moves the counters the way its status asks for. -/
theorem replyReaction_units {type : SagaReplyType} {reaction : Reaction}
    (h : replyReaction type = some reaction) :
    reaction.reserved = (reaction.status.map reservedOn).getD 0 ∧
      reaction.stocked = (reaction.status.map stockedOn).getD 0 := by
  cases type <;> cases h <;> exact ⟨rfl, rfl⟩

theorem failedCommandReaction_units {type : SagaCommandType} {reaction : Reaction}
    (h : failedCommandReaction type = some reaction) :
    reaction.reserved = (reaction.status.map reservedOn).getD 0 ∧
      reaction.stocked = (reaction.status.map stockedOn).getD 0 := by
  cases type <;> cases h <;> exact ⟨rfl, rfl⟩

/-- The same for a dead command. -/
theorem failedCommandReaction_commands {type : SagaCommandType} {reaction : Reaction}
    (h : failedCommandReaction type = some reaction) {a : OSStatus}
    (ha : (ServiceOrderSaga.failedCommand type).1.admits a = true) :
    (∀ b, reaction.status = some b → canTransition a b = true ∧ reaction.commands = commandsOn a b) ∧
      (reaction.status = none → reaction.commands = []) := by
  cases type <;> cases h <;> cases a <;>
    first
    | (simp [ServiceOrderSaga.failedCommand, ServiceOrderSaga.Expected.admits] at ha; done)
    | simp [commandsOn, canTransition, validTransitions]

/-! ## Paths -/

/-- Every path an order can have taken. -/
def lives : List (List OSStatus) :=
  [[.received],
    [.received, .cancelled],
    [.received, .diagnosis],
    [.received, .diagnosis, .waitingApproval],
    [.received, .diagnosis, .waitingApproval, .rejected],
    [.received, .diagnosis, .waitingApproval, .cancelled],
    [.received, .diagnosis, .waitingApproval, .approved],
    [.received, .diagnosis, .waitingApproval, .approved, .cancelled],
    [.received, .diagnosis, .waitingApproval, .approved, .paid],
    [.received, .diagnosis, .waitingApproval, .approved, .paid, .execution],
    [.received, .diagnosis, .waitingApproval, .approved, .paid, .execution, .finished],
    [.received, .diagnosis, .waitingApproval, .approved, .paid, .execution, .finished, .delivered]]

/-- A legal move from the end of a path gives a path. -/
theorem lives_move {path : List OSStatus} (h : path ∈ lives) {a b : OSStatus}
    (ha : path.getLast? = some a) (hb : canTransition a b = true) : path ++ [b] ∈ lives := by
  have hall : ∀ path ∈ lives, ∀ a ∈ path.getLast?, ∀ b ∈ validTransitions a, path ++ [b] ∈ lives := by
    decide
  refine hall path h a ha b ?_
  simpa [canTransition] using hb

/-! ## Histories -/

/-- The rows of a history, with `previous` as the status before the first. -/
inductive Chain : Option OSStatus → List StatusChange → OSStatus → Prop where
  | last (previous : Option OSStatus) (change : StatusChange)
      (h : change.fromStatus = previous) : Chain previous [change] change.toStatus
  | cons (previous : Option OSStatus) (change : StatusChange) (rest : List StatusChange)
      (status : OSStatus) (h : change.fromStatus = previous)
      (hrest : Chain (some change.toStatus) rest status) : Chain previous (change :: rest) status

/-- The statuses a history went through. -/
def pathOf (history : List StatusChange) : List OSStatus := history.map (·.toStatus)

theorem Chain.snoc {previous : Option OSStatus} {history : List StatusChange} {status : OSStatus}
    (h : Chain previous history status) {change : StatusChange}
    (hc : change.fromStatus = some status) :
    Chain previous (history ++ [change]) change.toStatus := by
  induction h with
  | last previous first hfirst =>
      exact .cons _ _ _ _ hfirst (.last _ _ hc)
  | cons previous first rest status hfirst _ ih =>
      exact .cons _ _ _ _ hfirst (ih hc)

/-- A history ends at its last status. -/
theorem Chain.getLast {previous : Option OSStatus} {history : List StatusChange}
    {status : OSStatus} (h : Chain previous history status) :
    (pathOf history).getLast? = some status := by
  induction h with
  | last previous change _ => rfl
  | cons previous change rest status _ hrest ih =>
      cases rest with
      | nil => cases hrest
      | cons second rest => simpa [pathOf] using ih

end CarRepairShop
