import CarRepairShop.Operations

/-! # The queue poller

`SqsQueuePoller.ts` with what it calls for each message: `parseEnvelope.ts` and
the two handlers of `adapters/messaging/`. Metrics, log lines and spans are left
out; the trace context that a handler runs in is an argument.

The body of a message is given as what `JSON.parse` makes of it, `none` where
it throws.
-/

namespace CarRepairShop

/-! ## Envelopes -/

/-- What `JSON.parse` makes of the body of a message. -/
abbrev MessageBody := Option Json

/-- `MessageEnvelope`. -/
structure MessageEnvelope where
  messageId : String
  type : String
  serviceOrderId : String
  occurredAt : String
  traceparent : Option String
  payload : List (String × Json)
deriving Repr

/-- A field that has to be a non-empty string. -/
def textField (fields : List (String × Json)) (name : String) : Option String :=
  match fields.lookup name with
  | some (.str text) => if text = "" then none else some text
  | _ => none

/-- `parseEnvelope`: the envelope, or `none` when the body is not one. -/
def parseEnvelope : MessageBody → Option MessageEnvelope
  | some (.obj fields) => do
      let messageId ← textField fields "messageId"
      let type ← textField fields "type"
      let serviceOrderId ← textField fields "serviceOrderId"
      let occurredAt ← textField fields "occurredAt"
      match fields.lookup "payload", fields.lookup "traceparent" with
      | some (.obj payload), none =>
          some { messageId, type, serviceOrderId, occurredAt, traceparent := none, payload }
      | some (.obj payload), some (.str traceparent) =>
          -- an empty trace context is left out
          some { messageId, type, serviceOrderId, occurredAt, payload
                 traceparent := if traceparent = "" then none else some traceparent }
      | _, _ => none
  | _ => none

/-! ## Handlers -/

/-- `SagaReplyHandler.handle`: the unit of work it starts, or what it throws. -/
def SagaReplyHandler.handle (envelope : MessageEnvelope) (traceparent : Option String) :
    Except String Op :=
  match sagaReplyTypes.find? (fun type => type.name = envelope.type) with
  | none => .error s!"Unknown saga reply type {envelope.type}"
  | some type => .ok (.handle
      { messageId := .read envelope.messageId, type
        serviceOrderId := .read envelope.serviceOrderId, payload := envelope.payload } traceparent)

/-- `FailedCommandHandler.handle`. -/
def FailedCommandHandler.handle (envelope : MessageEnvelope) (traceparent : Option String) :
    Except String Op :=
  match sagaCommandTypes.find? (fun type => type.name = envelope.type) with
  | none => .error s!"Unknown saga command type {envelope.type}"
  | some type => .ok (.handleFailedCommand
      { messageId := .read envelope.messageId, type
        serviceOrderId := .read envelope.serviceOrderId } traceparent)

/-- The queues that `createSagaMessaging` polls. -/
inductive PolledQueue where
  | sagaReplies
  | billingCommandsDlq
  | executionCommandsDlq
deriving DecidableEq, Repr

/-- The handler of each queue. -/
def PolledQueue.handler : PolledQueue → MessageEnvelope → Option String → Except String Op
  | .sagaReplies => SagaReplyHandler.handle
  | .billingCommandsDlq => FailedCommandHandler.handle
  | .executionCommandsDlq => FailedCommandHandler.handle

/-- `maxMessages` of `DEFAULT_OPTIONS`. -/
def maxMessages : ℕ := 10

/-! ## One message, one batch -/

/-- What becomes of a message whose body is an envelope: the handler throws, or
it resolves and the message is deleted, or the deletion fails. -/
inductive Attempt where
  | throws
  | undeleted
  | processed
deriving DecidableEq, Repr

/-- `handle`: whether the message was handled. It is then deleted too. -/
def SqsQueuePoller.handle (body : MessageBody) (attempt : Attempt) : Bool :=
  match parseEnvelope body with
  | none => false
  | some _ =>
      match attempt with
      | .throws => false
      | .undeleted => false
      | .processed => true

/-- The loop of `pollOnce` over one batch: the messages it tried, in order.
The first one that is not handled ends the batch. -/
def SqsQueuePoller.tried {α : Type} (handled : α → Bool) : List α → List α
  | [] => []
  | m :: rest => if handled m then m :: tried handled rest else [m]

/-- `pollOnce`: how many messages of the batch were handled. -/
def SqsQueuePoller.pollOnce {α : Type} (handled : α → Bool) (batch : List α) : ℕ :=
  (tried handled batch).countP handled

end CarRepairShop
