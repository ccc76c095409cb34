import CarRepairShop.DeadLetters
import CarRepairShop.Lib.FifoConsumers

/-! # The order of the replies

Any number of pollers work on one saga queue, over all replicas of the service.
`pollOnce` is a receive followed by `handle` on each message of the batch: a body
that is no envelope ends the batch, and so does a handler that throws or a delete
call that fails. A delete call may fail and still remove the message, and with the
receipt of an earlier receive it may succeed and remove nothing.

A reply that is handled too early is recorded and ignored for good, so the order
matters. `replies_keep_order` is about every run of the pollers.
-/

namespace CarRepairShop

/-- The pollers of a saga queue. A group is an order. -/
abbrev Pollers := Fifo.Consumers String MessageBody

/-- `handle` calls the handler on an envelope only. -/
def SqsQueuePoller.accepts (body : MessageBody) : Bool := (parseEnvelope body).isSome

namespace Pollers

/-- The pollers after these events, on a queue with these settings. -/
def run (policy : Fifo.Policy) (events : List (Fifo.Consumers.Event String MessageBody)) :
    Option Pollers :=
  Fifo.Consumers.run policy SqsQueuePoller.accepts {} events

/-- The handler was never invoked on a message before each earlier message of its order
was handled or moved to the dead-letter queue. -/
def KeepsOrder (s : Pollers) : Prop :=
  ∀ before id after, s.trace = before ++ .invoked id :: after →
    id < s.groups.length ∧ ∀ e < id, s.groups[e]? = s.groups[id]? →
      .resolved e ∈ before ∨ .deadLettered e ∈ before

end Pollers

/-- The replies of one order take effect in queue order. -/
theorem replies_keep_order {policy : Fifo.Policy}
    {events : List (Fifo.Consumers.Event String MessageBody)} {s : Pollers}
    (hrun : Pollers.run policy events = some s) : s.KeepsOrder := by
  have hinv : s.Orderly := Fifo.Consumers.Orderly.init.run hrun
  exact hinv.invoked

/-- Two pollers and two replies of order 2. The first poller handles the first reply and
fails to delete it, so it does not go on to the second. Later the other poller receives both. -/
def undeletedReply : List (Fifo.Consumers.Event String MessageBody) :=
  [.send "2" approvalBody, .send "2" approvalBody, .join, .join, .receive 0 [0, 1], .invoke 0,
    .resolve 0, .delete 0 false false, .tick 30, .receive 1 [0, 1], .invoke 1, .resolve 1,
    .delete 1 true true, .invoke 1]

theorem undeleted_reply_keeps_order : ∃ s, Pollers.run sagaQueue undeletedReply = some s ∧
    s.trace = [.invoked 0, .resolved 0, .invoked 0, .resolved 0, .invoked 1] ∧ s.KeepsOrder := by
  have hplay : ∃ s ∈ Pollers.run sagaQueue undeletedReply,
      s.trace = [.invoked 0, .resolved 0, .invoked 0, .resolved 0, .invoked 1] := by
    decide +kernel
  rcases hplay with ⟨s, hs, htrace⟩
  exact ⟨s, hs, htrace, replies_keep_order hs⟩

end CarRepairShop
