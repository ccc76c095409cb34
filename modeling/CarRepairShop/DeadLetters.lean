import CarRepairShop.Lib.FifoQueue
import CarRepairShop.Poller

/-! # Dead letters

A saga queue of ADR-015 with the poller as its consumer. The group of a message
is the order it is about, so one batch may mix messages of several orders. What
a handler does is given for each message of each batch, as its `Attempt`.

The poller ends a batch at the first message that is not handled, but the
receive counts of the rest have gone up all the same. So a message can use up
its receives behind another one. `dead_letters_failed_iff` says when a dead
letter failed on each of its receives itself, and `waiting_reply_dead_lettered`
is a reply that was never tried.
-/

namespace CarRepairShop

/-- The settings of `create-queues.sh` and of the poller. -/
def sagaQueue : Fifo.Policy where
  visibilityTimeout := 30
  maxReceiveCount := 5
  maxMessages := maxMessages

/-- A message with its `MessageGroupId`. -/
abbrev PolledMessage := Fifo.Message String MessageBody

/-- One `pollOnce`: the batch it received and what its handler does with each message. -/
abbrev PollCycle := Fifo.Cycle String MessageBody (ℕ → Attempt)

/-- A saga queue. -/
abbrev SagaQueue := Fifo.Queue String MessageBody (ℕ → Attempt)

/-- `handle` on a message of the batch. -/
def PollCycle.handled (c : PollCycle) (m : PolledMessage) : Bool :=
  SqsQueuePoller.handle m.body (c.outcome m.id)

/-- The messages of the batch that were tried. -/
def PollCycle.tried (c : PollCycle) : List PolledMessage :=
  SqsQueuePoller.tried (PollCycle.handled c) c.batch

/-- A message is deleted once it is handled. -/
def PollCycle.deletes (c : PollCycle) (id : ℕ) : Bool :=
  (PollCycle.tried c).any (fun m => m.id = id && PollCycle.handled c m)

/-- The poller tried the message and failed. -/
def PollCycle.Failed (c : PollCycle) (id : ℕ) : Prop :=
  ∃ m ∈ PollCycle.tried c, m.id = id ∧ PollCycle.handled c m = false

instance (c : PollCycle) (id : ℕ) : Decidable (PollCycle.Failed c id) :=
  inferInstanceAs (Decidable (∃ m ∈ PollCycle.tried c, m.id = id ∧ PollCycle.handled c m = false))

/-- Every message before this one in the batch was an envelope whose handler
resolved and whose deletion succeeded. -/
def PollCycle.ClearAhead (c : PollCycle) (id : ℕ) : Prop :=
  ∀ m ∈ c.batch.takeWhile (fun m => m.id ≠ id),
    (parseEnvelope m.body).isSome ∧ c.outcome m.id = .processed

instance (c : PollCycle) (id : ℕ) : Decidable (PollCycle.ClearAhead c id) :=
  inferInstanceAs (Decidable (∀ m ∈ c.batch.takeWhile (fun m => m.id ≠ id),
    (parseEnvelope m.body).isSome ∧ c.outcome m.id = .processed))

/-- The queue after these events, with the poller as its consumer. -/
def SagaQueue.run (events : List (Fifo.Event String MessageBody (ℕ → Attempt))) :
    Option SagaQueue :=
  Fifo.Queue.run sagaQueue PollCycle.deletes {} events

/-! ## One batch -/

theorem SqsQueuePoller.handle_iff {body : MessageBody} {attempt : Attempt} :
    handle body attempt = true ↔ (parseEnvelope body).isSome ∧ attempt = .processed := by
  cases hbody : parseEnvelope body <;> cases attempt <;> simp [handle, hbody]

/-- A message of the batch is tried when all those before it are handled. -/
theorem SqsQueuePoller.tried_iff {α : Type} (handled : α → Bool) (key : α → ℕ) {id : ℕ}
    {batch : List α} (hin : ∃ m ∈ batch, key m = id) :
    (∃ m ∈ tried handled batch, key m = id) ↔
      ∀ m ∈ batch.takeWhile (fun m => key m ≠ id), handled m = true := by
  induction batch with
  | nil => simp at hin
  | cons b rest ih =>
      by_cases hb : key b = id
      · -- the message itself: nothing is before it, and the loop always tries its head
        have hhead : ∃ m ∈ tried handled (b :: rest), key m = id := by
          refine ⟨b, ?_, hb⟩
          unfold tried
          split <;> simp
        simp [hb, hhead]
      · have hrest : ∃ m ∈ rest, key m = id := by simpa [hb] using hin
        cases hhandled : handled b with
        | true => simpa [tried, hhandled, hb] using ih hrest
        | false => simp [tried, hhandled, hb]

/-- Whether it failed, of a message that the poller received and did not delete. -/
theorem PollCycle.failed_iff {c : PollCycle} {id : ℕ} (hin : c.received id = true)
    (hkept : PollCycle.deletes c id = false) :
    PollCycle.Failed c id ↔ PollCycle.ClearAhead c id := by
  have hfailed : ∀ m ∈ PollCycle.tried c, m.id = id → PollCycle.handled c m = false := by
    simpa [PollCycle.deletes] using hkept
  have htried : PollCycle.Failed c id ↔ ∃ m ∈ PollCycle.tried c, m.id = id := by
    constructor
    · rintro ⟨m, hm, hid, -⟩
      exact ⟨m, hm, hid⟩
    · rintro ⟨m, hm, hid⟩
      exact ⟨m, hm, hid, hfailed m hm hid⟩
  have hreach := SqsQueuePoller.tried_iff (PollCycle.handled c) Fifo.Message.id
    (Fifo.Cycle.received_iff.1 hin)
  rw [htried, PollCycle.tried, hreach]
  simp only [PollCycle.ClearAhead, PollCycle.handled, SqsQueuePoller.handle_iff]

/-! ## Runs -/

/-- A dead letter was received five times. It was tried and failed on each of
these receives exactly if nothing before it ended one of its batches. -/
theorem dead_letters_failed_iff
    {events : List (Fifo.Event String MessageBody (ℕ → Attempt))} {q : SagaQueue}
    (hrun : SagaQueue.run events = some q) {d : PolledMessage} (hd : d ∈ q.deadLetters) :
    (q.cycles.countP (fun c => c.received d.id) = 5 ∧
        ∀ c ∈ q.cycles, c.received d.id = true → PollCycle.Failed c d.id) ↔
      ∀ c ∈ q.cycles, c.received d.id = true → PollCycle.ClearAhead c d.id := by
  have hinv : q.Accounted sagaQueue PollCycle.deletes := Fifo.Queue.Accounted.init.run hrun
  rcases hinv.deadLetter hd with ⟨hcount, hkept⟩
  constructor
  · rintro ⟨-, hfailed⟩ c hc hin
    exact (PollCycle.failed_iff hin (hkept c hc hin)).1 (hfailed c hc hin)
  · intro hclear
    refine ⟨hcount, ?_⟩
    intro c hc hin
    exact (PollCycle.failed_iff hin (hkept c hc hin)).2 (hclear c hc hin)

/-! ## A reply alone, and a reply behind a malformed message -/

/-- The body of a valid `BudgetApproved` for order 2. -/
def approvalBody : MessageBody :=
  some (.obj
    [("messageId", .str "9b2e1c64-0000-4000-8000-000000000002"), ("type", .str "BudgetApproved"),
     ("serviceOrderId", .str "2"), ("occurredAt", .str "2026-01-01T00:00:00.000Z"),
     ("payload", .obj [])])

/-- The reply is alone on the queue and its handler throws each time. -/
def failingReply : List (Fifo.Event String MessageBody (ℕ → Attempt)) :=
  List.flatten
    [[.send "2" approvalBody],
     (List.replicate 5 [.receive [0] (fun _ => .throws), .tick 30]).flatten,
     [.redrive 0]]

theorem failing_reply_failed_itself :
    ∃ q ∈ SagaQueue.run failingReply, ∃ d ∈ q.deadLetters,
      q.cycles.countP (fun c => c.received d.id) = 5 ∧
        ∀ c ∈ q.cycles, c.received d.id = true → PollCycle.Failed c d.id := by
  have hclear : ∃ q ∈ SagaQueue.run failingReply, ∃ d ∈ q.deadLetters,
      ∀ c ∈ q.cycles, c.received d.id = true → PollCycle.ClearAhead c d.id := by
    decide +kernel
  rcases hclear with ⟨q, hrun, d, hd, hahead⟩
  exact ⟨q, hrun, d, hd, (dead_letters_failed_iff hrun hd).2 hahead⟩

/-- A malformed message of order 1 and the reply of order 2 are received together
five times. Every handler would succeed. -/
def poisonedQueue : List (Fifo.Event String MessageBody (ℕ → Attempt)) :=
  List.flatten
    [[.send "1" (some (.obj [("unexpected", .bool true)])), .send "2" approvalBody],
     (List.replicate 5 [.receive [0, 1] (fun _ => .processed), .tick 30]).flatten,
     [.redrive 0, .redrive 1]]

/-- The reply is dead-lettered, and no receive of it ever tried it. -/
theorem waiting_reply_dead_lettered :
    ∃ q ∈ SagaQueue.run poisonedQueue, ∃ d ∈ q.deadLetters,
      d.group = "2" ∧
      ((parseEnvelope d.body).any
        (fun envelope => (SagaReplyHandler.handle envelope none).isOk)) = true ∧
      (∀ c ∈ q.cycles, c.received d.id = true ∧ c.outcome d.id = .processed ∧
        ¬PollCycle.Failed c d.id ∧ ∀ m ∈ PollCycle.tried c, m.id ≠ d.id) ∧
      q.cycles.length = 5 := by
  decide +kernel

end CarRepairShop
