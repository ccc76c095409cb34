import Mathlib.Data.List.Basic
import Mathlib.Data.List.Nodup
import Mathlib.Data.List.Infix

/-! # A FIFO queue with a dead-letter queue

Messages of several groups wait on one queue. A receive takes a batch: of each
group the messages that are first in line. Their receive counts go up and they
are hidden for the visibility timeout. The consumer then deletes some of them.
A message that was received `maxReceiveCount` times and is still there when it
becomes visible again goes to the dead-letter queue.

What the consumer makes of a batch is a parameter: `outcome` is whatever decides
its run, and `deletes` says which messages of the batch it deleted. The queue
keeps the log of its receives. `Accounted` is the invariant: it says what the
receive count of a message has to do with the log.
-/

namespace Fifo

/-- A message on a queue. -/
structure Message (G β : Type) where
  id : ℕ
  group : G
  body : β
  receiveCount : ℕ := 0
  visibleAt : ℕ := 0

/-- The settings of a queue. -/
structure Policy where
  visibilityTimeout : ℕ
  maxReceiveCount : ℕ
  maxMessages : ℕ

/-- One receive: the batch, and what decides the consumer's run over it. -/
structure Cycle (G β ω : Type) where
  batch : List (Message G β)
  outcome : ω

/-- The queue, its dead-letter queue and the receives so far. -/
structure Queue (G β ω : Type) where
  now : ℕ := 0
  sent : ℕ := 0
  messages : List (Message G β) := []
  deadLetters : List (Message G β) := []
  cycles : List (Cycle G β ω) := []

/-- What can happen to a queue. -/
inductive Event (G β ω : Type) where
  /-- A producer sends a message. -/
  | send (group : G) (body : β)
  /-- Time passes. -/
  | tick (d : ℕ)
  /-- The consumer receives these messages and runs over them. -/
  | receive (ids : List ℕ) (outcome : ω)
  /-- A message is moved to the dead-letter queue. -/
  | redrive (id : ℕ)

variable {G β ω : Type}

/-- The batch holds the message with this id. -/
def Cycle.received (c : Cycle G β ω) (id : ℕ) : Bool :=
  c.batch.any (fun m => m.id = id)

theorem Cycle.received_iff {c : Cycle G β ω} {id : ℕ} :
    c.received id = true ↔ ∃ m ∈ c.batch, m.id = id := by
  simp [Cycle.received]

/-- A message as a receive leaves it. -/
def Message.take (m : Message G β) (hiddenUntil : ℕ) : Message G β :=
  { m with receiveCount := m.receiveCount + 1, visibleAt := hiddenUntil }

/-- The messages with these ids, in this order. -/
def Queue.pick (q : Queue G β ω) (ids : List ℕ) : List (Message G β) :=
  ids.filterMap (fun id => q.messages.find? (fun m => m.id = id))

theorem Queue.mem_of_mem_pick {q : Queue G β ω} {ids : List ℕ} {m : Message G β}
    (h : m ∈ q.pick ids) : m ∈ q.messages := by
  rcases List.mem_filterMap.1 h with ⟨id, -, hfind⟩
  exact List.mem_of_find?_eq_some hfind

/-- A receive may return this batch: it is not too long, no message is in it
twice, each of them is visible and has a receive left, and none overtakes
another message of its group. -/
def Queue.Receivable [DecidableEq G] (policy : Policy) (q : Queue G β ω)
    (batch : List (Message G β)) : Prop :=
  batch.length ≤ policy.maxMessages ∧
  (batch.map Message.id).Nodup ∧
  (∀ m ∈ batch, m.visibleAt ≤ q.now ∧ m.receiveCount < policy.maxReceiveCount) ∧
  ∀ m ∈ batch,
    (batch.filter (fun x => x.group = m.group)).map Message.id <+:
      (q.messages.filter (fun x => x.group = m.group)).map Message.id

instance [DecidableEq G] (policy : Policy) (q : Queue G β ω) (batch : List (Message G β)) :
    Decidable (q.Receivable policy batch) := by
  unfold Queue.Receivable
  infer_instance

/-- The queue after a receive and the consumer's run over the batch. -/
def Queue.afterCycle (policy : Policy) (deletes : Cycle G β ω → ℕ → Bool) (q : Queue G β ω)
    (c : Cycle G β ω) : Queue G β ω :=
  { q with
    messages := (q.messages.filter (fun m => !(c.received m.id && deletes c m.id))).map
      (fun m => if c.received m.id then m.take (q.now + policy.visibilityTimeout) else m)
    cycles := q.cycles ++ [c] }

/-- One event, where it is possible. -/
def Queue.step [DecidableEq G] (policy : Policy) (deletes : Cycle G β ω → ℕ → Bool)
    (q : Queue G β ω) : Event G β ω → Option (Queue G β ω)
  | .send group body =>
      some { q with sent := q.sent + 1, messages := q.messages ++ [{ id := q.sent, group, body }] }
  | .tick d => some { q with now := q.now + d }
  | .receive ids outcome =>
      if q.Receivable policy (q.pick ids) then
        some (q.afterCycle policy deletes { batch := q.pick ids, outcome })
      else none
  | .redrive id =>
      match q.messages.find? (fun m => m.id = id) with
      | some m =>
          if policy.maxReceiveCount ≤ m.receiveCount ∧ m.visibleAt ≤ q.now then
            some { q with
              messages := q.messages.filter (fun x => x.id ≠ id)
              deadLetters := q.deadLetters ++ [m] }
          else none
      | none => none

/-- A sequence of events. -/
def Queue.run [DecidableEq G] (policy : Policy) (deletes : Cycle G β ω → ℕ → Bool) :
    Queue G β ω → List (Event G β ω) → Option (Queue G β ω)
  | q, [] => some q
  | q, e :: events => (q.step policy deletes e).bind (fun q' => q'.run policy deletes events)

/-! ## Receive counts and the log -/

/-- What the receive counts have to do with the log. -/
structure Queue.Accounted (policy : Policy) (deletes : Cycle G β ω → ℕ → Bool)
    (q : Queue G β ω) : Prop where
  /-- Ids are given once. -/
  sent : ∀ m ∈ q.messages ++ q.deadLetters, m.id < q.sent
  logged : ∀ c ∈ q.cycles, ∀ m ∈ c.batch, m.id < q.sent
  named : (q.messages.map Message.id).Nodup
  /-- A dead letter is no longer on the queue. -/
  apart : ∀ m ∈ q.messages, ∀ d ∈ q.deadLetters, m.id ≠ d.id
  counts : ∀ m ∈ q.messages ++ q.deadLetters,
    m.receiveCount = q.cycles.countP (fun c => c.received m.id)
  /-- What is still there was not deleted by any receive. -/
  kept : ∀ m ∈ q.messages ++ q.deadLetters, ∀ c ∈ q.cycles,
    c.received m.id = true → deletes c m.id = false
  waiting : ∀ m ∈ q.messages, m.receiveCount ≤ policy.maxReceiveCount
  dead : ∀ d ∈ q.deadLetters, d.receiveCount = policy.maxReceiveCount

variable {policy : Policy} {deletes : Cycle G β ω → ℕ → Bool} {q q' : Queue G β ω}

theorem Queue.Accounted.init : ({} : Queue G β ω).Accounted policy deletes := by
  constructor <;> simp

theorem Queue.Accounted.send (h : q.Accounted policy deletes) (group : G) (body : β) :
    ({ q with sent := q.sent + 1,
              messages := q.messages ++ [{ id := q.sent, group, body }] } :
      Queue G β ω).Accounted policy deletes := by
  -- the id is new, so no receive of the log had it
  have hnew : ∀ c ∈ q.cycles, c.received q.sent = false := by
    intro c hc
    by_contra hrec
    rcases Cycle.received_iff.1 (by simpa using hrec) with ⟨m, hm, hid⟩
    have hlt := h.logged c hc m hm
    omega
  have hmem : ∀ m ∈ q.messages ++ [({ id := q.sent, group, body } : Message G β)] ++ q.deadLetters,
      m ∈ q.messages ++ q.deadLetters ∨ m = { id := q.sent, group, body } := by
    intro m hm
    simp only [List.mem_append, List.mem_singleton] at hm ⊢
    tauto
  constructor
  · intro m hm
    rcases hmem m hm with hold | rfl
    · exact Nat.lt_succ_of_lt (h.sent m hold)
    · exact Nat.lt_succ_self _
  · intro c hc m hm
    exact Nat.lt_succ_of_lt (h.logged c hc m hm)
  · have hfresh : q.sent ∉ q.messages.map Message.id := by
      intro hin
      rcases List.mem_map.1 hin with ⟨m, hm, hid⟩
      have hlt := h.sent m (List.mem_append_left _ hm)
      omega
    rw [List.map_append]
    exact h.named.append (List.nodup_singleton _) (by simpa using hfresh)
  · intro m hm d hd
    rcases List.mem_append.1 hm with hold | hlast
    · exact h.apart m hold d hd
    · have hlt := h.sent d (List.mem_append_right _ hd)
      rw [List.mem_singleton.1 hlast]
      exact (Nat.ne_of_lt hlt).symm
  · intro m hm
    rcases hmem m hm with hold | rfl
    · exact h.counts m hold
    · exact (List.countP_eq_zero.2 (fun c hc => by simp [hnew c hc])).symm
  · intro m hm c hc hrec
    rcases hmem m hm with hold | rfl
    · exact h.kept m hold c hc hrec
    · exact absurd hrec (by simp [hnew c hc])
  · intro m hm
    rcases List.mem_append.1 hm with hold | hlast
    · exact h.waiting m hold
    · rw [List.mem_singleton.1 hlast]
      exact Nat.zero_le _
  · exact h.dead

theorem Queue.Accounted.tick (h : q.Accounted policy deletes) (d : ℕ) :
    ({ q with now := q.now + d } : Queue G β ω).Accounted policy deletes :=
  ⟨h.sent, h.logged, h.named, h.apart, h.counts, h.kept, h.waiting, h.dead⟩

/-- What a receive leaves of a message: it was there, and it was not deleted. -/
theorem Queue.mem_afterCycle {c : Cycle G β ω} {m : Message G β}
    (hm : m ∈ (q.afterCycle policy deletes c).messages) :
    ∃ m₀ ∈ q.messages, m.id = m₀.id ∧ (c.received m₀.id = true → deletes c m₀.id = false) ∧
      m.receiveCount = m₀.receiveCount + if c.received m₀.id then 1 else 0 := by
  rcases List.mem_map.1 hm with ⟨m₀, hm₀, rfl⟩
  rcases List.mem_filter.1 hm₀ with ⟨hin, hkeep⟩
  refine ⟨m₀, hin, ?_⟩
  cases hrec : c.received m₀.id with
  | true =>
      have hleft : deletes c m₀.id = false := by simpa [hrec] using hkeep
      simp [Message.take, hleft]
  | false => simp

/-- The ids after a receive. -/
theorem Queue.ids_afterCycle (c : Cycle G β ω) :
    (q.afterCycle policy deletes c).messages.map Message.id =
      (q.messages.filter (fun m => !(c.received m.id && deletes c m.id))).map Message.id := by
  have hid : Message.id ∘ (fun m : Message G β =>
      if c.received m.id then m.take (q.now + policy.visibilityTimeout) else m) = Message.id := by
    funext m
    by_cases hrec : c.received m.id = true <;> simp [hrec, Message.take]
  rw [Queue.afterCycle, List.map_map, hid]

theorem Queue.Accounted.afterCycle (h : q.Accounted policy deletes) {c : Cycle G β ω}
    (hfrom : ∀ m ∈ c.batch, m ∈ q.messages)
    (hleft : ∀ m ∈ c.batch, m.receiveCount < policy.maxReceiveCount) :
    (q.afterCycle policy deletes c).Accounted policy deletes := by
  -- a dead letter is not in the batch
  have hdead : ∀ d ∈ q.deadLetters, c.received d.id = false := by
    intro d hd
    by_contra hrec
    rcases Cycle.received_iff.1 (by simpa using hrec) with ⟨m, hm, hid⟩
    exact h.apart m (hfrom m hm) d hd hid
  have hmem : ∀ m ∈ (q.afterCycle policy deletes c).messages ++ q.deadLetters,
      ∃ m₀ ∈ q.messages ++ q.deadLetters, m.id = m₀.id ∧
        (c.received m₀.id = true → deletes c m₀.id = false) ∧
        m.receiveCount = m₀.receiveCount + if c.received m₀.id then 1 else 0 := by
    intro m hm
    rcases List.mem_append.1 hm with hin | hd
    · rcases Queue.mem_afterCycle hin with ⟨m₀, hm₀, hspec⟩
      exact ⟨m₀, List.mem_append_left _ hm₀, hspec⟩
    · exact ⟨m, List.mem_append_right _ hd, rfl, by simp [hdead m hd], by simp [hdead m hd]⟩
  constructor
  · intro m hm
    rcases hmem m hm with ⟨m₀, hm₀, hid, -⟩
    rw [hid]
    exact h.sent m₀ hm₀
  · intro x hx m hm
    rcases List.mem_append.1 hx with hold | hlast
    · exact h.logged x hold m hm
    · rw [List.mem_singleton.1 hlast] at hm
      exact h.sent m (List.mem_append_left _ (hfrom m hm))
  · rw [Queue.ids_afterCycle]
    exact h.named.sublist (List.filter_sublist.map _)
  · intro m hm d hd
    rcases Queue.mem_afterCycle hm with ⟨m₀, hm₀, hid, -⟩
    rw [hid]
    exact h.apart m₀ hm₀ d hd
  · intro m hm
    rcases hmem m hm with ⟨m₀, hm₀, hid, -, hcount⟩
    rw [hcount, h.counts m₀ hm₀, hid]
    simp [Queue.afterCycle, List.countP_append, List.countP_singleton]
  · intro m hm x hx hrec
    rcases hmem m hm with ⟨m₀, hm₀, hid, hkept, -⟩
    rw [hid] at hrec ⊢
    rcases List.mem_append.1 hx with hold | hlast
    · exact h.kept m₀ hm₀ x hold hrec
    · rw [List.mem_singleton.1 hlast] at hrec ⊢
      exact hkept hrec
  · intro m hm
    rcases Queue.mem_afterCycle hm with ⟨m₀, hm₀, -, -, hcount⟩
    have hold := h.waiting m₀ hm₀
    cases hrec : c.received m₀.id with
    | true =>
        -- ids name messages, so it is the one in the batch
        rcases Cycle.received_iff.1 hrec with ⟨b, hb, hbid⟩
        have hsame : b = m₀ := List.inj_on_of_nodup_map h.named (hfrom b hb) hm₀ hbid
        have hroom := hleft b hb
        rw [hsame] at hroom
        simp only [hrec, if_true] at hcount
        omega
    | false =>
        simp only [hrec, Bool.false_eq_true, if_false] at hcount
        omega
  · exact h.dead

theorem Queue.Accounted.redrive (h : q.Accounted policy deletes) {m : Message G β}
    (hm : m ∈ q.messages) (hspent : policy.maxReceiveCount ≤ m.receiveCount) :
    ({ q with
        messages := q.messages.filter (fun x => x.id ≠ m.id)
        deadLetters := q.deadLetters ++ [m] } : Queue G β ω).Accounted policy deletes := by
  have hmem : ∀ x ∈ q.messages.filter (fun x => x.id ≠ m.id) ++ (q.deadLetters ++ [m]),
      x ∈ q.messages ++ q.deadLetters := by
    intro x hx
    simp only [List.mem_append, List.mem_filter, List.mem_singleton] at hx ⊢
    rcases hx with ⟨hx, -⟩ | hx | rfl
    · exact .inl hx
    · exact .inr hx
    · exact .inl hm
  constructor
  · exact fun x hx => h.sent x (hmem x hx)
  · exact h.logged
  · exact h.named.sublist (List.filter_sublist.map _)
  · intro x hx d hd
    rcases List.mem_filter.1 hx with ⟨hin, hother⟩
    rcases List.mem_append.1 hd with hold | hlast
    · exact h.apart x hin d hold
    · rw [List.mem_singleton.1 hlast]
      simpa using hother
  · exact fun x hx => h.counts x (hmem x hx)
  · exact fun x hx => h.kept x (hmem x hx)
  · exact fun x hx => h.waiting x (List.mem_filter.1 hx).1
  · intro d hd
    rcases List.mem_append.1 hd with hold | hlast
    · exact h.dead d hold
    · rw [List.mem_singleton.1 hlast]
      exact Nat.le_antisymm (h.waiting m hm) hspent

theorem Queue.Accounted.step [DecidableEq G] (h : q.Accounted policy deletes)
    {e : Event G β ω} (hstep : q.step policy deletes e = some q') :
    q'.Accounted policy deletes := by
  cases e with
  | send group body =>
      cases hstep
      exact h.send group body
  | tick d =>
      cases hstep
      exact h.tick d
  | receive ids outcome =>
      simp only [Queue.step] at hstep
      split at hstep
      next hok =>
        cases hstep
        rcases hok with ⟨-, -, hleft, -⟩
        exact h.afterCycle (fun m hm => Queue.mem_of_mem_pick hm) (fun m hm => (hleft m hm).2)
      next => cases hstep
  | redrive id =>
      simp only [Queue.step] at hstep
      split at hstep
      next m hfind =>
        have hin := List.mem_of_find?_eq_some hfind
        have hid : m.id = id := by simpa using List.find?_some hfind
        split at hstep
        next hspent =>
          cases hstep
          rw [← hid]
          exact h.redrive hin hspent.1
        next => cases hstep
      next => cases hstep

/-- The invariant holds after any events. -/
theorem Queue.Accounted.run [DecidableEq G] (h : q.Accounted policy deletes)
    {events : List (Event G β ω)} (hrun : q.run policy deletes events = some q') :
    q'.Accounted policy deletes := by
  induction events generalizing q with
  | nil =>
      cases hrun
      exact h
  | cons e events ih =>
      rcases Option.bind_eq_some_iff.1 hrun with ⟨q₁, hstep, hrest⟩
      exact ih (h.step hstep) hrest

/-- A dead letter was received `maxReceiveCount` times, and no receive deleted it. -/
theorem Queue.Accounted.deadLetter (h : q.Accounted policy deletes) {d : Message G β}
    (hd : d ∈ q.deadLetters) :
    q.cycles.countP (fun c => c.received d.id) = policy.maxReceiveCount ∧
      ∀ c ∈ q.cycles, c.received d.id = true → deletes c d.id = false :=
  ⟨(h.counts d (List.mem_append_right _ hd)).symm.trans (h.dead d hd),
    h.kept d (List.mem_append_right _ hd)⟩

end Fifo
