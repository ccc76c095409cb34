import CarRepairShop.Lib.FifoQueue

/-! # Consumers of a FIFO queue

Any number of consumers work on one queue. Each receives a batch and goes through
it: it hands a message to its handler, and once the handler has resolved it
deletes the message and goes on to the next. A message it cannot read, a handler
that throws, a deletion that fails and a process that ends all stop the batch.
What was not deleted is received again, by whichever consumer asks first.

The trace lists when a handler was invoked, when it resolved, and when a message
was given up to the dead-letter queue. `Consumers.Orderly` is the invariant. It
says of each batch in progress that whatever came earlier in the group of a
message is settled, or stands before it in the same batch.
-/

namespace Fifo

/-- Where a consumer is in its batch. Between two batches it has nothing left. -/
inductive Consumer (G β : Type) where
  | batch (rest : List (Message G β))
  | handling (m : Message G β) (rest : List (Message G β))
  | deleting (m : Message G β) (rest : List (Message G β))

/-- The messages of the batch that are not handled yet. -/
def Consumer.pending {G β : Type} : Consumer G β → List (Message G β)
  | .batch rest => rest
  | .handling m rest => m :: rest
  | .deleting _ rest => rest

/-- What the trace lists of a message, by its id. -/
inductive Act where
  | invoked (id : ℕ)
  | resolved (id : ℕ)
  | deadLettered (id : ℕ)
deriving DecidableEq, Repr

/-- The queue, the groups of all messages ever sent to it, and its consumers. -/
structure Consumers (G β : Type) where
  queue : Queue G β Unit := {}
  groups : List G := []
  consumers : List (Consumer G β) := []
  trace : List Act := []

/-- What can happen. -/
inductive Consumers.Event (G β : Type) where
  | send (group : G) (body : β)
  | tick (d : ℕ)
  | redrive (id : ℕ)
  /-- One more consumer. -/
  | join
  /-- Consumer `i` receives these messages. -/
  | receive (i : ℕ) (ids : List ℕ)
  /-- Consumer `i` invokes its handler on the next message. -/
  | invoke (i : ℕ)
  /-- The handler resolves. -/
  | resolve (i : ℕ)
  /-- The deletion takes place or not, and is answered or fails. -/
  | delete (i : ℕ) (removed answered : Bool)
  /-- The batch of consumer `i` ends here. -/
  | stop (i : ℕ)

variable {G β : Type}

/-- A receive deletes nothing: that is the consumer's next call. -/
def keeps (_ : Cycle G β Unit) (_ : ℕ) : Bool := false

/-- The queue without this message. -/
def Queue.remove (q : Queue G β Unit) (id : ℕ) : Queue G β Unit :=
  { q with messages := q.messages.filter (fun x => x.id ≠ id) }

namespace Consumers

/-- One event, where it is possible. `readable` says which bodies a consumer hands to
its handler. -/
def step [DecidableEq G] (policy : Policy) (readable : β → Bool) (s : Consumers G β) :
    Event G β → Option (Consumers G β)
  | .send group body =>
      (s.queue.step policy keeps (.send group body)).map fun q =>
        { s with queue := q, groups := s.groups ++ [group] }
  | .tick d => (s.queue.step policy keeps (.tick d)).map fun q => { s with queue := q }
  | .redrive id =>
      (s.queue.step policy keeps (.redrive id)).map fun q =>
        { s with queue := q, trace := s.trace ++ [.deadLettered id] }
  | .join => some { s with consumers := s.consumers ++ [.batch []] }
  | .receive i ids =>
      match s.consumers[i]? with
      | some (.batch []) =>
          (s.queue.step policy keeps (.receive ids ())).map fun q =>
            { s with queue := q, consumers := s.consumers.set i (.batch (s.queue.pick ids)) }
      | _ => none
  | .invoke i =>
      match s.consumers[i]? with
      | some (.batch (m :: rest)) =>
          if readable m.body then
            some { s with
              consumers := s.consumers.set i (.handling m rest)
              trace := s.trace ++ [.invoked m.id] }
          else none
      | _ => none
  | .resolve i =>
      match s.consumers[i]? with
      | some (.handling m rest) =>
          some { s with
            consumers := s.consumers.set i (.deleting m rest)
            trace := s.trace ++ [.resolved m.id] }
      | _ => none
  | .delete i removed answered =>
      match s.consumers[i]? with
      | some (.deleting m rest) =>
          some { s with
            queue := if removed then s.queue.remove m.id else s.queue
            consumers := s.consumers.set i (.batch (if answered then rest else [])) }
      | _ => none
  | .stop i => some { s with consumers := s.consumers.set i (.batch []) }

/-- A sequence of events. -/
def run [DecidableEq G] (policy : Policy) (readable : β → Bool) :
    Consumers G β → List (Event G β) → Option (Consumers G β)
  | s, [] => some s
  | s, e :: events => (s.step policy readable e).bind fun s' => s'.run policy readable events

end Consumers

/-- The message was handled, or is a dead letter. -/
def Settled (trace : List Act) (id : ℕ) : Prop := .resolved id ∈ trace ∨ .deadLettered id ∈ trace

theorem Settled.append {trace : List Act} {id : ℕ} (h : Settled trace id) (more : List Act) :
    Settled (trace ++ more) id := by
  rcases h with h | h
  · exact .inl (List.mem_append_left _ h)
  · exact .inr (List.mem_append_left _ h)

/-! ## The invariant -/

/-- What is earlier in the group of a message of this batch is settled, or stands before it
in the batch. -/
structure Consumer.InOrder (groups : List G) (trace : List Act) (c : Consumer G β) : Prop where
  received : ∀ m ∈ c.pending, groups[m.id]? = some m.group
  resolved : ∀ m rest, c = .deleting m rest → Settled trace m.id
  ahead : ∀ done m later, c.pending = done ++ m :: later →
    ∀ e < m.id, groups[e]? = some m.group → Settled trace e ∨ e ∈ done.map Message.id

/-- The queue is in the order of sending, each message that is no longer on it is settled,
the batches are in order, and so were the invocations. -/
structure Consumers.Orderly (s : Consumers G β) : Prop where
  sent : s.queue.sent = s.groups.length
  sorted : (s.queue.messages.map Message.id).Pairwise (· < ·)
  named : ∀ m ∈ s.queue.messages, s.groups[m.id]? = some m.group
  gone : ∀ id < s.groups.length, id ∈ s.queue.messages.map Message.id ∨ Settled s.trace id
  batches : ∀ c ∈ s.consumers, c.InOrder s.groups s.trace
  invoked : ∀ before id after, s.trace = before ++ .invoked id :: after →
    id < s.groups.length ∧ ∀ e < id, s.groups[e]? = s.groups[id]? → Settled before e

variable {s s' : Consumers G β}

theorem Consumer.InOrder.idle (groups : List G) (trace : List Act) :
    (Consumer.batch [] : Consumer G β).InOrder groups trace := by
  constructor <;> simp [Consumer.pending]

theorem Consumers.Orderly.init : ({} : Consumers G β).Orderly := by
  constructor <;> simp

/-- More messages and a longer trace leave a batch in order. -/
theorem Consumer.InOrder.grow {groups : List G} {trace : List Act} {c : Consumer G β}
    (h : c.InOrder groups trace) (new : List G) (acts : List Act) :
    c.InOrder (groups ++ new) (trace ++ acts) where
  received m hm := by
    have hold := h.received m hm
    rw [List.getElem?_append_left (List.getElem?_eq_some_iff.mp hold).1]
    exact hold
  resolved m rest hc := (h.resolved m rest hc).append acts
  ahead done m later hc e he hgroup := by
    have hold := h.received m (by simp [hc])
    have hlt := (List.getElem?_eq_some_iff.mp hold).1
    rw [List.getElem?_append_left (by omega)] at hgroup
    rcases h.ahead done m later hc e he hgroup with hsettled | hdone
    · exact .inl (hsettled.append acts)
    · exact .inr hdone

theorem Consumer.InOrder.log {groups : List G} {trace : List Act} {c : Consumer G β}
    (h : c.InOrder groups trace) (act : Act) : c.InOrder groups (trace ++ [act]) := by
  have hgrow := h.grow [] [act]
  rwa [List.append_nil] at hgrow

/-- A trace grows by one act at its end. -/
theorem eq_of_append_act {trace before after : List Act} {act : Act} {id : ℕ}
    (h : trace ++ [act] = before ++ .invoked id :: after) :
    (∃ after', trace = before ++ .invoked id :: after') ∨ (act = .invoked id ∧ before = trace) := by
  rcases List.eq_nil_or_concat after with rfl | ⟨after', last, rfl⟩
  · have hsplit := List.append_inj' h rfl
    simp only [List.cons.injEq, and_true] at hsplit
    exact .inr ⟨hsplit.2, hsplit.1.symm⟩
  · rw [List.concat_eq_append, ← List.cons_append, ← List.append_assoc] at h
    exact .inl ⟨after', (List.append_inj' h rfl).1⟩

/-! ## The parts of a step -/

theorem Consumers.Orderly.send (h : s.Orderly) (group : G) (body : β) :
    ({ s with
        queue := { s.queue with
          sent := s.queue.sent + 1
          messages := s.queue.messages ++ [{ id := s.queue.sent, group, body }] }
        groups := s.groups ++ [group] } : Consumers G β).Orderly where
  sent := by simp [h.sent]
  sorted := by
    simp only [List.map_append, List.map_cons, List.map_nil]
    rw [List.pairwise_append]
    refine ⟨h.sorted, List.pairwise_singleton _ _, ?_⟩
    intro id hid last hlast
    rcases List.mem_map.mp hid with ⟨m, hm, rfl⟩
    have hlt := (List.getElem?_eq_some_iff.mp (h.named m hm)).1
    rw [List.mem_singleton.mp hlast, h.sent]
    exact hlt
  named := by
    intro m hm
    rcases List.mem_append.mp hm with hold | hnew
    · have hgroup := h.named m hold
      rw [List.getElem?_append_left (List.getElem?_eq_some_iff.mp hgroup).1]
      exact hgroup
    · rw [List.mem_singleton.mp hnew, h.sent]
      simp
  gone := by
    intro id hid
    simp only [List.length_append, List.length_singleton] at hid
    by_cases hnew : id = s.groups.length
    · left
      simp [h.sent, hnew]
    · rcases h.gone id (by omega) with hin | hsettled
      · left
        simp only [List.map_append]
        exact List.mem_append_left _ hin
      · exact .inr hsettled
  batches c hc := by
    have hgrow := (h.batches c hc).grow [group] []
    rwa [List.append_nil] at hgrow
  invoked := by
    intro before id after htrace
    rcases h.invoked before id after htrace with ⟨hlt, hbefore⟩
    refine ⟨by simp only [List.length_append]; omega, ?_⟩
    intro e he hgroup
    rw [List.getElem?_append_left (by omega), List.getElem?_append_left hlt] at hgroup
    exact hbefore e he hgroup

/-- An act that is no invocation is logged. -/
theorem Consumers.Orderly.log (h : s.Orderly) {act : Act} (hact : ∀ id, act ≠ .invoked id) :
    ({ s with trace := s.trace ++ [act] } : Consumers G β).Orderly where
  sent := h.sent
  sorted := h.sorted
  named := h.named
  gone := by
    intro id hid
    rcases h.gone id hid with hin | hsettled
    · exact .inl hin
    · exact .inr (hsettled.append [act])
  batches c hc := (h.batches c hc).log act
  invoked := by
    intro before id after htrace
    rcases eq_of_append_act htrace with ⟨after', hold⟩ | ⟨hlast, -⟩
    · exact h.invoked before id after' hold
    · exact absurd hlast (hact id)

/-- The queue keeps its order and loses settled messages only. -/
theorem Consumers.Orderly.withQueue (h : s.Orderly) {q : Queue G β Unit}
    (hsent : q.sent = s.queue.sent)
    (hsub : (q.messages.map Message.id).Sublist (s.queue.messages.map Message.id))
    (hnamed : ∀ m ∈ q.messages, ∃ m₀ ∈ s.queue.messages, m.id = m₀.id ∧ m.group = m₀.group)
    (hgone : ∀ m ∈ s.queue.messages, m.id ∈ q.messages.map Message.id ∨ Settled s.trace m.id) :
    ({ s with queue := q } : Consumers G β).Orderly where
  sent := hsent.trans h.sent
  sorted := h.sorted.sublist hsub
  named := by
    intro m hm
    rcases hnamed m hm with ⟨m₀, hm₀, hid, hgroup⟩
    rw [hid, hgroup]
    exact h.named m₀ hm₀
  gone := by
    intro id hid
    rcases h.gone id hid with hin | hsettled
    · rcases List.mem_map.mp hin with ⟨m, hm, rfl⟩
      exact hgone m hm
    · exact .inr hsettled
  batches := h.batches
  invoked := h.invoked

/-- A settled message is removed. -/
theorem Consumers.Orderly.remove (h : s.Orderly) {id : ℕ} (hsettled : Settled s.trace id) :
    ({ s with queue := s.queue.remove id } : Consumers G β).Orderly := by
  apply h.withQueue (q := s.queue.remove id) rfl
  · exact List.filter_sublist.map _
  · intro m hm
    exact ⟨m, (List.mem_filter.mp hm).1, rfl, rfl⟩
  · intro m hm
    by_cases hid : m.id = id
    · right
      rw [hid]
      exact hsettled
    · left
      exact List.mem_map_of_mem (List.mem_filter.mpr ⟨hm, by simpa using hid⟩)

/-- A consumer goes on to a batch that is in order. -/
theorem Consumers.Orderly.set (h : s.Orderly) {i : ℕ} {c : Consumer G β}
    (hc : c.InOrder s.groups s.trace) :
    ({ s with consumers := s.consumers.set i c } : Consumers G β).Orderly where
  sent := h.sent
  sorted := h.sorted
  named := h.named
  gone := h.gone
  batches := by
    intro c' hc'
    rcases List.mem_or_eq_of_mem_set hc' with hold | rfl
    · exact h.batches c' hold
    · exact hc
  invoked := h.invoked

/-! ## Receiving -/

/-- In a sorted list, what is smaller than an element of a prefix stands before it there. -/
theorem mem_before_of_prefix {ids done later : List ℕ} {id e : ℕ} (hsorted : ids.Pairwise (· < ·))
    (hstarts : done ++ id :: later <+: ids) (he : e ∈ ids) (hlt : e < id) : e ∈ done := by
  rcases hstarts with ⟨rest, rfl⟩
  rw [List.append_assoc, List.cons_append] at hsorted he
  rcases List.mem_append.mp he with hdone | hafter
  · exact hdone
  · rcases List.mem_cons.mp hafter with rfl | hlater
    · exact absurd hlt (Nat.lt_irrefl _)
    · have hgt := List.rel_of_pairwise_cons (List.pairwise_append.mp hsorted).2.1 hlater
      omega

/-- A batch that a receive may return is in order. -/
theorem Consumers.Orderly.receivable [DecidableEq G] {policy : Policy} (h : s.Orderly)
    {batch : List (Message G β)} (hfrom : ∀ m ∈ batch, m ∈ s.queue.messages)
    (hbatch : s.queue.Receivable policy batch) :
    (Consumer.batch batch).InOrder s.groups s.trace where
  received m hm := h.named m (hfrom m hm)
  resolved m rest hc := by cases hc
  ahead := by
    intro done m later hc e he hgroup
    have hsplit : batch = done ++ m :: later := hc
    have hm : m ∈ batch := by simp [hsplit]
    have hlt := (List.getElem?_eq_some_iff.mp (h.named m (hfrom m hm))).1
    rcases h.gone e (by omega) with hin | hsettled
    · -- the earlier message waits too, so the receive returned it before this one
      right
      rcases List.mem_map.mp hin with ⟨x, hx, rfl⟩
      have hsame : x.group = m.group := by
        have hx' := h.named x hx
        rw [hgroup] at hx'
        exact (Option.some.inj hx').symm
      have hstarts := hbatch.2.2.2 m hm
      rw [hsplit, List.filter_append, List.filter_cons_of_pos (by simp), List.map_append,
        List.map_cons] at hstarts
      have hbefore : x.id ∈ (done.filter (fun y => y.group = m.group)).map Message.id := by
        refine mem_before_of_prefix (h.sorted.sublist (List.filter_sublist.map _)) hstarts ?_ he
        exact List.mem_map_of_mem (List.mem_filter.mpr ⟨hx, by simpa using hsame⟩)
      exact (List.filter_sublist.map _).subset hbefore
    · exact .inl hsettled

theorem Consumers.Orderly.receive [DecidableEq G] {policy : Policy} (h : s.Orderly) {i : ℕ}
    {ids : List ℕ} (hbatch : s.queue.Receivable policy (s.queue.pick ids)) :
    ({ s with
        queue := s.queue.afterCycle policy keeps { batch := s.queue.pick ids, outcome := () }
        consumers := s.consumers.set i (.batch (s.queue.pick ids)) } :
      Consumers G β).Orderly := by
  have hids : ∀ c, (s.queue.afterCycle policy keeps c).messages.map Message.id
      = s.queue.messages.map Message.id := by
    intro c
    rw [Queue.ids_afterCycle]
    simp [keeps]
  have hinorder := h.receivable (fun m hm => Queue.mem_of_mem_pick hm) hbatch
  have hset := h.set (i := i) hinorder
  refine hset.withQueue ?_ ?_ ?_ ?_
  · rfl
  · rw [hids]
  · intro m hm
    rcases List.mem_map.mp hm with ⟨m₀, hm₀, rfl⟩
    refine ⟨m₀, (List.mem_filter.mp hm₀).1, ?_⟩
    split <;> simp [Message.take]
  · intro m hm
    left
    rw [hids]
    exact List.mem_map_of_mem hm

/-! ## Going through the batch -/

/-- The first message of a batch may be handled: nothing earlier of its group is open. -/
theorem Consumers.Orderly.invoke (h : s.Orderly) {i : ℕ} {m : Message G β}
    {rest : List (Message G β)} (hi : s.consumers[i]? = some (.batch (m :: rest))) :
    ({ s with
        consumers := s.consumers.set i (.handling m rest)
        trace := s.trace ++ [.invoked m.id] } : Consumers G β).Orderly := by
  have hc := h.batches _ (List.mem_of_getElem? hi)
  have hm := hc.received m List.mem_cons_self
  have hfirst : ∀ e < m.id, s.groups[e]? = some m.group → Settled s.trace e := by
    intro e he hgroup
    rcases hc.ahead [] m rest rfl e he hgroup with hsettled | hdone
    · exact hsettled
    · simp at hdone
  have hnext : (Consumer.handling m rest).InOrder s.groups (s.trace ++ [.invoked m.id]) := by
    have hlogged := hc.log (.invoked m.id)
    refine ⟨hlogged.received, ?_, hlogged.ahead⟩
    intro x later hx
    cases hx
  refine ⟨h.sent, h.sorted, h.named, ?_, ?_, ?_⟩
  · intro id hid
    rcases h.gone id hid with hin | hsettled
    · exact .inl hin
    · exact .inr (hsettled.append _)
  · intro c' hc'
    rcases List.mem_or_eq_of_mem_set hc' with hold | rfl
    · exact (h.batches c' hold).log _
    · exact hnext
  · intro before id after htrace
    rcases eq_of_append_act htrace with ⟨after', hold⟩ | ⟨hlast, rfl⟩
    · exact h.invoked before id after' hold
    · cases hlast
      refine ⟨(List.getElem?_eq_some_iff.mp hm).1, ?_⟩
      intro e he hgroup
      exact hfirst e he (hgroup.trans hm)

/-- The handler resolved, so the message is settled. -/
theorem Consumers.Orderly.resolve (h : s.Orderly) {i : ℕ} {m : Message G β}
    {rest : List (Message G β)} (hi : s.consumers[i]? = some (.handling m rest)) :
    ({ s with
        consumers := s.consumers.set i (.deleting m rest)
        trace := s.trace ++ [.resolved m.id] } : Consumers G β).Orderly := by
  have hc := h.batches _ (List.mem_of_getElem? hi)
  have hsettled : Settled (s.trace ++ [.resolved m.id]) m.id := .inl (by simp)
  have hlogged : ({ s with trace := s.trace ++ [.resolved m.id] } : Consumers G β).Orderly := by
    apply h.log
    intro id hact
    cases hact
  apply hlogged.set (i := i) (c := .deleting m rest)
  refine ⟨?_, ?_, ?_⟩
  · intro x hx
    exact hc.received x (List.mem_cons_of_mem m hx)
  · intro x later hx
    cases hx
    exact hsettled
  · intro done x later hrest e he hgroup
    have hsplit : (Consumer.handling m rest).pending = (m :: done) ++ x :: later := by
      simp only [Consumer.pending] at hrest ⊢
      rw [hrest, List.cons_append]
    rcases hc.ahead (m :: done) x later hsplit e he hgroup with hold | hdone
    · exact .inl (hold.append _)
    · rcases List.mem_cons.mp hdone with rfl | hin
      · exact .inl hsettled
      · exact .inr hin

/-- The message is removed or not; the consumer goes on, or ends its batch. -/
theorem Consumers.Orderly.delete (h : s.Orderly) {i : ℕ} {m : Message G β}
    {rest : List (Message G β)} (hi : s.consumers[i]? = some (.deleting m rest))
    (removed answered : Bool) :
    ({ s with
        queue := if removed then s.queue.remove m.id else s.queue
        consumers := s.consumers.set i (.batch (if answered then rest else [])) } :
      Consumers G β).Orderly := by
  have hc := h.batches _ (List.mem_of_getElem? hi)
  have hnext : (Consumer.batch (if answered then rest else [])).InOrder s.groups s.trace := by
    cases answered with
    | false => exact .idle _ _
    | true =>
        refine ⟨hc.received, ?_, hc.ahead⟩
        intro x later hx
        cases hx
  have hset := h.set (i := i) hnext
  cases removed with
  | false => exact hset
  | true => exact hset.remove (hc.resolved m rest rfl)

/-- A message is given up. -/
theorem Consumers.Orderly.redrive [DecidableEq G] {policy : Policy} (h : s.Orderly) {id : ℕ}
    {q : Queue G β Unit} (hstep : s.queue.step policy keeps (.redrive id) = some q) :
    ({ s with queue := q, trace := s.trace ++ [.deadLettered id] } : Consumers G β).Orderly := by
  have hlogged : ({ s with trace := s.trace ++ [.deadLettered id] } : Consumers G β).Orderly := by
    apply h.log
    intro x hact
    cases hact
  have hgone : Settled (s.trace ++ [.deadLettered id]) id := .inr (by simp)
  have hremoved := hlogged.remove hgone
  simp only [Queue.step] at hstep
  split at hstep
  · split at hstep
    · cases hstep
      exact ⟨hremoved.sent, hremoved.sorted, hremoved.named, hremoved.gone, hremoved.batches,
        hremoved.invoked⟩
    · cases hstep
  · cases hstep

/-! ## Runs -/

theorem Consumers.Orderly.step [DecidableEq G] {policy : Policy} {readable : β → Bool}
    (h : s.Orderly) {e : Consumers.Event G β} (hstep : s.step policy readable e = some s') :
    s'.Orderly := by
  cases e with
  | send group body =>
      cases hstep
      exact h.send group body
  | tick d =>
      cases hstep
      -- time only makes messages visible again
      exact h.withQueue rfl (List.Sublist.refl _) (fun m hm => ⟨m, hm, rfl, rfl⟩)
        (fun m hm => .inl (List.mem_map_of_mem hm))
  | redrive id =>
      rcases Option.map_eq_some_iff.mp hstep with ⟨q, hq, rfl⟩
      exact h.redrive hq
  | join =>
      cases hstep
      -- the consumer that joins holds nothing
      refine ⟨h.sent, h.sorted, h.named, h.gone, ?_, h.invoked⟩
      intro c hc
      rcases List.mem_append.mp hc with hold | hnew
      · exact h.batches c hold
      · rw [List.mem_singleton.mp hnew]
        exact .idle _ _
  | receive i ids =>
      simp only [Consumers.step] at hstep
      split at hstep
      · rcases Option.map_eq_some_iff.mp hstep with ⟨q, hq, rfl⟩
        simp only [Queue.step] at hq
        split at hq
        · next hbatch =>
            cases hq
            exact h.receive hbatch
        · cases hq
      · cases hstep
  | invoke i =>
      simp only [Consumers.step] at hstep
      split at hstep
      · next m rest hi =>
          split at hstep
          · cases hstep
            exact h.invoke hi
          · cases hstep
      · cases hstep
  | resolve i =>
      simp only [Consumers.step] at hstep
      split at hstep
      · next m rest hi =>
          cases hstep
          exact h.resolve hi
      · cases hstep
  | delete i removed answered =>
      simp only [Consumers.step] at hstep
      split at hstep
      · next m rest hi =>
          cases hstep
          exact h.delete hi removed answered
      · cases hstep
  | stop i =>
      cases hstep
      exact h.set (.idle _ _)

/-- The invariant holds after any events. -/
theorem Consumers.Orderly.run [DecidableEq G] {policy : Policy} {readable : β → Bool}
    (h : s.Orderly) {events : List (Consumers.Event G β)}
    (hrun : s.run policy readable events = some s') : s'.Orderly := by
  induction events generalizing s with
  | nil =>
      cases hrun
      exact h
  | cons e events ih =>
      rcases Option.bind_eq_some_iff.mp hrun with ⟨s₁, hstep, hrest⟩
      exact ih (h.step hstep) hrest

/-! ## Bodies and handlers

A system that gives the handlers something to do keeps the bodies of all messages
and lets every event through but the invocation and the answer of a handler,
which it makes itself. -/

namespace Consumers

/-- The event hands a message to a handler, or is the handler's answer. -/
def Event.calls : Event G β → Bool
  | .invoke _ => true
  | .resolve _ => true
  | _ => false

/-- The bodies that an event sends. -/
def Event.sends : Event G β → List β
  | .send _ body => [body]
  | _ => []

/-- The messages on the queue and in the batches have these bodies. -/
structure Carries (s : Consumers G β) (bodies : List β) : Prop where
  length : bodies.length = s.groups.length
  queued : ∀ m ∈ s.queue.messages, bodies[m.id]? = some m.body
  batches : ∀ c ∈ s.consumers, ∀ m ∈ c.pending, bodies[m.id]? = some m.body

variable {bodies : List β}

theorem Carries.init : ({} : Consumers G β).Carries [] := by
  constructor <;> simp

theorem Carries.set (h : s.Carries bodies) {i : ℕ} {c : Consumer G β}
    (hc : ∀ m ∈ c.pending, bodies[m.id]? = some m.body) (trace : List Act) :
    ({ s with consumers := s.consumers.set i c, trace } : Consumers G β).Carries bodies where
  length := h.length
  queued := h.queued
  batches := by
    intro c' hc'
    rcases List.mem_or_eq_of_mem_set hc' with hold | rfl
    · exact h.batches c' hold
    · exact hc

theorem Carries.withQueue (h : s.Carries bodies) {q : Queue G β Unit}
    (hq : ∀ m ∈ q.messages, ∃ m₀ ∈ s.queue.messages, m.id = m₀.id ∧ m.body = m₀.body)
    (trace : List Act) : ({ s with queue := q, trace } : Consumers G β).Carries bodies where
  length := h.length
  queued := by
    intro m hm
    rcases hq m hm with ⟨m₀, hm₀, hid, hbody⟩
    rw [hid, hbody]
    exact h.queued m₀ hm₀
  batches := h.batches

theorem Carries.send (h : s.Carries bodies) (hsent : s.queue.sent = s.groups.length) (group : G)
    (body : β) :
    ({ s with
        queue := { s.queue with
          sent := s.queue.sent + 1
          messages := s.queue.messages ++ [{ id := s.queue.sent, group, body }] }
        groups := s.groups ++ [group] } : Consumers G β).Carries (bodies ++ [body]) where
  length := by simp [h.length]
  queued := by
    intro m hm
    rcases List.mem_append.mp hm with hold | hnew
    · have hbody := h.queued m hold
      rw [List.getElem?_append_left (List.getElem?_eq_some_iff.mp hbody).1]
      exact hbody
    · rw [List.mem_singleton.mp hnew, hsent, ← h.length]
      simp
  batches := by
    intro c hc m hm
    have hbody := h.batches c hc m hm
    rw [List.getElem?_append_left (List.getElem?_eq_some_iff.mp hbody).1]
    exact hbody

theorem Carries.step [DecidableEq G] {policy : Policy} {readable : β → Bool}
    (h : s.Carries bodies) (hsent : s.queue.sent = s.groups.length) {e : Event G β}
    (hstep : s.step policy readable e = some s') : s'.Carries (bodies ++ e.sends) := by
  have hsame : ∀ m ∈ s.queue.messages, ∃ m₀ ∈ s.queue.messages, m.id = m₀.id ∧ m.body = m₀.body :=
    fun m hm => ⟨m, hm, rfl, rfl⟩
  cases e with
  | send group body =>
      cases hstep
      exact h.send hsent group body
  | tick d =>
      cases hstep
      simp only [Event.sends, List.append_nil]
      exact h.withQueue (q := { s.queue with now := s.queue.now + d }) hsame s.trace
  | redrive id =>
      rcases Option.map_eq_some_iff.mp hstep with ⟨q, hq, rfl⟩
      simp only [Event.sends, List.append_nil]
      apply h.withQueue
      simp only [Queue.step] at hq
      split at hq
      · split at hq
        · cases hq
          exact fun m hm => hsame m (List.mem_filter.mp hm).1
        · cases hq
      · cases hq
  | join =>
      cases hstep
      simp only [Event.sends, List.append_nil]
      refine ⟨h.length, h.queued, ?_⟩
      intro c hc
      rcases List.mem_append.mp hc with hold | hnew
      · exact h.batches c hold
      · rw [List.mem_singleton.mp hnew]
        simp [Consumer.pending]
  | receive i ids =>
      simp only [Consumers.step] at hstep
      split at hstep
      · rcases Option.map_eq_some_iff.mp hstep with ⟨q, hq, rfl⟩
        simp only [Event.sends, List.append_nil]
        simp only [Queue.step] at hq
        split at hq
        · cases hq
          have hset := h.set (i := i) (c := .batch (s.queue.pick ids))
            (fun m hm => h.queued m (Queue.mem_of_mem_pick hm)) s.trace
          refine hset.withQueue ?_ s.trace
          intro m hm
          rcases List.mem_map.mp hm with ⟨m₀, hm₀, rfl⟩
          refine ⟨m₀, (List.mem_filter.mp hm₀).1, ?_⟩
          split <;> simp [Message.take]
        · cases hq
      · cases hstep
  | invoke i =>
      simp only [Consumers.step] at hstep
      split at hstep
      · next m rest hi =>
          split at hstep
          · cases hstep
            simp only [Event.sends, List.append_nil]
            have hpending := h.batches _ (List.mem_of_getElem? hi)
            exact h.set (c := .handling m rest) hpending _
          · cases hstep
      · cases hstep
  | resolve i =>
      simp only [Consumers.step] at hstep
      split at hstep
      · next m rest hi =>
          cases hstep
          simp only [Event.sends, List.append_nil]
          have hpending := h.batches _ (List.mem_of_getElem? hi)
          exact h.set (c := .deleting m rest)
            (fun x hx => hpending x (List.mem_cons_of_mem m hx)) _
      · cases hstep
  | delete i removed answered =>
      simp only [Consumers.step] at hstep
      split at hstep
      · next m rest hi =>
          cases hstep
          simp only [Event.sends, List.append_nil]
          have hrest := h.batches _ (List.mem_of_getElem? hi)
          have hset := h.set (i := i) (c := .batch (if answered then rest else [])) (by
            cases answered with
            | false => simp [Consumer.pending]
            | true => exact hrest) s.trace
          cases removed with
          | false => exact hset
          | true => exact hset.withQueue (fun m hm => hsame m (List.mem_filter.mp hm).1) s.trace
      · cases hstep
  | stop i =>
      cases hstep
      simp only [Event.sends, List.append_nil]
      exact h.set (by simp [Consumer.pending]) s.trace

/-- The groups and the trace only grow. -/
structure Grows (s s' : Consumers G β) : Prop where
  groups : s.groups <+: s'.groups
  trace : s.trace <+: s'.trace

/-- An event without a handler resolves nothing and lets no handler begin. -/
structure Quiet (s s' : Consumers G β) : Prop extends s.Grows s' where
  resolved : ∀ id, .resolved id ∈ s'.trace → .resolved id ∈ s.trace
  handling : ∀ (i : ℕ) (m : Message G β) (rest : List (Message G β)),
    s'.consumers[i]? = some (.handling m rest) → s.consumers[i]? = some (.handling m rest)

/-- A consumer that is given a batch handles nothing. -/
theorem handling_of_set {consumers : List (Consumer G β)} {i j : ℕ} {batch : List (Message G β)}
    {m : Message G β} {rest : List (Message G β)}
    (h : (consumers.set i (.batch batch))[j]? = some (.handling m rest)) :
    consumers[j]? = some (.handling m rest) := by
  rw [List.getElem?_set] at h
  split at h
  · split at h
    · cases h
    · cases h
  · exact h

theorem quiet_of_step [DecidableEq G] {policy : Policy} {readable : β → Bool} {e : Event G β}
    (hstep : s.step policy readable e = some s') (hcalls : e.calls = false) : s.Quiet s' := by
  cases e with
  | send group body =>
      cases hstep
      exact ⟨⟨List.prefix_append _ _, List.prefix_rfl⟩, fun _ h => h, fun _ _ _ h => h⟩
  | tick d =>
      cases hstep
      exact ⟨⟨List.prefix_rfl, List.prefix_rfl⟩, fun _ h => h, fun _ _ _ h => h⟩
  | redrive id =>
      rcases Option.map_eq_some_iff.mp hstep with ⟨q, -, rfl⟩
      refine ⟨⟨List.prefix_rfl, List.prefix_append _ _⟩, ?_, fun _ _ _ h => h⟩
      intro x hx
      simpa using hx
  | join =>
      cases hstep
      refine ⟨⟨List.prefix_rfl, List.prefix_rfl⟩, fun _ h => h, ?_⟩
      intro i m rest h
      rw [List.getElem?_append] at h
      split at h
      · exact h
      · have hmem := List.mem_of_getElem? h
        rw [List.mem_singleton] at hmem
        cases hmem
  | receive i ids =>
      simp only [Consumers.step] at hstep
      split at hstep
      · rcases Option.map_eq_some_iff.mp hstep with ⟨q, -, rfl⟩
        exact ⟨⟨List.prefix_rfl, List.prefix_rfl⟩, fun _ h => h, fun _ _ _ h => handling_of_set h⟩
      · cases hstep
  | invoke i => cases hcalls
  | resolve i => cases hcalls
  | delete i removed answered =>
      simp only [Consumers.step] at hstep
      split at hstep
      · cases hstep
        exact ⟨⟨List.prefix_rfl, List.prefix_rfl⟩, fun _ h => h, fun _ _ _ h => handling_of_set h⟩
      · cases hstep
  | stop i =>
      cases hstep
      exact ⟨⟨List.prefix_rfl, List.prefix_rfl⟩, fun _ h => h, fun _ _ _ h => handling_of_set h⟩

/-- Only the consumer that hands over a message handles one it did not handle before. -/
theorem handling_of_invoke {consumers : List (Consumer G β)} {i j : ℕ} {m m' : Message G β}
    {rest rest' : List (Message G β)}
    (h : (consumers.set i (.handling m rest))[j]? = some (.handling m' rest')) :
    (j = i ∧ m' = m) ∨ (j ≠ i ∧ consumers[j]? = some (.handling m' rest')) := by
  rw [List.getElem?_set] at h
  split at h
  · next hij =>
    split at h
    · cases h
      exact .inl ⟨hij.symm, rfl⟩
    · cases h
  · next hij => exact .inr ⟨Ne.symm hij, h⟩

end Consumers

end Fifo
