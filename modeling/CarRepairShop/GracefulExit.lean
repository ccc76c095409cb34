import CarRepairShop.Lib.OpenCalls
import CarRepairShop.Process

/-! # A graceful exit

What a process leaves behind when its `SIGTERM` handler lets it exit with 0. Each
unit of work it started for a message has ended, or a poller waits for it
(`Awaited`); each it started for a request has ended, or the server waits for the
request, or its client has hung up (`Served`); each call that has to be made after
another is made and answered, or open (`Tracked`); and where the handler of a signal
stands says what is over by then (`Meets`).

The last of these needs that `start` came before the signal (`StartedFirst`).
-/

namespace CarRepairShop

open Lib Txn OpenCalls

/-! ## What is open -/

/-- A unit of work that has ended stays so. -/
theorem unitEnded_of_step {shop shop' : ShopSys} {label : Label Op}
    (h : shop.step postgres program label = some shop') {i : ℕ} (hi : unitEnded shop i = true) :
    unitEnded shop' i = true := by
  have hset : ∀ (j : ℕ) (op : Op) (q : Work Outcome) (tx : ShopTx)
      (t : Session Stmt Stmt.Resp Write Failure Op Outcome),
      shop.sessions[j]? = some (.running op q tx) → (shop.sessions.set j t)[i]? = shop.sessions[i]? := by
    intro j op q tx t hj
    have hne : j ≠ i := by
      intro heq
      simp [unitEnded, ← heq, hj] at hi
    exact List.getElem?_set_ne hne
  have hsame : shop'.sessions[i]? = shop.sessions[i]? → unitEnded shop' i = true := by
    intro heq
    unfold unitEnded at hi ⊢
    rw [heq]
    exact hi
  cases move_of_step (shop.allowed_none postgres label) h with
  | launch op _ =>
      apply hsame
      have hlt : i < shop.sessions.length := by
        by_contra hge
        have hnone : shop.sessions[i]? = none := List.getElem?_eq_none (by omega)
        simp [unitEnded, hnone] at hi
      exact List.getElem?_append_left hlt
  | tick d => exact hi
  | stop j op q tx e hj => exact hsame (hset j op q tx _ hj)
  | draw j op k tx hj => exact hsame (hset j op _ tx _ hj)
  | clock j op k tx hj => exact hsame (hset j op _ tx _ hj)
  | stmt j op q refused k tx r ws hj _ _ _ => exact hsame (hset j op _ tx _ hj)
  | commit j op a tx hj => exact hsame (hset j op _ tx _ hj)

/-- A call whose end the process awaits. -/
inductive ProcessCall where
  | deletion (p receipt : ℕ)
  | mark (id : Uuid)

/-- What has to follow a note: a message that was handled is deleted, and one that was sent
is marked. -/
def ProcessNote.call : ProcessNote → Option ProcessCall
  | .resolved p receipt => some (.deletion p receipt)
  | .sent id => some (.mark id)
  | _ => none

def ProcessNote.answer : ProcessNote → Option ProcessCall
  | .deleted p receipt => some (.deletion p receipt)
  | .marked id => some (.mark id)
  | _ => none

namespace ServiceProcess

variable {s s' : ServiceProcess}

/-- A poller or the relay is in this call. -/
def IsOpen (s : ServiceProcess) : ProcessCall → Prop
  | .deletion p receipt => ∃ l m rest, s.pollers[p]? = some l ∧ l.loop = .deleting m rest ∧
      m.receipt = receipt
  | .mark id => ∃ row rest, s.relay.run = .marking row rest ∧ row.id = id

/-- A poller waits for this unit of work. -/
def Handles (s : ServiceProcess) (i : ℕ) : Prop :=
  ∃ (p : ℕ) (l : SqsQueuePoller) (m : QueuedMessage) (rest : List QueuedMessage),
    s.pollers[p]? = some l ∧ l.loop = .handling m i rest

/-- The unit of work has ended, or a poller waits for it. -/
def Awaited (s : ServiceProcess) (i : ℕ) : Prop :=
  unitEnded s.shop i = true ∨ s.Handles i

/-- The unit of work has ended, or the server waits for its request, or for nobody. -/
def Served (s : ServiceProcess) (i : ℕ) : Prop :=
  unitEnded s.shop i = true ∨ i ∈ s.requests ∨ i ∈ s.abandoned

/-- Nothing of the messaging runs before `start`. -/
def Early (s : ServiceProcess) : Prop :=
  s.started = false → (∀ l ∈ s.pollers, l.ended = true) ∧ s.relay.run = .off

theorem early_move (h : s.Early) (hmove : s.Move s') : s'.Early := by
  intro hearly
  cases hmove with
  | start _ => cases hearly
  | poller p l l' note hp moved =>
      have hended := (h hearly).1 l (List.mem_of_getElem? hp)
      exfalso
      unfold SqsQueuePoller.ended at hended
      cases moved with
      | received _ hloop _ => simp [hloop] at hended
      | failed hloop => simp [hloop] at hended
      | again hbetween => rcases hbetween with hloop | ⟨_, hloop⟩ <;> simp [hloop] at hended
      | threw _ _ _ hloop _ => simp [hloop] at hended
      | resolved _ _ _ hloop _ => simp [hloop] at hended
      | deleted _ _ hloop _ => simp [hloop] at hended
  | began p l m rest hp hloop op shop _ =>
      have hended := (h hearly).1 l (List.mem_of_getElem? hp)
      simp [SqsQueuePoller.ended, hloop] at hended
  | relay r note moved =>
      have hoff := (h hearly).2
      exfalso
      cases moved with
      | fire hrun => simp [hoff] at hrun
      | fetched _ hrun => simp [hoff] at hrun
      | cycleOver hcycle => rcases hcycle with hrun | ⟨_, hrun⟩ <;> simp [hoff] at hrun
      | sent _ _ hrun => simp [hoff] at hrun
      | marked _ _ hrun _ => simp [hoff] at hrun
  | sigterm =>
      refine ⟨?_, (h hearly).2⟩
      intro l hl
      rcases List.mem_map.mp hl with ⟨l₀, hl₀, rfl⟩
      exact (h hearly).1 l₀ hl₀
  | pollersDone k running hk finished =>
      refine ⟨(h hearly).1, ?_⟩
      have hoff : s.relay.run = .off := (h hearly).2
      simp [OutboxRelay.stop, OutboxRelay.inCycle, hoff]
  | _ => exact h hearly

/-- Another poller keeps its state. -/
theorem getElem?_poll {p j : ℕ} {l' : SqsQueuePoller} {note : Option ProcessNote} (hne : j ≠ p) :
    (s.poll p l' note).pollers[j]? = s.pollers[j]? := by
  exact List.getElem?_set_ne (Ne.symm hne)

/-- A poller that goes on from a handler waited for a unit of work that has ended. -/
theorem Awaited.poll {i p : ℕ} {l l' : SqsQueuePoller} {note : Option ProcessNote}
    (h : s.Awaited i) (hp : s.pollers[p]? = some l) (hmoved : PollerMove s.shop p l l' note) :
    (s.poll p l' note).Awaited i := by
  rcases h with hended | ⟨j, x, m, rest, hj, hloop⟩
  · exact .inl hended
  · by_cases hjp : j = p
    · subst hjp
      rw [hp, Option.some.injEq] at hj
      subst hj
      left
      cases hmoved with
      | received _ hl _ => simp [hloop] at hl
      | failed hl => simp [hloop] at hl
      | again hbetween => rcases hbetween with hl | ⟨_, hl⟩ <;> simp [hloop] at hl
      | threw _ _ _ hl hover =>
          rw [hloop] at hl
          cases hl
          exact hover
      | resolved _ _ _ hl hover =>
          rw [hloop] at hl
          cases hl
          exact hover
      | deleted _ _ hl _ => simp [hloop] at hl
    · exact .inr ⟨j, x, m, rest, (getElem?_poll hjp).trans hj, hloop⟩

theorem Awaited.mono {i : ℕ} (h : s.Awaited i)
    (hended : unitEnded s.shop i = true → unitEnded s'.shop i = true)
    (hhandles : s.Handles i → s'.Handles i) : s'.Awaited i := by
  rcases h with h | h
  · exact .inl (hended h)
  · exact .inr (hhandles h)

theorem awaited_move (hearly : s.Early) (h : ∀ i ∈ s.handled, s.Awaited i) (hmove : s.Move s') :
    ∀ i ∈ s'.handled, s'.Awaited i := by
  intro i hi
  cases hmove with
  | start hnot =>
      -- before the start no poller handles anything
      refine (h i hi).mono (fun h => h) ?_
      rintro ⟨p, l, m, rest, hp, hloop⟩
      have hended := (hearly hnot).1 l (List.mem_of_getElem? hp)
      simp [SqsQueuePoller.ended, hloop] at hended
  | poller p l l' note hp moved => exact (h i hi).poll hp moved
  | began p l m rest hp hloop op shop hlaunched =>
      rcases List.mem_append.mp hi with hold | hnew
      · refine (h i hold).mono (unitEnded_of_step hlaunched) ?_
        rintro ⟨j, x, m', rest', hj, hx⟩
        have hne : j ≠ p := by
          intro heq
          rw [heq, hp, Option.some.injEq] at hj
          rw [← hj, hloop] at hx
          cases hx
        exact ⟨j, x, m', rest', (List.getElem?_set_ne (Ne.symm hne)).trans hj, hx⟩
      · rw [List.mem_singleton.mp hnew]
        have hlt := (List.getElem?_eq_some_iff.mp hp).1
        exact .inr ⟨p, _, m, rest, List.getElem?_set_self hlt, rfl⟩
  | request op hopen shop hlaunched =>
      exact (h i hi).mono (unitEnded_of_step hlaunched) (fun h => h)
  | sigterm =>
      refine (h i hi).mono (fun h => h) ?_
      rintro ⟨p, l, m, rest, hp, hloop⟩
      exact ⟨p, l.stop, m, rest, by simp [hp], hloop⟩
  | shop label shop hstep => exact (h i hi).mono (unitEnded_of_step hstep) (fun h => h)
  | _ => exact h i hi

theorem Served.mono {i : ℕ} (h : s.Served i)
    (hended : unitEnded s.shop i = true → unitEnded s'.shop i = true)
    (hrequests : i ∈ s.requests → s'.Served i) (habandoned : i ∈ s.abandoned → i ∈ s'.abandoned) :
    s'.Served i := by
  rcases h with h | h | h
  · exact .inl (hended h)
  · exact hrequests h
  · exact .inr (.inr (habandoned h))

theorem served_move (h : ∀ i ∈ s.asked, s.Served i) (hmove : s.Move s') :
    ∀ i ∈ s'.asked, s'.Served i := by
  intro i hi
  cases hmove with
  | began p l m rest hp hloop op shop hlaunched =>
      exact (h i hi).mono (unitEnded_of_step hlaunched) (fun h => .inr (.inl h)) (fun h => h)
  | request op hopen shop hlaunched =>
      rcases List.mem_append.mp hi with hold | hnew
      · exact (h i hold).mono (unitEnded_of_step hlaunched)
          (fun h => .inr (.inl (List.mem_append_left _ h))) (fun h => h)
      · exact .inr (.inl (List.mem_append_right _ hnew))
  | answer session hover =>
      refine (h i hi).mono (fun h => h) (fun hrequest => ?_) (fun h => h)
      by_cases heq : i = session
      · left
        rw [heq]
        exact hover
      · exact .inr (.inl (List.mem_filter.mpr ⟨hrequest, by simpa using heq⟩))
  | hangUp session _ =>
      refine (h i hi).mono (fun h => h) (fun hrequest => ?_) (List.mem_append_left _)
      by_cases heq : i = session
      · exact .inr (.inr (List.mem_append_right _ (List.mem_singleton.mpr heq)))
      · exact .inr (.inl (List.mem_filter.mpr ⟨hrequest, by simpa using heq⟩))
  | shop label shop hstep =>
      exact (h i hi).mono (unitEnded_of_step hstep) (fun h => .inr (.inl h)) (fun h => h)
  | _ => exact h i hi

/-! ## Calls are answered -/

/-- Each call so far was answered, or is open. -/
abbrev Tracked (s : ServiceProcess) : Prop :=
  AllAnswered ProcessNote.call ProcessNote.answer s.IsOpen s.log

/-- What is open stays so while poller `p` does something else. -/
theorem isOpen_poll {p : ℕ} {l l' : SqsQueuePoller} {note : Option ProcessNote}
    (hp : s.pollers[p]? = some l) (hloop : ∀ m rest, l.loop ≠ .deleting m rest) {c : ProcessCall}
    (hc : s.IsOpen c) : (s.poll p l' note).IsOpen c := by
  cases c with
  | mark id => exact hc
  | deletion j receipt =>
      rcases hc with ⟨x, m, rest, hj, hx, hreceipt⟩
      have hne : j ≠ p := by
        intro heq
        rw [heq, hp, Option.some.injEq] at hj
        rw [← hj] at hx
        exact hloop m rest hx
      exact ⟨x, m, rest, (getElem?_poll hne).trans hj, hx, hreceipt⟩

theorem answered_poll (h : s.Tracked) {p : ℕ}
    {l l' : SqsQueuePoller} {note : Option ProcessNote} (hp : s.pollers[p]? = some l)
    (hmoved : PollerMove s.shop p l l' note) :
    (s.poll p l' note).Tracked := by
  have hquiet : (∀ m rest, l.loop ≠ .deleting m rest) →
      AllAnswered ProcessNote.call ProcessNote.answer (s.poll p l' none).IsOpen (s.log ++ []) := by
    intro hloop
    rw [List.append_nil]
    exact h.mono fun c hc => isOpen_poll hp hloop hc
  cases hmoved with
  | received _ hloop _ => exact hquiet (by simp [hloop])
  | failed hloop => exact hquiet (by simp [hloop])
  | again hbetween =>
      apply hquiet
      rcases hbetween with hloop | ⟨_, hloop⟩
      · simp [hloop]
      · simp [hloop]
  | threw _ _ _ hloop _ => exact hquiet (by simp [hloop])
  | resolved m i rest hloop _ =>
      refine h.append (fun c hc => .inr (isOpen_poll hp (by simp [hloop]) hc)) ?_
      intro c hcall
      cases hcall
      have hlt := (List.getElem?_eq_some_iff.mp hp).1
      exact ⟨_, m, rest, List.getElem?_set_self hlt, rfl, rfl⟩
  | deleted m rest hloop answered =>
      refine h.append ?_ (fun c hcall => by cases hcall)
      intro c hc
      cases c with
      | mark id => exact .inr hc
      | deletion j receipt =>
          rcases hc with ⟨x, m', rest', hj, hx, hreceipt⟩
          by_cases heq : j = p
          · left
            rw [heq, hp, Option.some.injEq] at hj
            rw [← hj, hloop] at hx
            cases hx
            rw [heq, ← hreceipt]
            rfl
          · exact .inr ⟨x, m', rest', (getElem?_poll heq).trans hj, hx, hreceipt⟩

theorem answered_relayed (h : s.Tracked)
    {r : OutboxRelay} {note : Option ProcessNote} (hmoved : RelayMove s.relay r note) :
    (s.relayed r note).Tracked := by
  have hother : (∀ row rest, s.relay.run ≠ .marking row rest) →
      ∀ c, s.IsOpen c → (s.relayed r note).IsOpen c := by
    intro hrun c hc
    cases c with
    | deletion p receipt => exact hc
    | mark id =>
        rcases hc with ⟨row, rest, hmarking, -⟩
        exact absurd hmarking (hrun row rest)
  cases hmoved with
  | fire hrun =>
      simp only [relayed, Option.toList_none, List.append_nil]
      exact h.mono (hother (by simp [hrun]))
  | fetched rows hrun =>
      simp only [relayed, Option.toList_none, List.append_nil]
      exact h.mono (hother (by simp [hrun]))
  | cycleOver hcycle =>
      simp only [relayed, Option.toList_none, List.append_nil]
      apply h.mono
      apply hother
      rcases hcycle with hrun | ⟨_, hrun⟩
      · simp [hrun]
      · simp [hrun]
  | sent row rest hrun =>
      refine h.append (fun c hc => .inr (hother (by simp [hrun]) c hc)) ?_
      intro c hcall
      cases hcall
      exact ⟨row, rest, rfl, rfl⟩
  | marked row rest hrun answered =>
      refine h.append ?_ (fun c hcall => by cases hcall)
      intro c hc
      cases c with
      | deletion p receipt => exact .inr hc
      | mark id =>
          rcases hc with ⟨row', rest', hmarking, hid⟩
          left
          rw [hrun] at hmarking
          cases hmarking
          rw [← hid]
          rfl

theorem answered_move (hearly : s.Early)
    (h : s.Tracked) (hmove : s.Move s') :
    s'.Tracked := by
  cases hmove with
  | start hnot =>
      refine h.append ?_ (fun c hcall => by cases hcall)
      intro c hc
      exfalso
      cases c with
      | deletion p receipt =>
          rcases hc with ⟨l, m, rest, hp, hloop, -⟩
          have hended := (hearly hnot).1 l (List.mem_of_getElem? hp)
          simp [SqsQueuePoller.ended, hloop] at hended
      | mark id =>
          rcases hc with ⟨row, rest, hrun, -⟩
          simp [(hearly hnot).2] at hrun
  | poller p l l' note hp moved => exact answered_poll h hp moved
  | began p l m rest hp hloop op shop _ =>
      refine h.append ?_ (fun c hcall => by cases hcall)
      intro c hc
      have hpolled : (s.poll p { l with loop := .handling m s.shop.sessions.length rest } none).IsOpen c :=
        isOpen_poll hp (by simp [hloop]) hc
      exact .inr hpolled
  | relay r note moved => exact answered_relayed h moved
  | sigterm =>
      refine h.append ?_ (fun c hcall => by cases hcall)
      intro c hc
      right
      cases c with
      | deletion p receipt =>
          rcases hc with ⟨l, m, rest, hp, hloop, hreceipt⟩
          exact ⟨l.stop, m, rest, by simp [hp], hloop, hreceipt⟩
      | mark id => exact hc
  | pollersDone k running hk _ =>
      apply h.mono
      intro c hc
      cases c with
      | deletion p receipt => exact hc
      | mark id =>
          rcases hc with ⟨row, rest, hrun, hid⟩
          refine ⟨row, rest, ?_, hid⟩
          simp [OutboxRelay.stop, OutboxRelay.inCycle, hrun]
  | _ => exact h

end ServiceProcess

/-! ## What is left to hand over -/

/-- A relay that was told to stop waits for no timer. -/
theorem OutboxRelay.stop_run (r : OutboxRelay) : r.stop.run ≠ .timer := by
  rcases r with ⟨stopped, run⟩
  cases run <;> simp [stop, inCycle]

theorem SqsQueuePoller.capacity_again {l : SqsQueuePoller} (h : l.stopped = true) :
    l.again.capacity = 0 := by
  simp [again, capacity, h]

theorem SqsQueuePoller.capacity_again_le (l : SqsQueuePoller) : l.again.capacity ≤ maxMessages := by
  unfold again capacity
  cases l.stopped <;> simp

theorem PollerMove.stopped {shop : ShopSys} {p : ℕ} {l l' : SqsQueuePoller}
    {note : Option ProcessNote} (h : PollerMove shop p l l' note) : l'.stopped = l.stopped := by
  cases h with
  | deleted _ _ _ answered => cases answered <;> rfl
  | _ => rfl

/-- A poller that is stopped receives nothing more. -/
theorem PollerMove.capacity_le {shop : ShopSys} {p : ℕ} {l l' : SqsQueuePoller}
    {note : Option ProcessNote} (h : PollerMove shop p l l' note) (hstopped : l.stopped = true) :
    l'.capacity ≤ l.capacity := by
  cases h with
  | received messages hloop hfew => simpa [SqsQueuePoller.capacity, hloop] using hfew
  | failed hloop => simp [SqsQueuePoller.capacity, hstopped]
  | again _ => simp [SqsQueuePoller.capacity_again hstopped]
  | threw _ _ _ _ _ => simp [SqsQueuePoller.capacity_again hstopped]
  | resolved m i rest hloop _ => simp [SqsQueuePoller.capacity, hloop]
  | deleted m rest hloop answered =>
      cases answered with
      | false => simp [SqsQueuePoller.capacity_again hstopped]
      | true => simp [SqsQueuePoller.capacity, hloop]

theorem PollerMove.full {shop : ShopSys} {p : ℕ} {l l' : SqsQueuePoller}
    {note : Option ProcessNote} (h : PollerMove shop p l l' note) (hfull : l.capacity ≤ maxMessages) :
    l'.capacity ≤ maxMessages := by
  cases h with
  | received messages hloop hfew => exact hfew
  | failed hloop => cases hs : l.stopped <;> simp [SqsQueuePoller.capacity]
  | again _ => exact l.capacity_again_le
  | threw _ _ _ _ _ => exact l.capacity_again_le
  | resolved m i rest hloop _ => simpa [SqsQueuePoller.capacity, hloop] using hfull
  | deleted m rest hloop answered =>
      cases answered with
      | false => exact l.capacity_again_le
      | true => simpa [SqsQueuePoller.capacity, hloop] using hfull

namespace ServiceProcess

variable {s s' : ServiceProcess}

/-- No poller holds more than one batch. -/
def Full (s : ServiceProcess) : Prop := ∀ l ∈ s.pollers, l.capacity ≤ maxMessages

theorem full_move (h : s.Full) (hmove : s.Move s') : s'.Full := by
  intro x hx
  cases hmove with
  | start _ =>
      rcases List.mem_map.mp hx with ⟨l, -, rfl⟩
      exact SqsQueuePoller.capacity_again_le _
  | poller p l l' note hp moved =>
      rcases List.mem_or_eq_of_mem_set hx with hold | rfl
      · exact h x hold
      · exact moved.full (h l (List.mem_of_getElem? hp))
  | began p l m rest hp hloop op shop _ =>
      rcases List.mem_or_eq_of_mem_set hx with hold | rfl
      · exact h x hold
      · have hl := h l (List.mem_of_getElem? hp)
        simp only [SqsQueuePoller.capacity, hloop, List.length_cons] at hl ⊢
        omega
  | sigterm =>
      rcases List.mem_map.mp hx with ⟨l, hl, rfl⟩
      exact h l hl
  | _ => exact h x hx

/-! ## The handlers of the signals -/

/-- The messaging was started before the first signal. -/
def StartedFirst (log : List ProcessNote) : Prop :=
  ∀ before after, log = before ++ .sigterm :: after → .started ∈ before

theorem StartedFirst.left {log more : List ProcessNote} (h : StartedFirst (log ++ more)) :
    StartedFirst log := by
  intro before after hlog
  exact h before (after ++ more) (by simp [hlog])

/-- The pollers have ended and the relay schedules nothing more. -/
structure Still (s : ServiceProcess) : Prop where
  pollers : ∀ l ∈ s.pollers, l.ended = true
  stopped : s.relay.stopped = true
  unscheduled : s.relay.run ≠ .timer

/-- And the last cycle is over, and so are the requests. -/
structure Closed (s : ServiceProcess) : Prop where
  still : s.Still
  off : s.relay.run = .off
  deaf : s.listening = false
  drained : s.requests = []

/-- What is reached where the handler of a signal stands. -/
def Meets (s : ServiceProcess) : Shutdown → Prop
  | .pollers running => running = true
  | .relay running => s.Still ∧ (running = false → s.relay.run = .off)
  | .closing => s.Still ∧ s.relay.run = .off ∧ s.listening = false
  | .disconnecting => s.Closed

structure Stages (s : ServiceProcess) : Prop where
  stopped : .sigterm ∈ s.log → s.started = true ∧ ∀ l ∈ s.pollers, l.stopped = true
  signalled : s.shutdowns ≠ [] → .sigterm ∈ s.log
  meets : ∀ d ∈ s.shutdowns, s.Meets d
  exited : s.exited = some 0 → s.Closed

/-- A relay that is stopped and off stays off. -/
theorem relayMove_still {r r' : OutboxRelay} {note : Option ProcessNote} (h : RelayMove r r' note)
    (hstopped : r.stopped = true) (htimer : r.run ≠ .timer) :
    r'.stopped = true ∧ r'.run ≠ .timer ∧ r.run ≠ .off := by
  cases h with
  | fire hrun => exact absurd hrun htimer
  | fetched rows hrun => simp [hstopped, hrun]
  | cycleOver hcycle =>
      refine ⟨hstopped, by simp [OutboxRelay.schedule, hstopped], ?_⟩
      rcases hcycle with hrun | ⟨_, hrun⟩
      · simp [hrun]
      · simp [hrun]
  | sent row rest hrun => simp [hstopped, hrun]
  | marked row rest hrun answered =>
      cases answered with
      | false => simp [OutboxRelay.schedule, hstopped, hrun]
      | true => simp [hstopped, hrun]

/-- Pollers that have ended, and a relay that schedules nothing, stay so. -/
theorem Still.move (h : s.Still) (hstarted : s.started = true) (hmove : s.Move s') :
    s'.Still ∧ (s.relay.run = .off → s'.relay.run = .off) := by
  have hidle : ∀ {p : ℕ} {l : SqsQueuePoller}, s.pollers[p]? = some l → l.loop = .ended := by
    intro p l hp
    have hended := h.pollers l (List.mem_of_getElem? hp)
    unfold SqsQueuePoller.ended at hended
    split at hended
    · next hloop => exact hloop
    · cases hended
  cases hmove with
  | start hnot =>
      rw [hstarted] at hnot
      cases hnot
  | poller p l l' note hp moved =>
      have hloop := hidle hp
      exfalso
      cases moved with
      | received _ hl _ => simp [hloop] at hl
      | failed hl => simp [hloop] at hl
      | again hbetween => rcases hbetween with hl | ⟨_, hl⟩ <;> simp [hloop] at hl
      | threw _ _ _ hl _ => simp [hloop] at hl
      | resolved _ _ _ hl _ => simp [hloop] at hl
      | deleted _ _ hl _ => simp [hloop] at hl
  | began p l m rest hp hl op shop _ =>
      rw [hidle hp] at hl
      cases hl
  | relay r note moved =>
      rcases relayMove_still moved h.stopped h.unscheduled with ⟨hstopped, htimer, hnot⟩
      exact ⟨⟨h.pollers, hstopped, htimer⟩, fun hoff => absurd hoff hnot⟩
  | sigterm =>
      refine ⟨⟨?_, h.stopped, h.unscheduled⟩, fun hoff => hoff⟩
      intro l hl
      rcases List.mem_map.mp hl with ⟨l₀, hl₀, rfl⟩
      exact h.pollers l₀ hl₀
  | pollersDone k running hk finished =>
      refine ⟨⟨h.pollers, rfl, s.relay.stop_run⟩, ?_⟩
      intro hoff
      simp [OutboxRelay.stop, OutboxRelay.inCycle, hoff]
  | _ => exact ⟨⟨h.pollers, h.stopped, h.unscheduled⟩, fun hoff => hoff⟩

/-- A server that is closed stays so, and without requests gets none. -/
theorem Move.deaf (hmove : s.Move s') (h : s.listening = false) :
    s'.listening = false ∧ (s.requests = [] → s'.requests = []) := by
  cases hmove with
  | request op hopen shop _ =>
      refine ⟨h, fun hnone => ?_⟩
      rcases hopen with hlistening | hsome
      · rw [h] at hlistening
        cases hlistening
      · exact absurd hnone hsome
  | answer session _ => exact ⟨h, fun hnone => by simp [hnone]⟩
  | hangUp session _ => exact ⟨h, fun hnone => by simp [hnone]⟩
  | relayDone k running hk finished => exact ⟨rfl, fun hnone => hnone⟩
  | _ => exact ⟨h, fun hnone => hnone⟩

theorem Closed.move (h : s.Closed) (hstarted : s.started = true) (hmove : s.Move s') : s'.Closed := by
  rcases h.still.move hstarted hmove with ⟨hstill, hoff⟩
  rcases hmove.deaf h.deaf with ⟨hdeaf, hdrained⟩
  exact ⟨hstill, hoff h.off, hdeaf, hdrained h.drained⟩

theorem Meets.move {d : Shutdown} (h : s.Meets d) (hstarted : s.started = true)
    (hmove : s.Move s') : s'.Meets d := by
  cases d with
  | pollers running => exact h
  | relay running =>
      rcases h.1.move hstarted hmove with ⟨hstill, hoff⟩
      exact ⟨hstill, fun hrunning => hoff (h.2 hrunning)⟩
  | closing =>
      rcases h.1.move hstarted hmove with ⟨hstill, hoff⟩
      exact ⟨hstill, hoff h.2.1, (hmove.deaf h.2.2).1⟩
  | disconnecting => exact Closed.move h hstarted hmove

/-- The log only grows, and by a signal only when one comes. -/
theorem Move.log (hmove : s.Move s') : ∃ more, s'.log = s.log ++ more ∧
    (.sigterm ∈ more → s' = { s with
      pollers := s.pollers.map SqsQueuePoller.stop
      shutdowns := s.shutdowns ++ [.pollers s.started]
      log := s.log ++ [.sigterm] }) := by
  cases hmove with
  | start _ => exact ⟨[.started], rfl, by simp⟩
  | poller p l l' note hp moved =>
      refine ⟨note.toList, rfl, ?_⟩
      cases moved with
      | _ => simp
  | began p l m rest _ _ op shop _ => exact ⟨[.began p m.receipt], rfl, by simp⟩
  | relay r note moved =>
      refine ⟨note.toList, rfl, ?_⟩
      cases moved with
      | _ => simp
  | sigterm => exact ⟨[.sigterm], rfl, fun _ => rfl⟩
  | _ => exact ⟨[], by simp, by simp⟩

/-- `start` is noted. -/
def Logged (s : ServiceProcess) : Prop := .started ∈ s.log → s.started = true

theorem logged_move (h : s.Logged) (hmove : s.Move s') : s'.Logged := by
  intro hin
  cases hmove with
  | start _ => rfl
  | poller p l l' note hp moved =>
      apply h
      rcases List.mem_append.mp hin with hold | hnew
      · exact hold
      · cases moved with
        | _ => simp at hnew
  | began p l m rest _ _ op shop _ =>
      apply h
      simpa [poll] using hin
  | relay r note moved =>
      apply h
      rcases List.mem_append.mp hin with hold | hnew
      · exact hold
      · cases moved with
        | _ => simp at hnew
  | sigterm =>
      apply h
      simpa using hin
  | _ => exact h hin

/-- The pollers stay stopped. -/
theorem stopped_move (h : ∀ l ∈ s.pollers, l.stopped = true) (hstarted : s.started = true)
    (hmove : s.Move s') : s'.started = true ∧ ∀ l ∈ s'.pollers, l.stopped = true := by
  cases hmove with
  | start hnot =>
      rw [hstarted] at hnot
      cases hnot
  | poller p l l' note hp moved =>
      refine ⟨hstarted, ?_⟩
      intro x hx
      rcases List.mem_or_eq_of_mem_set hx with hold | rfl
      · exact h x hold
      · rw [moved.stopped]
        exact h l (List.mem_of_getElem? hp)
  | began p l m rest hp _ op shop _ =>
      refine ⟨hstarted, ?_⟩
      intro x hx
      rcases List.mem_or_eq_of_mem_set hx with hold | rfl
      · exact h x hold
      · exact h l (List.mem_of_getElem? hp)
  | sigterm =>
      refine ⟨hstarted, ?_⟩
      intro x hx
      rcases List.mem_map.mp hx with ⟨l, -, rfl⟩
      rfl
  | _ => exact ⟨hstarted, h⟩

theorem Stages.move (h : s.Stages) (hlogged : s.Logged) (hfirst : StartedFirst s'.log)
    (hrunning : s.exited = none) (hmove : s.Move s') : s'.Stages := by
  rcases hmove.log with ⟨more, hlog, hsignal⟩
  have hstarted : s.shutdowns ≠ [] → s.started = true := fun hsome =>
    (h.stopped (h.signalled hsome)).1
  have hkept : ∀ d ∈ s.shutdowns, s'.Meets d := by
    intro d hd
    exact (h.meets d hd).move (hstarted (List.ne_nil_of_mem hd)) hmove
  have hsigned : .sigterm ∈ s.log → .sigterm ∈ s'.log := by
    intro hin
    rw [hlog]
    exact List.mem_append_left _ hin
  refine ⟨?_, ?_, ?_, ?_⟩
  · intro hin
    rw [hlog] at hin
    rcases List.mem_append.mp hin with hold | hnew
    · exact stopped_move (h.stopped hold).2 (h.stopped hold).1 hmove
    · -- the signal that just came stops the pollers, and `start` was before
      have heq := hsignal hnew
      subst heq
      refine ⟨hlogged (hfirst s.log [] rfl), ?_⟩
      intro x hx
      rcases List.mem_map.mp hx with ⟨l, -, rfl⟩
      rfl
  · intro hsome
    by_cases hnone : s.shutdowns = []
    · cases hmove with
      | sigterm => simp
      | pollersDone k running hk _ => simp [hnone] at hk
      | relayDone k running hk _ => simp [hnone] at hk
      | drained k hk _ => simp [hnone] at hk
      | _ => exact absurd hnone hsome
    · exact hsigned (h.signalled hnone)
  · intro d hd
    cases hmove with
    | sigterm =>
        rcases List.mem_append.mp hd with hold | hnew
        · exact hkept d hold
        · rw [List.mem_singleton.mp hnew]
          exact hlogged (hfirst s.log [] rfl)
    | pollersDone k running hk hover =>
        rcases List.mem_or_eq_of_mem_set hd with hold | rfl
        · exact hkept d hold
        · have hrun : running = true := h.meets _ (List.mem_of_getElem? hk)
          refine ⟨⟨hover hrun, rfl, ?_⟩, ?_⟩
          · exact s.relay.stop_run
          · intro hcycle
            simp [OutboxRelay.stop, hcycle]
    | relayDone k running hk hover =>
        rcases List.mem_or_eq_of_mem_set hd with hold | rfl
        · exact hkept d hold
        · have hmeets : s.Meets (.relay running) := h.meets _ (List.mem_of_getElem? hk)
          refine ⟨⟨hmeets.1.pollers, hmeets.1.stopped, hmeets.1.unscheduled⟩, ?_, rfl⟩
          cases running with
          | false => exact hmeets.2 rfl
          | true =>
              have hcycle := hover rfl
              have htimer := hmeets.1.unscheduled
              unfold OutboxRelay.inCycle at hcycle
              split at hcycle
              · next hoff => exact hoff
              · next hrun => exact absurd hrun htimer
              · cases hcycle
    | drained k hk hover =>
        rcases List.mem_or_eq_of_mem_set hd with hold | rfl
        · exact hkept d hold
        · have hmeets : s.Meets .closing := h.meets _ (List.mem_of_getElem? hk)
          exact ⟨⟨hmeets.1.pollers, hmeets.1.stopped, hmeets.1.unscheduled⟩, hmeets.2.1, hmeets.2.2, hover⟩
    | _ => exact hkept d hd
  · intro hexited
    cases hmove with
    | exit k hk =>
        have hclosed : s.Closed := h.meets _ (List.mem_of_getElem? hk)
        exact ⟨⟨hclosed.still.pollers, hclosed.still.stopped, hclosed.still.unscheduled⟩, hclosed.off,
          hclosed.deaf, hclosed.drained⟩
    | kill => cases hexited
    | _ => simp [hrunning, poll, relayed] at hexited

/-! ## After a signal -/

/-- Poller `p` hands a message over. -/
def Begins (p : ℕ) : ProcessNote → Bool
  | .began q _ => q = p
  | _ => false

def IsSignal : ProcessNote → Bool
  | .sigterm => true
  | _ => false

/-- What poller `p` may still hand over. -/
def capacity (s : ServiceProcess) (p : ℕ) : ℕ :=
  match s.pollers[p]? with
  | some l => l.capacity
  | none => 0

/-- What poller `p` hands over after a signal fits in one batch, with what it may still
hand over. -/
abbrev Bounded (s : ServiceProcess) (p : ℕ) : Prop :=
  After IsSignal (fun after => after.countP (Begins p) + s.capacity p ≤ maxMessages) s.log

theorem unmarked_of_not_mem {log : List ProcessNote} (h : .sigterm ∉ log) :
    ∀ n ∈ log, IsSignal n = false := by
  intro n hn
  cases n with
  | sigterm => exact absurd hn h
  | _ => rfl

theorem capacity_eq {p : ℕ} {l : SqsQueuePoller} (hp : s.pollers[p]? = some l) :
    s.capacity p = l.capacity := by
  simp [capacity, hp]

theorem capacity_poll {p : ℕ} {l l' : SqsQueuePoller} {note : Option ProcessNote}
    (hp : s.pollers[p]? = some l) : (s.poll p l' note).capacity p = l'.capacity := by
  have hlt := (List.getElem?_eq_some_iff.mp hp).1
  exact capacity_eq (List.getElem?_set_self hlt)

theorem capacity_poll_ne {p j : ℕ} {l' : SqsQueuePoller} {note : Option ProcessNote} (hne : j ≠ p) :
    (s.poll p l' note).capacity j = s.capacity j := by
  simp [capacity, getElem?_poll hne]

/-- A poller that is stopped hands over nothing that it did not hold. -/
theorem bounded_poll (h : ∀ p, s.Bounded p) {q : ℕ} {l l' : SqsQueuePoller}
    {note : Option ProcessNote} (hq : s.pollers[q]? = some l)
    (hnote : ∀ n ∈ note, IsSignal n = false ∧ ∀ p, p ≠ q → Begins p n = false)
    (hle : note.toList.countP (Begins q) + l'.capacity ≤ l.capacity) (p : ℕ) :
    (s.poll q l' note).Bounded p := by
  have hcap : note.toList.countP (Begins p) + (s.poll q l' note).capacity p ≤ s.capacity p := by
    by_cases heq : p = q
    · rw [heq, capacity_poll hq, capacity_eq hq]
      exact hle
    · rw [capacity_poll_ne heq]
      cases note with
      | none => simp
      | some n => simp [(hnote n rfl).2 p heq]
  cases note with
  | none =>
      have hcap' : (s.poll q l' none).capacity p ≤ s.capacity p := by simpa using hcap
      simp only [Bounded, poll, Option.toList_none, List.append_nil]
      exact (h p).mono fun after hafter => (Nat.add_le_add_left hcap' _).trans hafter
  | some n =>
      refine (h p).append ?_ (by simp [(hnote n rfl).1])
      intro after hafter
      rw [List.countP_append]
      simp only [Option.toList_some] at hcap
      omega

theorem bounded_move (h : ∀ p, s.Bounded p) (hfull : s.Full)
    (hstopped : .sigterm ∈ s.log → s.started = true ∧ ∀ l ∈ s.pollers, l.stopped = true)
    (hmove : s.Move s') (p : ℕ) : s'.Bounded p := by
  have hfresh : ∀ {t : ServiceProcess} (notes : List ProcessNote), .sigterm ∉ s.log →
      t.log = s.log ++ notes → .sigterm ∉ notes → t.Bounded p := by
    intro t notes hold hlog hnotes
    apply After.unmarked
    apply unmarked_of_not_mem
    rw [hlog]
    simp [hold, hnotes]
  cases hmove with
  | start hnot =>
      refine hfresh [.started] ?_ rfl (by simp)
      intro hin
      rw [(hstopped hin).1] at hnot
      cases hnot
  | poller q l l' note hq moved =>
      by_cases hin : .sigterm ∈ s.log
      · have hle := moved.capacity_le ((hstopped hin).2 l (List.mem_of_getElem? hq))
        refine bounded_poll h hq ?_ ?_ p
        · cases moved with
          | _ => simp [IsSignal, Begins]
        · cases moved with
          | _ => simpa [Begins] using hle
      · refine hfresh note.toList hin rfl ?_
        cases moved with
        | _ => simp
  | began q l m rest hq hloop op shop _ =>
      refine bounded_poll h hq ?_ ?_ p
      · intro n hn
        cases hn
        exact ⟨rfl, fun p hne => by simpa [Begins] using Ne.symm hne⟩
      · simp [Begins, SqsQueuePoller.capacity, hloop, Nat.add_comm]
  | relay r note moved =>
      have hcap : ∀ r note, (s.relayed r note).capacity p = s.capacity p := fun _ _ => rfl
      cases moved with
      | sent row rest _ =>
          refine (h p).append (fun after hafter => ?_) (by simp [IsSignal])
          simpa [Begins, hcap] using hafter
      | marked row rest _ _ =>
          refine (h p).append (fun after hafter => ?_) (by simp [IsSignal])
          simpa [Begins, hcap] using hafter
      | _ =>
          simp only [Bounded, relayed, Option.toList_none, List.append_nil]
          exact h p
  | sigterm =>
      have hcap : ∀ shutdowns log, ({ s with
          pollers := s.pollers.map SqsQueuePoller.stop, shutdowns, log } : ServiceProcess).capacity p =
            s.capacity p := by
        intro shutdowns log
        cases hp : s.pollers[p]? with
        | none => simp [capacity, hp]
        | some l => simp [capacity, hp, SqsQueuePoller.stop, SqsQueuePoller.capacity]
      refine (h p).append ?_ ?_
      · intro after hafter
        rw [hcap]
        simpa [Begins] using hafter
      · intro _
        rw [hcap]
        cases hp : s.pollers[p]? with
        | none => simp [capacity, hp]
        | some l => simpa [capacity, hp] using hfull l (List.mem_of_getElem? hp)
  | _ => exact h p

/-! ## Runs -/

/-- What holds in every state of a process. -/
structure Inv (s : ServiceProcess) : Prop where
  early : s.Early
  handled : ∀ i ∈ s.handled, s.Awaited i
  asked : ∀ i ∈ s.asked, s.Served i
  tracked : s.Tracked
  full : s.Full
  logged : s.Logged
  stages : StartedFirst s.log → s.Stages
  bounded : StartedFirst s.log → ∀ p, s.Bounded p

/-- A process that starts on these tables. -/
def boot (shop : ShopSys) : ServiceProcess := { shop }

theorem Inv.boot (shop : ShopSys) : (boot shop).Inv where
  early := by
    intro _
    refine ⟨?_, rfl⟩
    simp [ServiceProcess.boot, SqsQueuePoller.ended]
  handled := by simp [ServiceProcess.boot]
  asked := by simp [ServiceProcess.boot]
  tracked := AllAnswered.nil
  full := by simp [ServiceProcess.boot, Full, SqsQueuePoller.capacity]
  logged := by simp [ServiceProcess.boot, Logged]
  stages _ := by constructor <;> simp [ServiceProcess.boot]
  bounded _ _ := After.nil

theorem Inv.step (h : s.Inv) {l : ProcessLabel} (hstep : s.step l = some s') : s'.Inv := by
  rcases processMove_of_step hstep with ⟨hrunning, hmove⟩
  rcases hmove.log with ⟨more, hlog, -⟩
  have hold : StartedFirst s'.log → StartedFirst s.log := by
    intro hfirst
    rw [hlog] at hfirst
    exact hfirst.left
  refine ⟨early_move h.early hmove, awaited_move h.early h.handled hmove,
    served_move h.asked hmove, answered_move h.early h.tracked hmove, full_move h.full hmove,
    logged_move h.logged hmove, ?_, ?_⟩
  · intro hfirst
    exact (h.stages (hold hfirst)).move h.logged hfirst hrunning hmove
  · intro hfirst
    exact bounded_move (h.bounded (hold hfirst)) h.full (h.stages (hold hfirst)).stopped hmove

/-- Nothing is left open: every unit of work that the process started for a message has
ended, and every one it started for a request whose client did not hang up; the deletion of
every message that was handled was tried to its end, and so was the marking of every message
that was sent. After a signal each poller handed over one batch at most. -/
structure NothingOpen (s : ServiceProcess) : Prop where
  works : ∀ i ∈ s.handled, unitEnded s.shop i = true
  requests : ∀ i ∈ s.asked, i ∉ s.abandoned → unitEnded s.shop i = true
  deletions : ∀ before p receipt after, s.log = before ++ .resolved p receipt :: after →
    .deleted p receipt ∈ after
  marks : ∀ before id after, s.log = before ++ .sent id :: after → .marked id ∈ after
  few : ∀ before after, s.log = before ++ .sigterm :: after →
    ∀ p, after.countP (Begins p) ≤ maxMessages

/-- A closed process has no call open. -/
theorem Closed.none_open (h : s.Closed) (c : ProcessCall) : ¬s.IsOpen c := by
  intro hc
  cases c with
  | deletion p receipt =>
      rcases hc with ⟨l, m, rest, hp, hloop, -⟩
      have hended := h.still.pollers l (List.mem_of_getElem? hp)
      simp [SqsQueuePoller.ended, hloop] at hended
  | mark id =>
      rcases hc with ⟨row, rest, hrun, -⟩
      simp [h.off] at hrun

end ServiceProcess

theorem ProcessReachable.inv {shop : ShopSys} {s : ServiceProcess}
    (h : ProcessReachable (.boot shop) s) : s.Inv := by
  induction h with
  | init => exact .boot shop
  | step l _ hstep ih => exact ih.step hstep

/-- A process that was told to stop after it had started, and exits with 0, cuts nothing in
half but what its clients gave up. -/
theorem graceful_exit_leaves_nothing_open {shop : ShopSys} {s : ServiceProcess}
    (h : ProcessReachable (.boot shop) s) (hfirst : ServiceProcess.StartedFirst s.log)
    (hexit : s.exited = some 0) : s.NothingOpen := by
  have hinv := h.inv
  have hclosed := (hinv.stages hfirst).exited hexit
  constructor
  · intro i hi
    rcases hinv.handled i hi with hended | ⟨p, l, m, rest, hp, hloop⟩
    · exact hended
    · have hended := hclosed.still.pollers l (List.mem_of_getElem? hp)
      simp [SqsQueuePoller.ended, hloop] at hended
  · intro i hi hconnected
    rcases hinv.asked i hi with hended | hrequest | hleft
    · exact hended
    · rw [hclosed.drained] at hrequest
      cases hrequest
    · exact absurd hleft hconnected
  · intro before p receipt after hlog
    rcases hinv.tracked.all hclosed.none_open hlog rfl with ⟨n, hn, hanswer⟩
    cases n with
    | deleted p' receipt' =>
        cases hanswer
        exact hn
    | _ => cases hanswer
  · intro before id after hlog
    rcases hinv.tracked.all hclosed.none_open hlog rfl with ⟨n, hn, hanswer⟩
    cases n with
    | marked id' =>
        cases hanswer
        exact hn
    | _ => cases hanswer
  · intro before after hlog p
    have hbound := hinv.bounded hfirst p before .sigterm after hlog rfl
    omega

/-- The signal comes while a reply and two requests are being handled and a command is being
marked. The client of the second request is answered, that of the first hangs up. -/
def interruptedWork : List ProcessLabel :=
  List.flatten [
    [.start, .relay .fire, .relay (.fetched (some (sharedItem.db.outbox.take 1))),
      .relay (.sent true), .poller 0 (.received (some [⟨0, .sagaReplies, diagnosisCompletedBody⟩])),
      .poller 0 (.take none), .request (.deliverOS (Uuid.text 4)), .request (.deliverOS (Uuid.text 9)),
      .sigterm, .relay (.marked true), .relay .done],
    List.replicate 19 (.shop (.advance 0)),
    [.poller 0 (.settled true), .poller 1 (.received none), .poller 2 (.received none),
      .poller 0 (.deleted true), .poller 0 (.take none), .shutdown 0, .shutdown 0, .hangUp 1],
    List.replicate 2 (.shop (.advance 2)),
    [.answer 2, .shutdown 0, .shutdown 0]]

theorem interrupted_work_ends : ∃ s,
    (ServiceProcess.boot (.start sharedItem.db sharedItem.nextId)).play interruptedWork = some s ∧
    s.log = [.started, .sent 5, .began 0 0, .sigterm, .marked 5, .resolved 0 0, .deleted 0 0] ∧
    s.handled = [0] ∧ s.asked = [1, 2] ∧ s.abandoned = [1] ∧ unitEnded s.shop 1 = false ∧
    s.NothingOpen := by
  have hplay : ((ServiceProcess.boot (.start sharedItem.db sharedItem.nextId)).play
      interruptedWork).map (fun s =>
        (s.log, [s.handled, s.asked, s.abandoned], unitEnded s.shop 1, s.exited)) =
      some ([.started, .sent 5, .began 0 0, .sigterm, .marked 5, .resolved 0 0, .deleted 0 0],
        [[0], [1, 2], [1]], false, some 0) := by
    decide +kernel
  rcases Option.map_eq_some_iff.mp hplay with ⟨s, hs, hfacts⟩
  simp only [Prod.mk.injEq, List.cons.injEq, and_true] at hfacts
  rcases hfacts with ⟨hlog, ⟨hhandled, hasked, habandoned⟩, hopen, hexit⟩
  have hfirst : ServiceProcess.StartedFirst s.log := by
    intro before after hsplit
    rw [hlog] at hsplit
    -- the first note of the log is the start
    cases before with
    | nil => simp at hsplit
    | cons n rest =>
        rw [List.cons_append, List.cons.injEq] at hsplit
        rw [← hsplit.1]
        exact List.mem_cons_self
  refine ⟨s, hs, hlog, hhandled, hasked, habandoned, hopen, ?_⟩
  exact graceful_exit_leaves_nothing_open (processReachable_of_play .init hs) hfirst hexit

/-- A signal during the startup: the handler finds nothing to wait for, and the process exits
while the reply it then took is being handled. -/
example : ((ServiceProcess.boot (.start sharedItem.db sharedItem.nextId)).play
      ([.sigterm, .start,
        .poller 0 (.received (some [⟨0, .sagaReplies, diagnosisCompletedBody⟩])),
        .poller 0 (.take none)] ++ List.replicate 4 (.shutdown 0))).map
      (fun s => (s.exited, s.handled, unitEnded s.shop 0)) = some (some 0, [0], false) := by
  decide +kernel

end CarRepairShop
