import CarRepairShop.ExactlyOnce

/-! # Starting and stopping the service

One process of the service: `main.ts`, the `start` and `stop` of
`messagingFactory.ts`, and the loops of `SqsQueuePoller.ts` and `OutboxRelay.ts`.
What it calls is not in its hands: SQS returns any batch and fails whenever it
likes, and so does the outbox; the units of work it starts run among those of
all other processes on the same tables.

`SIGTERM` may come at any moment and more than once. Its handler awaits the
loops as they are at that moment, so a signal that comes before `start` waits
for nothing, and `start` then begins what nobody stops any more. This is why
`graceful_exit_leaves_nothing_open` is about runs in which `start` came first.
A client that hangs up takes its connection from what the server waits for, and
leaves the handler of its request running.
-/

namespace CarRepairShop

open Lib Txn

/-! ## A poller -/

/-- Where `run` stands. -/
inductive PollerRun where
  | ended
  | receiving
  | batch (messages : List QueuedMessage)
  | handling (message : QueuedMessage) (session : ℕ) (rest : List QueuedMessage)
  | deleting (message : QueuedMessage) (rest : List QueuedMessage)
  /-- The pause after a failed receive. -/
  | pausing

/-- `SqsQueuePoller`. -/
structure SqsQueuePoller where
  queue : PolledQueue
  stopped : Bool := true
  loop : PollerRun := .ended

namespace SqsQueuePoller

/-- The condition of the loop in `run`. -/
def again (l : SqsQueuePoller) : SqsQueuePoller :=
  { l with loop := if l.stopped then .ended else .receiving }

/-- `start`. -/
def start (l : SqsQueuePoller) : SqsQueuePoller := again { l with stopped := false }

/-- `stop`, before it awaits the loop. The receive it aborts may still return. -/
def stop (l : SqsQueuePoller) : SqsQueuePoller := { l with stopped := true }

/-- The loop has ended. -/
def ended (l : SqsQueuePoller) : Bool :=
  match l.loop with
  | .ended => true
  | _ => false

/-- How many messages it may still hand over without another receive. -/
def capacity (l : SqsQueuePoller) : ℕ :=
  match l.loop with
  | .ended => 0
  | .receiving => maxMessages
  | .batch messages => messages.length
  | .handling _ _ rest => rest.length
  | .deleting _ rest => rest.length
  | .pausing => 0

end SqsQueuePoller

/-- What a poller waits for. -/
inductive PollerEvent where
  /-- The receive returns a batch, or fails. -/
  | received (batch : Option (List QueuedMessage))
  /-- The pause is over. -/
  | wake
  /-- The next message of the batch, if there is one. -/
  | take (traceparent : Option String)
  /-- The handler resolves, or throws. -/
  | settled (resolved : Bool)
  /-- The deletion is answered, or fails. -/
  | deleted (answered : Bool)

/-! ## The relay -/

/-- Where the relay stands. -/
inductive RelayRun where
  | off
  | timer
  | fetching
  | sending (rest : List OutboxRow)
  | marking (row : OutboxRow) (rest : List OutboxRow)

/-- `OutboxRelay`. -/
structure OutboxRelay where
  stopped : Bool := false
  run : RelayRun := .off

/-- What a relay waits for. -/
inductive RelayEvent where
  | fire
  | fetched (rows : Option (List OutboxRow))
  | sent (answered : Bool)
  | marked (answered : Bool)
  | done

namespace OutboxRelay

/-- `batchSize` of the relay. -/
def batchSize : ℕ := 10

/-- `schedule`. -/
def schedule (r : OutboxRelay) : OutboxRelay :=
  { r with run := if r.stopped then .off else .timer }

/-- `start`. -/
def start (r : OutboxRelay) : OutboxRelay := schedule { r with stopped := false }

/-- A cycle is in progress. -/
def inCycle (r : OutboxRelay) : Bool :=
  match r.run with
  | .off => false
  | .timer => false
  | _ => true

/-- `stop`, before it awaits the cycle. -/
def stop (r : OutboxRelay) : OutboxRelay where
  stopped := true
  run := if r.inCycle then r.run else .off

end OutboxRelay

/-! ## The process -/

/-- Where the handler of a `SIGTERM` stands. It knows whether what it awaits was still
running when it asked. -/
inductive Shutdown where
  | pollers (running : Bool)
  | relay (running : Bool)
  /-- `server.close` waits for the connections of the requests. -/
  | closing
  | disconnecting
deriving DecidableEq, Repr

/-- What happened in the process so far. -/
inductive ProcessNote where
  | started
  | sigterm
  /-- Poller `p` handed the message over. -/
  | began (p receipt : ℕ)
  | resolved (p receipt : ℕ)
  /-- The call to delete it ended. -/
  | deleted (p receipt : ℕ)
  | sent (id : Uuid)
  /-- The call to mark it ended. -/
  | marked (id : Uuid)
deriving DecidableEq, Repr

/-- A process, with the tables and the units of work of all processes. -/
structure ServiceProcess where
  shop : ShopSys
  started : Bool := false
  pollers : List SqsQueuePoller :=
    [{ queue := .sagaReplies }, { queue := .billingCommandsDlq }, { queue := .executionCommandsDlq }]
  relay : OutboxRelay := {}
  listening : Bool := true
  /-- The requests the server waits for, by their units of work. -/
  requests : List ℕ := []
  shutdowns : List Shutdown := []
  exited : Option ℕ := none
  /-- The units of work of the messages it took. -/
  handled : List ℕ := []
  /-- The units of work of the requests it took. -/
  asked : List ℕ := []
  /-- Those of the requests whose client hung up before the answer. -/
  abandoned : List ℕ := []
  log : List ProcessNote := []

inductive ProcessLabel where
  /-- The database is connected and seeded. -/
  | start
  | poller (p : ℕ) (event : PollerEvent)
  | relay (event : RelayEvent)
  | request (op : Op)
  | answer (session : ℕ)
  /-- The client closes the connection; the handler of the request goes on. -/
  | hangUp (session : ℕ)
  | sigterm
  /-- What the handler of the `k`-th `SIGTERM` waits for has come. -/
  | shutdown (k : ℕ)
  /-- The force-exit fallback, a failed startup or a crash. -/
  | kill
  /-- A move of any unit of work. -/
  | shop (label : Label Op)

/-- The unit of work has ended. -/
def unitEnded (shop : ShopSys) (i : ℕ) : Bool :=
  match shop.sessions[i]? with
  | some (.committed _ _) => true
  | some (.aborted _ _) => true
  | _ => false

namespace ServiceProcess

/-- Gives poller `p` another state. -/
def poll (s : ServiceProcess) (p : ℕ) (l : SqsQueuePoller) (note : Option ProcessNote) :
    ServiceProcess :=
  { s with pollers := s.pollers.set p l, log := s.log ++ note.toList }

def pollerStep (s : ServiceProcess) (p : ℕ) (l : SqsQueuePoller) :
    PollerEvent → Option ServiceProcess
  | .received batch =>
      match l.loop, batch with
      | .receiving, some messages =>
          if messages.length ≤ maxMessages then
            some (s.poll p { l with loop := .batch messages } none)
          else none
      | .receiving, none =>
          some (s.poll p { l with loop := if l.stopped then .ended else .pausing } none)
      | _, _ => none
  | .wake =>
      match l.loop with
      | .pausing => some (s.poll p l.again none)
      | _ => none
  | .take traceparent =>
      match l.loop with
      | .batch [] => some (s.poll p l.again none)
      | .batch (m :: rest) =>
          match (parseEnvelope m.body).map fun e => l.queue.handler e traceparent with
          | some (.ok op) =>
              (s.shop.step postgres program (.launch op)).map fun shop =>
                { s.poll p { l with loop := .handling m s.shop.sessions.length rest }
                    (some (.began p m.receipt)) with
                  shop, handled := s.handled ++ [s.shop.sessions.length] }
          -- what is no envelope, or of no known type, ends the batch
          | _ => some (s.poll p l.again none)
      | _ => none
  | .settled resolved =>
      match l.loop with
      | .handling m i rest =>
          match s.shop.sessions[i]?, resolved with
          | some (.committed _ _), true =>
              some (s.poll p { l with loop := .deleting m rest } (some (.resolved p m.receipt)))
          -- after the commit the handler may still throw
          | some (.committed _ _), false => some (s.poll p l.again none)
          | some (.aborted _ _), false => some (s.poll p l.again none)
          | _, _ => none
      | _ => none
  | .deleted answered =>
      match l.loop with
      | .deleting m rest =>
          some (s.poll p (if answered then { l with loop := .batch rest } else l.again)
            (some (.deleted p m.receipt)))
      | _ => none

/-- Gives the relay another state. -/
def relayed (s : ServiceProcess) (r : OutboxRelay) (note : Option ProcessNote) : ServiceProcess :=
  { s with relay := r, log := s.log ++ note.toList }

def relayStep (s : ServiceProcess) : RelayEvent → Option ServiceProcess
  | .fire =>
      match s.relay.run with
      | .timer => some (s.relayed { s.relay with run := .fetching } none)
      | _ => none
  | .fetched rows =>
      match s.relay.run, rows with
      | .fetching, some rows =>
          if rows.length ≤ OutboxRelay.batchSize then
            some (s.relayed { s.relay with run := .sending rows } none)
          else none
      | .fetching, none => some (s.relayed s.relay.schedule none)
      | _, _ => none
  | .sent answered =>
      match s.relay.run with
      | .sending (row :: rest) =>
          if answered then
            some (s.relayed { s.relay with run := .marking row rest } (some (.sent row.id)))
          else some (s.relayed s.relay.schedule none)
      | _ => none
  | .marked answered =>
      match s.relay.run with
      | .marking row rest =>
          some (s.relayed
            (if answered then { s.relay with run := .sending rest } else s.relay.schedule)
            (some (.marked row.id)))
      | _ => none
  | .done =>
      match s.relay.run with
      | .sending [] => some (s.relayed s.relay.schedule none)
      | _ => none

/-- The handler of a `SIGTERM` goes on. -/
def shutdownStep (s : ServiceProcess) (k : ℕ) : Option ServiceProcess :=
  match s.shutdowns[k]? with
  | some (.pollers running) =>
      if running && !s.pollers.all SqsQueuePoller.ended then none
      else some { s with
        relay := s.relay.stop
        shutdowns := s.shutdowns.set k (.relay s.relay.inCycle) }
  | some (.relay running) =>
      if running && s.relay.inCycle then none
      else some { s with listening := false, shutdowns := s.shutdowns.set k .closing }
  | some .closing =>
      if s.requests = [] then some { s with shutdowns := s.shutdowns.set k .disconnecting }
      else none
  | some .disconnecting => some { s with exited := some 0 }
  | none => none

/-- One move of the process while it runs. -/
def act (s : ServiceProcess) : ProcessLabel → Option ServiceProcess
  | .start =>
      if s.started then none
      else some { s with
        started := true
        relay := s.relay.start
        pollers := s.pollers.map SqsQueuePoller.start
        log := s.log ++ [.started] }
  | .poller p event =>
      match s.pollers[p]? with
      | some l => s.pollerStep p l event
      | none => none
  | .relay event => s.relayStep event
  | .request op =>
      -- a connection that is kept alive may bring one more request
      if s.listening || s.requests ≠ [] then
        (s.shop.step postgres program (.launch op)).map fun shop =>
          { s with
            shop
            requests := s.requests ++ [s.shop.sessions.length]
            asked := s.asked ++ [s.shop.sessions.length] }
      else none
  | .answer session =>
      if unitEnded s.shop session then
        some { s with requests := s.requests.filter fun i => i ≠ session }
      else none
  | .hangUp session =>
      -- `server.close` waits for connections, not for handlers
      if session ∈ s.requests then
        some { s with
          requests := s.requests.filter fun i => i ≠ session
          abandoned := s.abandoned ++ [session] }
      else none
  | .sigterm =>
      some { s with
        pollers := s.pollers.map SqsQueuePoller.stop
        shutdowns := s.shutdowns ++ [.pollers s.started]
        log := s.log ++ [.sigterm] }
  | .shutdown k => s.shutdownStep k
  | .kill => some { s with exited := some 1 }
  | .shop label => (s.shop.step postgres program label).map fun shop => { s with shop }

/-- One move; a process that has exited makes none. -/
def step (s : ServiceProcess) (label : ProcessLabel) : Option ServiceProcess :=
  match s.exited with
  | none => s.act label
  | some _ => none

/-- Makes the moves of a list in order. -/
def play (s : ServiceProcess) : List ProcessLabel → Option ServiceProcess
  | [] => some s
  | l :: ls => (s.step l).bind fun s' => s'.play ls

end ServiceProcess

/-- The states that runs of the process reach, on any tables. -/
inductive ProcessReachable (init : ServiceProcess) : ServiceProcess → Prop where
  | init : ProcessReachable init init
  | step {s s' : ServiceProcess} (l : ProcessLabel) :
      ProcessReachable init s → s.step l = some s' → ProcessReachable init s'

theorem processReachable_of_play {init s s' : ServiceProcess} {ls : List ProcessLabel}
    (hs : ProcessReachable init s) (h : s.play ls = some s') : ProcessReachable init s' := by
  induction ls generalizing s with
  | nil =>
      cases h
      exact hs
  | cons l ls ih =>
      rcases Option.bind_eq_some_iff.mp h with ⟨s₁, hstep, hrest⟩
      exact ih (.step l hs hstep) hrest

/-! ## What a move can do -/

/-- What a poller can do without starting anything. -/
inductive PollerMove (shop : ShopSys) (p : ℕ) (l : SqsQueuePoller) :
    SqsQueuePoller → Option ProcessNote → Prop where
  | received (messages : List QueuedMessage) (waiting : l.loop = .receiving)
      (few : messages.length ≤ maxMessages) :
      PollerMove shop p l { l with loop := .batch messages } none
  | failed (waiting : l.loop = .receiving) :
      PollerMove shop p l { l with loop := if l.stopped then .ended else .pausing } none
  | again (between : l.loop = .pausing ∨ ∃ messages, l.loop = .batch messages) :
      PollerMove shop p l l.again none
  | threw (m : QueuedMessage) (i : ℕ) (rest : List QueuedMessage)
      (handling : l.loop = .handling m i rest) (finished : unitEnded shop i = true) :
      PollerMove shop p l l.again none
  | resolved (m : QueuedMessage) (i : ℕ) (rest : List QueuedMessage)
      (handling : l.loop = .handling m i rest) (finished : unitEnded shop i = true) :
      PollerMove shop p l { l with loop := .deleting m rest } (some (.resolved p m.receipt))
  | deleted (m : QueuedMessage) (rest : List QueuedMessage) (deleting : l.loop = .deleting m rest)
      (answered : Bool) :
      PollerMove shop p l (if answered then { l with loop := .batch rest } else l.again)
        (some (.deleted p m.receipt))

/-- What the relay can do. -/
inductive RelayMove (r : OutboxRelay) : OutboxRelay → Option ProcessNote → Prop where
  | fire (waiting : r.run = .timer) : RelayMove r { r with run := .fetching } none
  | fetched (rows : List OutboxRow) (fetching : r.run = .fetching) :
      RelayMove r { r with run := .sending rows } none
  | cycleOver (cycle : r.run = .fetching ∨ ∃ rest, r.run = .sending rest) : RelayMove r r.schedule none
  | sent (row : OutboxRow) (rest : List OutboxRow) (sending : r.run = .sending (row :: rest)) :
      RelayMove r { r with run := .marking row rest } (some (.sent row.id))
  | marked (row : OutboxRow) (rest : List OutboxRow) (marking : r.run = .marking row rest)
      (answered : Bool) :
      RelayMove r (if answered then { r with run := .sending rest } else r.schedule)
        (some (.marked row.id))

namespace ServiceProcess

variable {s s' : ServiceProcess}

/-- Everything a move can do. -/
inductive Move (s : ServiceProcess) : ServiceProcess → Prop where
  | start (early : s.started = false) : Move s { s with
      started := true
      relay := s.relay.start
      pollers := s.pollers.map SqsQueuePoller.start
      log := s.log ++ [.started] }
  | poller (p : ℕ) (l l' : SqsQueuePoller) (note : Option ProcessNote)
      (hp : s.pollers[p]? = some l) (moved : PollerMove s.shop p l l' note) :
      Move s (s.poll p l' note)
  | began (p : ℕ) (l : SqsQueuePoller) (m : QueuedMessage) (rest : List QueuedMessage)
      (hp : s.pollers[p]? = some l) (batch : l.loop = .batch (m :: rest)) (op : Op) (shop : ShopSys)
      (launched : s.shop.step postgres program (.launch op) = some shop) :
      Move s { s.poll p { l with loop := .handling m s.shop.sessions.length rest }
          (some (.began p m.receipt)) with
        shop, handled := s.handled ++ [s.shop.sessions.length] }
  | relay (r : OutboxRelay) (note : Option ProcessNote) (moved : RelayMove s.relay r note) :
      Move s (s.relayed r note)
  | request (op : Op) (open' : s.listening = true ∨ s.requests ≠ []) (shop : ShopSys)
      (launched : s.shop.step postgres program (.launch op) = some shop) :
      Move s { s with
        shop
        requests := s.requests ++ [s.shop.sessions.length]
        asked := s.asked ++ [s.shop.sessions.length] }
  | answer (session : ℕ) (finished : unitEnded s.shop session = true) :
      Move s { s with requests := s.requests.filter fun i => i ≠ session }
  | hangUp (session : ℕ) (waiting : session ∈ s.requests) :
      Move s { s with
        requests := s.requests.filter fun i => i ≠ session
        abandoned := s.abandoned ++ [session] }
  | sigterm : Move s { s with
      pollers := s.pollers.map SqsQueuePoller.stop
      shutdowns := s.shutdowns ++ [.pollers s.started]
      log := s.log ++ [.sigterm] }
  | pollersDone (k : ℕ) (running : Bool) (hk : s.shutdowns[k]? = some (.pollers running))
      (finished : running = true → ∀ l ∈ s.pollers, l.ended = true) :
      Move s { s with
        relay := s.relay.stop
        shutdowns := s.shutdowns.set k (.relay s.relay.inCycle) }
  | relayDone (k : ℕ) (running : Bool) (hk : s.shutdowns[k]? = some (.relay running))
      (finished : running = true → s.relay.inCycle = false) :
      Move s { s with listening := false, shutdowns := s.shutdowns.set k .closing }
  | drained (k : ℕ) (hk : s.shutdowns[k]? = some .closing) (finished : s.requests = []) :
      Move s { s with shutdowns := s.shutdowns.set k .disconnecting }
  | exit (k : ℕ) (hk : s.shutdowns[k]? = some .disconnecting) : Move s { s with exited := some 0 }
  | kill : Move s { s with exited := some 1 }
  | shop (label : Label Op) (shop : ShopSys)
      (stepped : s.shop.step postgres program label = some shop) : Move s { s with shop }

theorem move_of_pollerStep {p : ℕ} {l : SqsQueuePoller} (hp : s.pollers[p]? = some l)
    {event : PollerEvent} (h : s.pollerStep p l event = some s') : s.Move s' := by
  cases event with
  | received batch =>
      simp only [pollerStep] at h
      split at h
      · next messages hloop =>
        split at h
        · next hfew =>
          cases h
          exact .poller p l _ none hp (.received messages hloop hfew)
        · cases h
      · next hloop =>
        cases h
        exact .poller p l _ none hp (.failed hloop)
      · cases h
  | wake =>
      simp only [pollerStep] at h
      split at h
      · next hloop =>
        cases h
        exact .poller p l _ none hp (.again (.inl hloop))
      · cases h
  | take traceparent =>
      simp only [pollerStep] at h
      split at h
      · next hloop =>
        cases h
        exact .poller p l _ none hp (.again (.inr ⟨_, hloop⟩))
      · next m rest hloop =>
        split at h
        · next op hhandler =>
          rcases Option.map_eq_some_iff.mp h with ⟨shop, hshop, rfl⟩
          exact .began p l m rest hp hloop op shop hshop
        · cases h
          exact .poller p l _ none hp (.again (.inr ⟨_, hloop⟩))
      · cases h
  | settled resolved =>
      simp only [pollerStep] at h
      split at h
      · next m i rest hloop =>
        split at h
        · next hi =>
          cases h
          exact .poller p l _ _ hp (.resolved m i rest hloop (by simp [unitEnded, hi]))
        · next hi =>
          cases h
          exact .poller p l _ none hp (.threw m i rest hloop (by simp [unitEnded, hi]))
        · next hi =>
          cases h
          exact .poller p l _ none hp (.threw m i rest hloop (by simp [unitEnded, hi]))
        · cases h
      · cases h
  | deleted answered =>
      simp only [pollerStep] at h
      split at h
      · next m rest hloop =>
        cases h
        exact .poller p l _ _ hp (.deleted m rest hloop answered)
      · cases h

theorem move_of_relayStep {event : RelayEvent} (h : s.relayStep event = some s') : s.Move s' := by
  cases event with
  | fire =>
      simp only [relayStep] at h
      split at h
      · next hrun =>
        cases h
        exact .relay _ none (.fire hrun)
      · cases h
  | fetched rows =>
      simp only [relayStep] at h
      split at h
      · next rows hrun =>
        split at h
        · cases h
          exact .relay _ none (.fetched rows hrun)
        · cases h
      · next hrun =>
        cases h
        exact .relay _ none (.cycleOver (.inl hrun))
      · cases h
  | sent answered =>
      simp only [relayStep] at h
      split at h
      · next row rest hrun =>
        split at h
        · cases h
          exact .relay _ _ (.sent row rest hrun)
        · cases h
          exact .relay _ none (.cycleOver (.inr ⟨_, hrun⟩))
      · cases h
  | marked answered =>
      simp only [relayStep] at h
      split at h
      · next row rest hrun =>
        cases h
        exact .relay _ _ (.marked row rest hrun answered)
      · cases h
  | done =>
      simp only [relayStep] at h
      split at h
      · next hrun =>
        cases h
        exact .relay _ none (.cycleOver (.inr ⟨_, hrun⟩))
      · cases h

theorem move_of_shutdownStep {k : ℕ} (h : s.shutdownStep k = some s') : s.Move s' := by
  unfold shutdownStep at h
  split at h
  · next running hk =>
    split at h
    · cases h
    · next hover =>
      cases h
      refine .pollersDone k running hk ?_
      simpa using hover
  · next running hk =>
    split at h
    · cases h
    · next hover =>
      cases h
      refine .relayDone k running hk ?_
      simpa using hover
  · next hk =>
    split at h
    · next hnone =>
      cases h
      exact .drained k hk hnone
    · cases h
  · next hk =>
    cases h
    exact .exit k hk
  · cases h

theorem processMove_of_step {l : ProcessLabel} (h : s.step l = some s') :
    s.exited = none ∧ s.Move s' := by
  unfold step at h
  split at h
  · next hrunning =>
    refine ⟨hrunning, ?_⟩
    cases l with
    | start =>
        simp only [act] at h
        split at h
        · cases h
        · next hearly =>
          cases h
          exact .start (by simpa using hearly)
    | poller p event =>
        simp only [act] at h
        split at h
        · next l hp => exact move_of_pollerStep hp h
        · cases h
    | relay event => exact move_of_relayStep h
    | request op =>
        simp only [act] at h
        split at h
        · next hopen =>
          rcases Option.map_eq_some_iff.mp h with ⟨shop, hshop, rfl⟩
          exact .request op (by simpa using hopen) shop hshop
        · cases h
    | answer session =>
        simp only [act] at h
        split at h
        · next hover =>
          cases h
          exact .answer session hover
        · cases h
    | hangUp session =>
        simp only [act] at h
        split at h
        · next hwaiting =>
          cases h
          exact .hangUp session hwaiting
        · cases h
    | sigterm =>
        cases h
        exact .sigterm
    | shutdown k => exact move_of_shutdownStep h
    | kill =>
        cases h
        exact .kill
    | shop label =>
        rcases Option.map_eq_some_iff.mp h with ⟨shop, hshop, rfl⟩
        exact .shop label shop hshop
  · cases h

end ServiceProcess

end CarRepairShop
