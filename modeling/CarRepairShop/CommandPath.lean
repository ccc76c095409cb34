import CarRepairShop.Announcements
import CarRepairShop.Envelopes
import CarRepairShop.Statements

/-! # Every command comes back readable

A unit of work stores each message with the trace context it runs in
(`PrismaOutbox.ts`), so the rows of the outbox never hold an empty one. With the
round trip of `Envelopes.lean` this settles what a dead-letter queue gives back.
-/

namespace CarRepairShop

open Lib Txn Prog

/-! ## The trace context of a stored message -/

/-- `TraceContext` (`context.ts`). -/
structure TraceContext where
  traceId : String
  spanId : String
deriving DecidableEq, Repr

def toTraceparent (ctx : TraceContext) : String := s!"00-{ctx.traceId}-{ctx.spanId}-01"

/-- `currentTraceparent` of `AsyncLocalStorageTraceContext`. -/
def currentTraceparent (ctx : Option TraceContext) : Option String := ctx.map toTraceparent

theorem currentTraceparent_ne_empty (ctx : Option TraceContext) :
    currentTraceparent ctx ≠ some "" := by
  cases ctx with
  | none => simp [currentTraceparent]
  | some ctx =>
      simp only [currentTraceparent, toTraceparent, Option.map_some, ne_eq, Option.some.injEq,
        String.append_eq_empty_iff, not_and]
      intro _
      decide

/-- The operation runs in the ambient trace context. -/
def Op.InContext (op : Op) : Prop := ∃ ctx, op.traceparent = currentTraceparent ctx

/-! ## What a statement stores -/

/-- The message a statement inserts. -/
def Stmt.message? : Stmt → Option OutboxRow
  | .insertOutbox row => some row
  | _ => none

/-- What was answered comes with no new message. -/
def StoresNothing {α : Type} (x : Except Failure (α × List Write)) : Prop :=
  ∀ a ws, x = .ok (a, ws) → stored ws = []

/-- Only one kind of statement stores a message. -/
theorem StoresNothing.exec (s : Stmt) (v : Db) (hs : s.message? = none) :
    StoresNothing (exec s v) := by
  intro a ws h
  apply stored_eq_nil
  intro w hw
  have hmakes := exec_makes s v a ws h w hw
  cases w with
  | addOutbox row =>
      cases s with
      | insertOutbox message => cases hs
      | _ => cases hmakes
  | _ => rfl

/-! ## Every stored message -/

/-- Each message stored has the trace context of its operation. -/
def Traced (op : Op) (tx : ShopTx) : Prop :=
  ∀ row ∈ stored tx.writes, row.traceparent = op.traceparent

theorem Traced.of_stored {op : Op} {tx : ShopTx} (h : stored tx.writes = []) : Traced op tx := by
  intro row hrow
  rw [h] at hrow
  cases hrow

section Traces

variable {R : List Write → Db → Db → Prop} {G : ShopTx → Stmt → Db → Prop} {db : Db}

/-- A unit of work whose statements carry a trace context stores messages with it. -/
theorem traced_of_issues {α : Type} {op : Op} {p : Work α}
    (h : p.Issues (Stmt.carries op.traceparent)) :
    p.Ensures postgres R G (fun _ tx _ => Traced op tx) {} db := by
  refine h.ensures (I := Traced op) ?_ (Traced.of_stored rfl)
  intro s v r ws tx hs he hI row hrow
  rw [Tx.record_writes, stored_append, List.mem_append] at hrow
  rcases hrow with hrow | hrow
  · exact hI row hrow
  · cases hmessage : s.message? with
    | none =>
        rw [StoresNothing.exec s v hmessage r ws he] at hrow
        cases hrow
    | some message =>
        cases s with
        | insertOutbox inserted =>
            cases he
            obtain rfl := List.mem_singleton.mp hrow
            exact hs
        | _ => cases hmessage

theorem carries_of_vehicles {tp : Option String} {s : Stmt} (h : s.table = .vehicles) :
    s.carries tp := by
  cases s with
  | insertOutbox row => cases h
  | _ => trivial

/-- Every unit of work stores its messages with the trace context it runs in. -/
theorem program_traced (op : Op) (db : Db) :
    (program op).Ensures postgres R G (fun _ tx _ => Traced op tx) {} db := by
  apply traced_of_issues
  cases hop : op.onVehicles with
  | false => exact (program_spares hop).mono fun _ => Stmt.spares.carries
  | true =>
      cases op with
      | createVehicle input =>
          exact ((CreateVehicle.execute_issues input).mono fun _ => carries_of_vehicles).bind
            fun _ => trivial
      | updateVehicle id data =>
          exact ((UpdateVehicle.execute_issues id data).mono fun _ => carries_of_vehicles).bind
            fun _ => trivial
      | deleteVehicle id =>
          exact ((DeleteVehicle.execute_issues id).mono fun _ => carries_of_vehicles).bind
            fun _ => trivial
      | _ => cases hop

end Traces

/-- When every operation ran in the ambient trace context, no row of the outbox
has an empty one. -/
theorem outbox_traceparent {s : ShopSys} (h : ShopReachable .none .start s)
    (hctx : ∀ c ∈ s.log, c.op.InContext) : ∀ row ∈ s.db.outbox, row.traceparent ≠ some "" := by
  have hRG : RelyGuarantee postgres program .none Rely fun op result tx db =>
      Committed Rely AnyStep op result tx db ∧ Traced op tx :=
    { shop_relyGuarantee .none with
      launch := fun op _ db => ((program_ensures shopInterference_rely op db).and
        (program_traced op db)).mono
          (fun _ _ _ h => h) (fun _ _ _ _ => trivial) fun _ _ _ h => h
      commit := fun _ _ _ _ _ hQ hclear => rely_of_commit hQ.1.advances hclear }
  have hrows : (∀ c ∈ s.log, c.op.InContext) → ∀ row ∈ s.db.outbox, row.traceparent ≠ some "" := by
    refine h.log_induction
      (P := fun db log => (∀ c ∈ log, c.op.InContext) → ∀ row ∈ db.outbox,
        row.traceparent ≠ some "") hRG rfl ?_ ?_
    · intro _ row hrow
      cases hrow
    · intro db log i op result tx hall _ hQ hctx row hrow
      rw [applyAll_outbox, List.mem_append] at hrow
      rcases hrow with hrow | hrow
      · exact hall (fun c hc => hctx c (List.mem_append_left _ hc)) row hrow
      · obtain ⟨ctx, hop⟩ := hctx ⟨i, op, result, tx, db⟩ (by simp)
        rw [hQ.2 row hrow, show op.traceparent = currentTraceparent ctx from hop]
        exact currentTraceparent_ne_empty ctx
  exact hrows hctx

/-! ## There and back -/

open PrismaOutboxStore (pendingMessage)

/-- The body sent for a stored command gives back the command: it is an
envelope with all that the row has, and the reader of the dead letters makes of
it the failed command with the id, the type and the order of the row. -/
structure ComesBack (row : OutboxRow) : Prop where
  parsed : parseEnvelope (PublishPendingMessages.body row) =
    some (pendingMessage row).toMessageEnvelope
  traceparent : (pendingMessage row).traceparent = row.traceparent
  recognised : ∀ traceparent,
    FailedCommandHandler.handle (pendingMessage row).toMessageEnvelope traceparent =
      .ok (.handleFailedCommand
        { messageId := .read (pendingMessage row).messageId, type := row.type
          serviceOrderId := .read (pendingMessage row).serviceOrderId } traceparent)
  messageId : row.id < 2 ^ 128 → IdText.read (pendingMessage row).messageId = Uuid.text row.id
  serviceOrderId : row.serviceOrderId < 2 ^ 128 →
    IdText.read (pendingMessage row).serviceOrderId = Uuid.text row.serviceOrderId

/-- A row without an empty trace context comes back. -/
theorem comesBack {row : OutboxRow} (h : row.traceparent ≠ some "") : ComesBack row where
  parsed := parseEnvelope_body row
  traceparent := by
    cases htp : row.traceparent with
    | none => simp [pendingMessage, htp]
    | some traceparent =>
        have hne : traceparent ≠ "" := by simpa [htp] using h
        simp [pendingMessage, htp, hne]
  recognised := FailedCommandHandler.handle_pendingMessage row
  messageId := IdText.read_render
  serviceOrderId := IdText.read_render

/-- Every command that is ever stored comes back readable, whatever the order,
its lines, its customer and the trace context. An envelope that was accepted,
serialised and parsed again is the same exactly when its payload holds no
number beyond the range of doubles. -/
theorem commands_come_back {s : ShopSys} (h : ShopReachable .none .start s)
    (hctx : ∀ c ∈ s.log, c.op.InContext) :
    (∀ row ∈ s.db.outbox, ComesBack row) ∧
    ∀ body e, parseEnvelope body = some e →
      (parseEnvelope (SqsMessageSender.body e) = some e ↔ Json.inRangeFields e.payload = true) := by
  constructor
  · intro row hrow
    exact comesBack (outbox_traceparent h hctx row hrow)
  · intro body e hparse
    exact parseEnvelope_stringify_iff hparse

def sampleTrace : TraceContext := ⟨"4bf92f3577b34da6a3ce929d0e0e4736", "00f067aa0ba902b7"⟩

/-- A first order whose diagnosis is reported in a trace. -/
def tracedMoves : List (Label Op) :=
  openingMoves ++ replyMoves 5 100 .diagnosisStarted [] 13 ++
    Label.session 6 (.handle ⟨Uuid.text 101, .diagnosisCompleted, Uuid.text 4, []⟩
      (currentTraceparent (some sampleTrace))) 19

/-- On a run that stores a command outside any trace and one in a trace. -/
theorem traced_commands_come_back : ∃ s, ShopSys.start.play postgres program .none tracedMoves =
      some s ∧
    s.db.outbox.map (fun row => (row.type, row.traceparent)) =
      [(.enqueueDiagnosis, none), (.generateBudget, currentTraceparent (some sampleTrace))] ∧
    ∀ row ∈ s.db.outbox, ComesBack row := by
  have hplay : ∃ s ∈ ShopSys.start.play postgres program .none tracedMoves,
      s.db.outbox.map (fun row => (row.type, row.traceparent)) =
        [(.enqueueDiagnosis, none), (.generateBudget, currentTraceparent (some sampleTrace))] ∧
      ∀ c ∈ s.log, c.op.traceparent = currentTraceparent none ∨
        c.op.traceparent = currentTraceparent (some sampleTrace) := by
    decide +kernel
  obtain ⟨s, hs, hrows, hctx⟩ := hplay
  refine ⟨s, hs, hrows, (commands_come_back (reachable_of_play .init hs) ?_).1⟩
  intro c hc
  obtain hnone | hsome := hctx c hc
  · exact ⟨none, hnone⟩
  · exact ⟨some sampleTrace, hsome⟩

/-- A reply whose total is written `1e999`. -/
def hugeTotal : MessageBody :=
  some (.obj [("messageId", .str "m"), ("type", .str "BudgetGenerated"),
    ("serviceOrderId", .str "o"), ("occurredAt", .str "2026-01-01T00:00:00.000Z"),
    ("payload", .obj [("total", .num .infinite)])])

/-- The total of that reply is `null` once the envelope was serialised and parsed again. -/
theorem huge_total_lost : ∃ e, parseEnvelope hugeTotal = some e ∧
    e.payload = [("total", .num .infinite)] ∧
    parseEnvelope (SqsMessageSender.body e) = some { e with payload := [("total", .null)] } ∧
    parseEnvelope (SqsMessageSender.body e) ≠ some e := by
  refine ⟨_, rfl, rfl, rfl, ?_⟩
  intro heq
  have hpayload : [("total", Json.null)] = [("total", Json.num .infinite)] :=
    congrArg MessageEnvelope.payload (Option.some.inj heq)
  simp at hpayload

end CarRepairShop
