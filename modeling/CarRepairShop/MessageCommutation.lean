import CarRepairShop.EffectsInStep

/-! # Messages of different orders commute

The algorithm every message follows, in two states that are ready for the
message: it gets the same answer and does the same deed. A message of another
order, handled before, leaves the state ready, also when it moved units of the
same items, and the deeds of the two commute. So the queues of different orders
can be worked off in any order: `messages_commute`.
-/

namespace CarRepairShop

open Lib Txn Prog

namespace ServiceOrderSaga

/-! ## Handling a message -/

section Process

variable {v v' : Db} {messageId orderId : IdText}

/-- What both runs find of their own order and message before they begin. -/
structure BothReady (messageId orderId : IdText) (v v' : Db) : Prop where
  left : ∀ key row, v.orders.find? key = some row → Backed v key row
  right : ∀ key row, v'.orders.find? key = some row → Backed v' key row
  alike : Alike orderId.column? messageId.stored? v.picture v'.picture
  own : ∀ key, orderId.column? = some key → v.orders.find? key = v'.orders.find? key

/-- What is enough of it: the order may have been written at other times. -/
structure Prepared (messageId orderId : IdText) (v v' : Db) : Prop where
  left : ∀ key row, v.orders.find? key = some row → Backed v key row
  right : ∀ key row, v'.orders.find? key = some row → Backed v' key row
  alike : Alike orderId.column? messageId.stored? v.picture v'.picture

theorem BothReady.prepared (h : BothReady messageId orderId v v') :
    Prepared messageId orderId v v' :=
  ⟨h.left, h.right, h.alike⟩

/-- Recording the message leaves both runs prepared. -/
theorem markProcessed_relates (h : Prepared messageId orderId v v') (type : String) :
    (ProcessedMessages.markProcessed messageId type).Relates postgres
      (fun marked u marked' u' => marked = marked' ∧ Prepared messageId orderId u u' ∧
        Together orderId.column? messageId.stored? v v' u u')
      (ProcessedMessages.markProcessed messageId type) v v' := by
  refine .clock ?_
  intro t t'
  cases hm : messageId.stored? with
  | none =>
      have hexec : ∀ (w : Db) (time : ℕ), exec (.insertProcessed messageId type time) w
          = .error (.db .malformedUuid) := by
        intro w time
        simp only [exec, hm]
      exact .refused (hexec v t) (hexec v' t') rfl
  | some key =>
      have hsame : (v.processed.find? key).map ProcessedRow.timeless =
          (v'.processed.find? key).map ProcessedRow.timeless := h.alike.record key hm
      have hthere : (v'.processed.find? key).isSome = (v.processed.find? key).isSome := by
        rw [← Option.isSome_map, ← hsame, Option.isSome_map]
      cases hrecorded : (v.processed.find? key).isSome with
      | true =>
          have hexec : ∀ (w : Db) (time : ℕ), (w.processed.find? key).isSome = true →
              exec (.insertProcessed messageId type time) w = .ok (0, []) := by
            intro w time hw
            simp [exec, hm, hw]
          refine .answered (hexec v t hrecorded) (hexec v' t' (hthere.trans hrecorded)) ?_
          exact .pure ⟨rfl, h, .refl _ _ v v'⟩
      | false =>
          have hexec : ∀ (w : Db) (time : ℕ), (w.processed.find? key).isSome = false →
              exec (.insertProcessed messageId type time) w
                = .ok (1, [.putProcessed ⟨key, type, time⟩]) := by
            intro w time hw
            simp [exec, hm, hw]
          have hdone : ∀ (w : Db) (time : ℕ), Does orderId.column? (some key)
              { processed := fun x => if x = key then some ⟨key, type, 0⟩ else none } w
              (postgres.applyAll w [.putProcessed ⟨key, type, time⟩]) := by
            intro w time
            have hid : ProcessedRow.messageId ⟨key, type, time⟩ = key := rfl
            exact does_putProcessed hid
          refine .answered (hexec v t hrecorded) (hexec v' t' (hthere.trans hrecorded)) ?_
          have htogether : Together orderId.column? (some key) v v' _ _ :=
            ⟨_, hdone v t, hdone v' t'⟩
          refine .pure ⟨rfl, ?_, htogether⟩
          -- the other tables are as they were
          have halike := h.alike
          rw [hm] at halike
          constructor
          · intro o row hrow
            have hbacked := h.left o row hrow
            exact { hbacked with keys := { hbacked.keys with } }
          · intro o row hrow
            have hbacked := h.right o row hrow
            exact { hbacked with keys := { hbacked.keys with } }
          · rw [hm]
            exact htogether.alike halike

/-- Both runs read the order, as it was written at either time, or none. -/
theorem findById_relates (h : Prepared messageId orderId v v') :
    (ServiceOrderRepository.findById orderId).Relates postgres
      (fun found u found' u' => u = v ∧ u' = v' ∧ (found = none ∧ found' = none ∨
        ∃ key row row', orderId.column? = some key ∧ v.orders.find? key = some row ∧
          v'.orders.find? key = some row' ∧ row.timeless = row'.timeless ∧
          found = some row.entity ∧ found' = some row'.entity))
      (ServiceOrderRepository.findById orderId) v v' := by
  unfold ServiceOrderRepository.findById
  cases ho : orderId.column? with
  | none => exact .pure ⟨rfl, rfl, .inl ⟨rfl, rfl⟩⟩
  | some key =>
      have halike := h.alike
      rw [ho] at halike
      rcases halike.own with ⟨hrow, hrow'⟩ | ⟨row, row', hrow, hrow', ht⟩
      · have hexec : ∀ w : Db, w.orders.find? key = none →
            exec (.findOrder key) w = .ok (none, []) := by
          intro w hw
          simp [exec, hw]
        refine .answered (hexec v hrow) (hexec v' hrow') ?_
        exact .pure ⟨rfl, rfl, .inl ⟨rfl, rfl⟩⟩
      · have hexec : ∀ (w : Db) (r : OrderRow), w.orders.find? key = some r →
            exec (.findOrder key) w = .ok (some r.toOrderColumns, []) ∧
            exec (.findServiceLines r.id) w = .ok (r.services, []) ∧
            exec (.findItemLines r.id) w = .ok (r.items, []) := by
          intro w r hw
          have hid : r.id = key := order_id hw
          simp [exec, hid, hw]
        refine .answered (hexec v row hrow).1 (hexec v' row' hrow').1 ?_
        refine .answered (hexec v row hrow).2.1 (hexec v' row' hrow').2.1 ?_
        refine .answered (hexec v row hrow).2.2 (hexec v' row' hrow').2.2 ?_
        exact .pure ⟨rfl, rfl, .inr ⟨key, row, row', rfl, hrow, hrow', ht, rfl, rfl⟩⟩

/-- Results that differ in times. -/
structure SameResult (result result' : SagaReplyResult) : Prop where
  outcome : result.outcome = result'.outcome
  serviceOrder : Option.Rel SameOrder result.serviceOrder result'.serviceOrder
  statusChanged : result.statusChanged = result'.statusChanged
  compensation : result.compensation = result'.compensation
  stuck : result.stuck = result'.stuck

/-- A message that nothing was done about has the same result both times. -/
theorem SameResult.plain (outcome : SagaReplyOutcome) :
    SameResult { outcome := outcome } { outcome := outcome } :=
  ⟨rfl, .none, rfl, rfl, rfl⟩

/-- The algorithm every message follows goes the same way both times, when the
effect does. -/
theorem process_synced (h : Prepared messageId orderId v v') (type : String) {expected : Expected}
    {effect : ServiceOrder → Work Effect}
    (heffect : ∀ (key : Uuid) (row row' : OrderRow) (u u' : Db), expected.admits row.status = true →
      BothReserved key messageId.stored? row u u' → row.timeless = row'.timeless →
      Synced (some key) messageId.stored? SameEffect (effect row.entity) (effect row'.entity) u u') :
    Synced orderId.column? messageId.stored? SameResult
      (process ⟨messageId, type, orderId⟩ expected effect)
      (process ⟨messageId, type, orderId⟩ expected effect) v v' := by
  unfold process
  refine Relates.seq (markProcessed_relates h type) ?_
  rintro marked u _ u' ⟨rfl, hprepared, hrecorded⟩
  dsimp only
  cases marked with
  | false => exact .pure ⟨.plain .duplicate, hrecorded⟩
  | true =>
      refine Relates.seq (findById_relates hprepared) ?_
      rintro found u _ u' ⟨rfl, rfl, ⟨rfl, rfl⟩ | ⟨key, row, row', ho, hrow, hrow', ht, rfl, rfl⟩⟩
      · exact .pure ⟨.plain .ignored, hrecorded⟩
      · have hstatus : row'.entity.status = row.entity.status :=
          (OrderRow.status_of_timeless ht).symm
        dsimp only
        rw [hstatus]
        cases hadmits : expected.admits row.entity.status with
        | false => exact .pure ⟨.plain .ignored, hrecorded⟩
        | true =>
            have hreserved : BothReserved key messageId.stored? row u u' :=
              bothReserved_of_backed (hprepared.left key row hrow) (hprepared.right key row' hrow') ht
                (ho ▸ hprepared.alike)
            have hdone := heffect key row row' u u' hadmits hreserved ht
            rw [← ho] at hdone
            refine Relates.seq hdone ?_
            intro applied w applied' w' ⟨hsame, hrest⟩
            refine .pure ⟨⟨rfl, .some hsame.order, ?_, hsame.compensation, hsame.stuck⟩,
              hrecorded.trans hrest⟩
            dsimp only
            rw [hsame.order.status]

end Process

end ServiceOrderSaga

/-! ## Two messages in either order -/

/-- A saga message as the orchestrator is given it. -/
inductive Incoming where
  | reply (message : SagaReply) (traceparent : Option String)
  | failedCommand (message : FailedSagaCommand) (traceparent : Option String)

namespace Incoming

def messageId : Incoming → IdText
  | .reply message _ => message.messageId
  | .failedCommand message _ => message.messageId

def orderId : Incoming → IdText
  | .reply message _ => message.serviceOrderId
  | .failedCommand message _ => message.serviceOrderId

/-- The handling of the message. -/
def op : Incoming → Op
  | .reply message traceparent => .handle message traceparent
  | .failedCommand message traceparent => .handleFailedCommand message traceparent

end Incoming

def SagaReplyResult.timeless (result : SagaReplyResult) : SagaReplyResult :=
  { result with serviceOrder := result.serviceOrder.map ServiceOrder.timeless }

/-- What handling a message returns, without times. -/
def Outcome.timeless : Outcome → Outcome
  | .saga result => .saga result.timeless
  | other => other

/-- What an operation returns, without times, or the error it throws. -/
def World.answer (w : World) (now : ℕ) (op : Op) : Except Failure Outcome :=
  (w.attempt now (program op)).map fun done => done.1.timeless

theorem ServiceOrderSaga.SameResult.timeless {result result' : SagaReplyResult}
    (h : SameResult result result') : result.timeless = result'.timeless := by
  have horder : result.serviceOrder.map ServiceOrder.timeless =
      result'.serviceOrder.map ServiceOrder.timeless := by
    have hrel := h.serviceOrder
    generalize result.serviceOrder = order at hrel
    generalize result'.serviceOrder = order' at hrel
    cases hrel with
    | none => rfl
    | some hsame => exact congrArg some hsame
  rcases h with ⟨houtcome, -, hchanged, hcompensation, hstuck⟩
  simp only [SagaReplyResult.timeless, horder, houtcome, hchanged, hcompensation, hstuck]

/-- One message in two states that are prepared for it. -/
theorem Incoming.program_synced {a : Incoming} {v v' : Db}
    (h : ServiceOrderSaga.Prepared a.messageId a.orderId v v') :
    Synced a.orderId.column? a.messageId.stored? (fun out out' => out.timeless = out'.timeless)
      (program a.op) (program a.op) v v' := by
  have hreturn : ∀ {p : Work SagaReplyResult},
      Synced a.orderId.column? a.messageId.stored? ServiceOrderSaga.SameResult p p v v' →
      Synced a.orderId.column? a.messageId.stored? (fun out out' => out.timeless = out'.timeless)
        (returning p .saga) (returning p .saga) v v' := by
    intro p hp
    refine hp.seq h.alike ?_
    intro result result' u u' hsame _ _
    exact .pure (congrArg Outcome.saga hsame.timeless)
  cases a with
  | reply message traceparent =>
      have hhandled : Synced message.serviceOrderId.column? message.messageId.stored?
          ServiceOrderSaga.SameResult (ServiceOrderSaga.handle message traceparent)
          (ServiceOrderSaga.handle message traceparent) v v' := by
        refine ServiceOrderSaga.process_synced h message.type.name ?_
        intro key row row' u u' hadmits hreserved ht
        refine ServiceOrderSaga.replyEffect_synced traceparent hreserved ht ?_
        simpa [ServiceOrderSaga.Expected.admits] using hadmits
      exact hreturn hhandled
  | failedCommand message traceparent =>
      have hhandled : Synced message.serviceOrderId.column? message.messageId.stored?
          ServiceOrderSaga.SameResult (ServiceOrderSaga.handleFailedCommand message traceparent)
          (ServiceOrderSaga.handleFailedCommand message traceparent) v v' := by
        refine ServiceOrderSaga.process_synced h message.type.name ?_
        intro key row row' u u' hadmits hreserved ht
        exact ServiceOrderSaga.failedCommandEffect_synced traceparent hreserved ht hadmits
      exact hreturn hhandled

/-- A message gets the same answer in two states that are prepared for it, and
does the same deed. -/
theorem World.perform_prepared {a : Incoming} {w w' : World}
    (h : ServiceOrderSaga.Prepared a.messageId a.orderId w.db w'.db) (now now' : ℕ) :
    w.answer now a.op = w'.answer now' a.op ∧
      Together a.orderId.column? a.messageId.stored? w.db w'.db (w.perform now a.op).db
        (w'.perform now' a.op).db := by
  have hviews : Synced a.orderId.column? a.messageId.stored?
      (fun out out' => out.timeless = out'.timeless) (program a.op) (program a.op)
      (postgres.view ({} : ShopTx) w.db) (postgres.view ({} : ShopTx) w'.db) :=
    Incoming.program_synced h
  have hrun := Relates.run hviews now now' w.nextId w'.nextId
  unfold World.answer World.perform World.attempt
  rcases hrun with ⟨fin, fin', hfin, hfin', hsame, htogether⟩ | ⟨failure, hfin, hfin'⟩
  · rw [hfin, hfin']
    exact ⟨congrArg Except.ok hsame, htogether⟩
  · rw [hfin, hfin']
    exact ⟨rfl, .refl _ _ w.db w'.db⟩

/-- So it does in two states that are ready for it. -/
theorem World.perform_together {a : Incoming} {w w' : World}
    (h : ServiceOrderSaga.BothReady a.messageId a.orderId w.db w'.db) (now now' : ℕ) :
    w.answer now a.op = w'.answer now' a.op ∧
      Together a.orderId.column? a.messageId.stored? w.db w'.db (w.perform now a.op).db
        (w'.perform now' a.op).db :=
  World.perform_prepared h.prepared now now'

/-- After any sequence of operations, orders have their units. -/
theorem World.performAll_backed (ops : List (ℕ × Op)) {key : Uuid} {row : OrderRow}
    (hrow : (World.performAll {} ops).db.orders.find? key = some row) :
    ServiceOrderSaga.Backed (World.performAll {} ops).db key row := by
  have hledger : LedgerInvariant (World.performAll {} ops).db :=
    World.performAll_induction (fun _ _ _ _ h hc => h.commit hc) ops .start
  exact hledger.backed (World.performAll_foreignKeys .start ops) hrow

theorem World.performAll_snoc (w : World) (ops : List (ℕ × Op)) (now : ℕ) (op : Op) :
    w.performAll (ops ++ [(now, op)]) = (w.performAll ops).perform now op := by
  simp [World.performAll]

/-- Messages that are about different orders and have different ids; two
spellings of one UUID are one id. -/
structure Incoming.Apart (a b : Incoming) : Prop where
  orders : ∀ o, a.orderId.column? = some o → b.orderId.column? ≠ some o
  messages : ∀ m, a.messageId.stored? = some m → b.messageId.stored? ≠ some m

theorem Incoming.Apart.symm {a b : Incoming} (h : a.Apart b) : b.Apart a where
  orders := fun o hb ha => h.orders o ha hb
  messages := fun m hb ha => h.messages m ha hb

section Commute

variable (ops : List (ℕ × Op)) {a b : Incoming}

/-- A message finds all it needs in a reachable state. -/
theorem Incoming.ready_here (a : Incoming) : ServiceOrderSaga.BothReady a.messageId a.orderId
    (World.performAll {} ops).db (World.performAll {} ops).db where
  left := fun _ _ => World.performAll_backed ops
  right := fun _ _ => World.performAll_backed ops
  alike := .refl _ _ _
  own := fun _ _ => rfl

/-- What a message does to a reachable state. -/
theorem Incoming.does (a : Incoming) (now : ℕ) : ∃ d, Does a.orderId.column? a.messageId.stored? d
    (World.performAll {} ops).db ((World.performAll {} ops).perform now a.op).db := by
  rcases (World.perform_together (a.ready_here ops) now now).2 with ⟨d, hd, -⟩
  exact ⟨d, hd⟩

/-- A message of another order, handled before, leaves a message all it needs. -/
theorem Incoming.Apart.ready (h : a.Apart b) (now : ℕ) :
    ServiceOrderSaga.BothReady a.messageId a.orderId (World.performAll {} ops).db
      ((World.performAll {} ops).perform now b.op).db where
  left := fun _ _ => World.performAll_backed ops
  right := by
    rw [← World.performAll_snoc]
    exact fun _ _ => World.performAll_backed _
  alike := by
    rcases b.does ops now with ⟨d, hd⟩
    rw [hd.picture]
    exact hd.about.alike h.orders h.messages _
  own := by
    intro key hkey
    rcases b.does ops now with ⟨d, hd⟩
    exact (hd.others key (h.orders key hkey)).symm

/-- Two messages that can be handled in either order: each gets the same answer
first or second, and the tables are the same in the end. -/
structure Commuting (w : World) (a b : Incoming) : Prop where
  first : ∀ t t₁ t₂, w.answer t a.op = (w.perform t₁ b.op).answer t₂ a.op
  second : ∀ t t₁ t₂, w.answer t b.op = (w.perform t₁ a.op).answer t₂ b.op
  tables : ∀ t₁ t₂ t₃ t₄, ((w.perform t₁ a.op).perform t₂ b.op).db.picture =
    ((w.perform t₃ b.op).perform t₄ a.op).db.picture

/-- After any sequence of operations run one at a time, any two messages about
different orders commute, whatever the times they are handled at. -/
theorem messages_commute (h : a.Apart b) : Commuting (World.performAll {} ops) a b where
  first := fun t t₁ t₂ => (World.perform_together (h.ready ops t₁) t t₂).1
  second := fun t t₁ t₂ => (World.perform_together (h.symm.ready ops t₁) t t₂).1
  tables := by
    intro t₁ t₂ t₃ t₄
    rcases (World.perform_together (h.ready ops t₃) t₁ t₄).2 with ⟨d, hd, hd'⟩
    rcases (World.perform_together (h.symm.ready ops t₁) t₃ t₂).2 with ⟨e, he, he'⟩
    generalize World.performAll {} ops = w at *
    calc ((w.perform t₁ a.op).perform t₂ b.op).db.picture
        = e.act (d.act w.db.picture) := by rw [he'.picture, hd.picture]
      _ = d.act (e.act w.db.picture) :=
          (Deed.act_comm hd.about he.about h.orders h.messages w.db.picture).symm
      _ = ((w.perform t₃ b.op).perform t₄ a.op).db.picture := by rw [hd'.picture, he.picture]

end Commute

/-! ## Two orders with one item -/

/-- Two orders that hold units of item 2: order 4 awaits approval of its
budget, order 6 awaits payment. -/
def itemInTwoOrders : List (ℕ × Op) :=
  [(0, .createCustomer ⟨"Ana", "529.982.247-25", .cpf, "ana@mail", "11987654321"⟩),
   (1, .createVehicle ⟨Uuid.text 0, "ABC-1234", "VW", "Gol", 2020⟩),
   (2, .createItem "Oil" 30 10),
   (3, .createService "Oil change" 80 30),
   (4, .createServiceOrder ⟨Uuid.text 0, Uuid.text 1, [Uuid.text 3], [⟨Uuid.text 2, 2⟩]⟩ none),
   (5, .createServiceOrder ⟨Uuid.text 0, Uuid.text 1, [], [⟨Uuid.text 2, 3⟩]⟩ none),
   (6, .handle ⟨Uuid.text 60, .diagnosisStarted, Uuid.text 4, []⟩ none),
   (7, .handle ⟨Uuid.text 61, .diagnosisCompleted, Uuid.text 4, []⟩ none),
   (8, .handle ⟨Uuid.text 70, .diagnosisStarted, Uuid.text 6, []⟩ none),
   (9, .handle ⟨Uuid.text 71, .diagnosisCompleted, Uuid.text 6, []⟩ none),
   (10, .handle ⟨Uuid.text 72, .budgetApproved, Uuid.text 6, []⟩ none)]

/-- The budget of order 4 is rejected, which releases its units. -/
def rejection : Incoming := .reply ⟨Uuid.text 62, .budgetRejected, Uuid.text 4, []⟩ none

/-- Order 6 is paid, which consumes its units. -/
def payment : Incoming := .reply ⟨Uuid.text 73, .paymentConfirmed, Uuid.text 6, []⟩ none

theorem rejection_commutes_with_payment :
    Commuting (World.performAll {} itemInTwoOrders) rejection payment ∧
      (World.performAll {} itemInTwoOrders).db.items.find? 2 = some ⟨2, "Oil", 3000, 10, 5⟩ ∧
      (((World.performAll {} itemInTwoOrders).perform 11 rejection.op).perform 12
        payment.op).db.items.find? 2 = some ⟨2, "Oil", 3000, 7, 0⟩ := by
  refine ⟨messages_commute itemInTwoOrders ⟨?_, ?_⟩, by decide +kernel, by decide +kernel⟩
  · intro o ho hp
    cases ho
    cases hp
  · intro m hm hp
    cases hm
    cases hp

end CarRepairShop
