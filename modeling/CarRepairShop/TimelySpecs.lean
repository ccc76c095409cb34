import CarRepairShop.Timely

/-! # Every operation keeps the orders timely

One specification for each unit of work that sets the status of an order, with
the clock (`Prog.EnsuresAt`): it leaves the orders it wrote dated. The parts that
move stock, read the catalogue and store commands are the ones of `SagaSpecs`,
which need no clock.
-/

namespace CarRepairShop

open Lib Txn Prog

section Specs

variable {R : List Write → Db → Db → Prop} {tx : ShopTx} {t : ℕ} {db : Db}
variable {o : Uuid} {order : ServiceOrder} {record : ProcessedRow} {cr cs : ℤ}

/-- The unit of work leaves the orders it wrote dated. -/
abbrev Dates (R : List Write → Db → Db → Prop) {α : Type} (p : Work α) (tx : ShopTx) (t : ℕ)
    (db : Db) : Prop :=
  p.EnsuresAt postgres R TimelyTables (fun _ tx t db => DatedTx tx t db) tx t db

theorem Outbox.add_table (traceparent : Option String) (message : OutgoingMessage) :
    (Outbox.add traceparent message).Issues fun s => s.table ≠ .orders := by
  unfold Outbox.add
  cases message.serviceOrderId.stored? with
  | none => trivial
  | some key => exact fun id createdAt => ⟨by simp [Stmt.table], fun _ => trivial⟩

theorem ServiceOrderSaga.cancelStep_table (traceparent : Option String) (order : ServiceOrder)
    (cancel : List ServiceOrderSaga.CancelTarget) (target : ServiceOrderSaga.CancelTarget) :
    (ServiceOrderSaga.cancelStep traceparent order cancel target).Issues
      fun s => s.table ≠ .orders := by
  unfold ServiceOrderSaga.cancelStep
  split
  · cases target with
    | execution => exact Outbox.add_table _ _
    | budget => exact Outbox.add_table _ _
  · trivial

/-- An update of the version that was read, with a date that the clock gave
after the reading. -/
theorem update_dated (hR : ShopInterference R) {id : IdText} (hid : id.column? = some o)
    {data : ServiceOrderChanges} (hno : ∀ o, lastOrder tx.writes o = none)
    (hseen : Seen o order db) (hI : TimelyTables t db)
    (hlegal : ∀ b, data.status = some b → canTransition order.status b = true)
    (hown : ∀ status date, data.dateOf status = some date →
      data.status = some status ∧ date ≤ t ∧ KnownBy date o order db)
    (hdated : ∀ status, status.dated = true → data.status = some status →
      (data.dateOf status).isSome = true) :
    Dates R (ServiceOrderRepository.update id data (some order.version)) tx t db := by
  have hthere : ∃ r, db.orders.find? o = some r := by
    rcases hseen with ⟨r, hr, -⟩
    exact ⟨r, hr⟩
  refine ((ServiceOrderRepository.update_at hR hid data (some order.version) hno
    hthere).since hR.toInterference hI).post ?_
  rintro - tx' t' db' ⟨⟨r₀, r₁, n, hu, htn⟩, hl⟩ -
  -- the row claimed is the row read
  have hent := (hseen.stable (hR.rely _ _ _ hl.moved)).claimed hu.found (hu.expected _ rfl)
  have hstatus : order.status = r₀.status := by
    rw [← hent]
    rfl
  have hstamps : data.Stamps r₀ n := by
    refine ⟨fun status date hd => ?_, hdated⟩
    obtain ⟨hset, hdt, hknown⟩ := hown status date hd
    have hrely : Rely [] db db' := hR.rely _ _ _ (hR.held [] tx.writes _ _ hl.moved)
    exact ⟨hset, hdt.trans htn, hknown db' r₀ hrely hu.found (hu.expected _ rfl)⟩
  intro o' row hrow
  by_cases ho : o' = o
  · subst ho
    obtain rfl : r₁ = row := Option.some.inj (hu.order.symm.trans hrow)
    rw [hu.found]
    refine .updated data n hu.revision (fun b hb => ?_) hu.history hstamps hu.known hu.time
    rw [← hstatus]
    exact hlegal b hb
  · rw [hu.others o' ho] at hrow
    cases hrow

/-! ## The saga -/

theorem ServiceOrderSaga.save_dated (hR : ShopInterference R) {data : ServiceOrderChanges}
    (h : Ready o order record cr cs tx db) (hI : TimelyTables t db)
    (hlegal : ∀ b, data.status = some b → canTransition order.status b = true)
    (hown : ∀ status date, data.dateOf status = some date →
      data.status = some status ∧ date ≤ t ∧ KnownBy date o order db)
    (hdated : ∀ status, status.dated = true → data.status = some status →
      (data.dateOf status).isSome = true) :
    Dates R (ServiceOrderSaga.save order data) tx t db := by
  have hid : order.id.column? = some o := by
    rw [h.id]
    rfl
  unfold ServiceOrderSaga.save
  refine EnsuresAt.seq hR.toInterference hI
    (update_dated hR hid h.noOrders h.seen hI hlegal hown hdated) ?_
  intro updated tx₁ t₁ d₁ hdt h₁
  cases updated with
  | none => trivial
  | some order => exact fun t₂ d₂ h₂ => hdt.later hR (fun _ => rfl) h₂

/-- A move to a status that has no date. -/
theorem ServiceOrderSaga.moveTo_dated (hR : ShopInterference R) (status : OSStatus)
    (hs : status.dated = false) (h : Ready o order record cr cs tx db) (hI : TimelyTables t db) :
    Dates R (ServiceOrderSaga.moveTo order status) tx t db := by
  unfold ServiceOrderSaga.moveTo
  refine EnsuresAt.seq hR.toInterference hI (.of_ensures hR.toInterference (ofExcept_ensures _)) ?_
  rintro u tx₁ t₁ d₁ ⟨hlegal, rfl⟩ h₁
  refine ServiceOrderSaga.save_dated hR (h.stable hR h₁.moved) h₁.holds ?_ ?_ ?_
  · intro b hb
    obtain rfl := Option.some.inj hb
    exact assertTransition_ok hlegal
  · intro status' date hd
    cases status' <;> cases hd
  · intro status' hdated hset
    obtain rfl := Option.some.inj hset
    rw [hs] at hdated
    cases hdated

/-- A move to a dated status, with a date the clock gave just before. -/
theorem ServiceOrderSaga.moveOn_dated (hR : ShopInterference R) (status : OSStatus)
    {data : ServiceOrderChanges} (hown : data.dateOf status = some t)
    (hothers : ∀ status', status' ≠ status → data.dateOf status' = none)
    (h : Ready o order record cr cs tx db) (hI : TimelyTables t db) :
    Dates R (ServiceOrderSaga.moveTo order status data) tx t db := by
  have hdate : ∀ status', ({ data with status := some status } : ServiceOrderChanges).dateOf status' =
      data.dateOf status' := by
    intro status'
    cases status' <;> rfl
  unfold ServiceOrderSaga.moveTo
  refine EnsuresAt.seq hR.toInterference hI (.of_ensures hR.toInterference (ofExcept_ensures _)) ?_
  rintro u tx₁ t₁ d₁ ⟨hlegal, rfl⟩ h₁
  refine ServiceOrderSaga.save_dated hR (h.stable hR h₁.moved) h₁.holds ?_ ?_ ?_
  · intro b hb
    obtain rfl := Option.some.inj hb
    exact assertTransition_ok hlegal
  · intro status' date hd
    rw [hdate] at hd
    by_cases hs : status' = status
    · subst hs
      obtain rfl : t = date := Option.some.inj (hown.symm.trans hd)
      refine ⟨rfl, h₁.time, (KnownBy.of_seen h.seen hI).stable ?_⟩
      exact hR.rely _ _ _ (hR.held [] _ _ _ h₁.moved)
    · rw [hothers status' hs] at hd
      cases hd
  · intro status' _ hset
    obtain rfl := Option.some.inj hset
    rw [hdate, hown]
    rfl

/-- A move, and commands stored after it. -/
theorem ServiceOrderSaga.moveAndSend_dated (hR : ShopInterference R) (status : OSStatus)
    (hs : status.dated = false) {sends : ServiceOrder → Work ServiceOrder}
    (hsends : ∀ order, (sends order).Issues fun s => s.table ≠ .orders)
    (h : Ready o order record cr cs tx db) (hI : TimelyTables t db) :
    Dates R (ServiceOrderSaga.moveTo order status >>= sends) tx t db := by
  refine EnsuresAt.seq hR.toInterference hI (ServiceOrderSaga.moveTo_dated hR status hs h hI) ?_
  intro updated tx₁ t₁ d₁ hdt h₁
  exact hdt.frame hR h₁.holds (hsends updated)

/-- A compensation: the parts are released, the order moves, commands are stored. -/
theorem ServiceOrderSaga.compensate_dated (hR : ShopInterference R) (status : OSStatus)
    (hs : status.dated = false) {sends : ServiceOrder → Work ServiceOrder}
    (hsends : ∀ order, (sends order).Issues fun s => s.table ≠ .orders)
    (h : Due o order record tx db) (hI : TimelyTables t db) :
    Dates R (ServiceOrderSaga.releaseReservations order >>= fun _ =>
      ServiceOrderSaga.moveTo order status >>= sends) tx t db := by
  refine EnsuresAt.seq hR.toInterference hI (.of_ensures hR.toInterference
    (ServiceOrderSaga.releaseReservations_ensures hR h.ready)) ?_
  rintro - tx₁ t₁ d₁ hready h₁
  exact ServiceOrderSaga.moveAndSend_dated hR status hs hsends hready h₁.holds

theorem ServiceOrderSaga.stepFailed_dated (hR : ShopInterference R) (traceparent : Option String)
    (cancel : List ServiceOrderSaga.CancelTarget) (h : Due o order record tx db)
    (hI : TimelyTables t db) :
    Dates R (ServiceOrderSaga.stepFailed traceparent order cancel) tx t db := by
  refine ServiceOrderSaga.compensate_dated hR .cancelled rfl (fun updated => ?_) h hI
  exact (ServiceOrderSaga.cancelStep_table _ _ _ _).bind fun _ =>
    (ServiceOrderSaga.cancelStep_table _ _ _ _).bind fun _ => trivial

theorem ServiceOrderSaga.apply_dated (hR : ShopInterference R) (reply : SagaReply)
    (traceparent : Option String) (h : Due o order record tx db) (hI : TimelyTables t db) :
    Dates R (ServiceOrderSaga.apply traceparent order reply) tx t db := by
  have hquiet : Dates R (ServiceOrderSaga.compensationConfirmed order) tx t db :=
    fun t₁ d₁ h₁ => DatedTx.none h.ready.noOrders
  unfold ServiceOrderSaga.apply
  cases reply.type with
  | diagnosisStarted => exact ServiceOrderSaga.moveTo_dated hR .diagnosis rfl h.ready hI
  | diagnosisCompleted =>
      refine EnsuresAt.seq hR.toInterference hI (.of_ensures hR.toInterference
        (ServiceOrderSaga.budgetCommandFor_ensures hR order)) ?_
      rintro command tx₁ t₁ d₁ ⟨hc₁, -⟩ h₁
      refine ServiceOrderSaga.moveAndSend_dated hR .waitingApproval rfl (fun updated => ?_)
        (h.ready.read hR hc₁ h₁.moved) h₁.holds
      exact (Outbox.add_table _ _).bind fun _ => trivial
  | budgetGenerated =>
      dsimp only
      unfold ServiceOrderSaga.budgetGenerated
      split
      · refine ServiceOrderSaga.save_dated hR h.ready hI (fun b hb => by cases hb) ?_ ?_
        · intro status date hd
          cases status <;> cases hd
        · intro status _ hset
          cases hset
      · trivial
  | budgetApproved =>
      refine ServiceOrderSaga.moveAndSend_dated hR .approved rfl (fun updated => ?_) h.ready hI
      exact (Outbox.add_table _ _).bind fun _ => trivial
  | budgetRejected =>
      refine ServiceOrderSaga.compensate_dated hR .rejected rfl (fun updated => ?_) h hI
      exact (Outbox.add_table _ _).bind fun _ => trivial
  | paymentConfirmed =>
      refine EnsuresAt.seq hR.toInterference hI (.of_ensures hR.toInterference
        (ServiceOrderSaga.consumeLines_ensures hR h.ready)) ?_
      rintro - tx₁ t₁ d₁ hready h₁
      refine EnsuresAt.seq hR.toInterference h₁.holds (.of_ensures hR.toInterference
        (ServiceOrderSaga.repairCommandFor_ensures hR order)) ?_
      rintro command tx₂ t₂ d₂ ⟨hc₂, -⟩ h₂
      refine ServiceOrderSaga.moveAndSend_dated hR .paid rfl (fun updated => ?_)
        (hready.read hR hc₂ h₂.moved) h₂.holds
      exact (Outbox.add_table _ _).bind fun _ => trivial
  | paymentFailed =>
      refine ServiceOrderSaga.compensate_dated hR .cancelled rfl (fun updated => ?_) h hI
      exact (Outbox.add_table _ _).bind fun _ => (Outbox.add_table _ _).bind fun _ => trivial
  | repairStarted =>
      intro startedAt d₁ h₁
      refine ServiceOrderSaga.moveOn_dated hR .execution rfl ?_ (h.ready.stable hR h₁.moved) h₁.holds
      intro status hs
      cases status <;> first | rfl | exact absurd rfl hs
  | repairCompleted =>
      intro finishedAt d₁ h₁
      refine ServiceOrderSaga.moveOn_dated hR .finished rfl ?_ (h.ready.stable hR h₁.moved) h₁.holds
      intro status hs
      cases status <;> first | rfl | exact absurd rfl hs
  | executionCancelled => exact hquiet
  | budgetCancelled => exact hquiet

/-- A unit of work that only maps its result at the end. -/
theorem dates_map (hR : ShopInterference R) {α β : Type} {p : Work α} {f : α → β}
    (hI : TimelyTables t db) (h : Dates R p tx t db) :
    Dates R (p >>= fun a => Prog.pure (f a)) tx t db :=
  EnsuresAt.seq hR.toInterference hI h fun _ _ _ _ hdt _ _ _ hl => hdt.later hR (fun _ => rfl) hl

/-- A unit of work that handles a message leaves the orders dated when its
effect does. -/
theorem ServiceOrderSaga.process_dated (hR : ShopInterference R)
    (message : ServiceOrderSaga.SagaMessage) (expected : ServiceOrderSaga.Expected)
    {effect : ServiceOrder → Work ServiceOrderSaga.Effect}
    (heffect : ∀ o order record tx t db, Due o order record tx db → TimelyTables t db →
      Dates R (effect order) tx t db) (hI : TimelyTables t db) :
    Dates R (ServiceOrderSaga.process message expected effect) {} t db := by
  unfold ServiceOrderSaga.process
  refine EnsuresAt.seq hR.toInterference hI (.of_ensures hR.toInterference
    (ProcessedMessages.markProcessed_ensures hR message.messageId message.type)) ?_
  rintro marked tx₁ t₁ d₁ ⟨m, hm, hold, hnew⟩ h₁
  cases marked with
  | false =>
      rcases hold rfl with ⟨hc, -⟩
      intro t₂ d₂ h₂
      refine DatedTx.none fun o => ?_
      rw [hc.start.1]
      rfl
  | true =>
      rcases hnew rfl with ⟨-, record, hrecord, hc₁⟩
      have hno₁ : ∀ o, lastOrder tx₁.writes o = none := by
        intro o
        rw [hc₁.start.1]
        rfl
      refine EnsuresAt.seq hR.toInterference h₁.holds (.of_ensures hR.toInterference
        (ServiceOrderRepository.findById_ensures hR message.serviceOrderId hno₁)) ?_
      rintro found tx₂ t₂ d₂ ⟨hc₂, hfound⟩ h₂
      rcases (hc₁.trans hc₂).start with ⟨hwrites₂, hclaims₂⟩
      have hno₂ : ∀ o, lastOrder tx₂.writes o = none := by
        intro o
        rw [hwrites₂]
        rfl
      cases found with
      | none => exact fun t₃ d₃ h₃ => DatedTx.none hno₂
      | some order =>
          rcases hfound with ⟨o, ho, hf⟩
          dsimp only
          split
          · exact fun t₃ d₃ h₃ => DatedTx.none hno₂
          · have hdue : Due o order record tx₂ d₂ := ⟨hwrites₂, hclaims₂, hf.id, hf.seen⟩
            exact dates_map hR h₂.holds (heffect o order record tx₂ t₂ d₂ hdue h₂.holds)

theorem ServiceOrderSaga.handle_dated (hR : ShopInterference R) (reply : SagaReply)
    (traceparent : Option String) (hI : TimelyTables t db) :
    Dates R (ServiceOrderSaga.handle reply traceparent) {} t db := by
  unfold ServiceOrderSaga.handle
  refine ServiceOrderSaga.process_dated hR _ _ ?_ hI
  intro o order record tx t db hdue hI
  exact dates_map hR hI (ServiceOrderSaga.apply_dated hR reply traceparent hdue hI)

theorem ServiceOrderSaga.handleFailedCommand_dated (hR : ShopInterference R)
    (command : FailedSagaCommand) (traceparent : Option String) (hI : TimelyTables t db) :
    Dates R (ServiceOrderSaga.handleFailedCommand command traceparent) {} t db := by
  unfold ServiceOrderSaga.handleFailedCommand
  refine ServiceOrderSaga.process_dated hR _ _ ?_ hI
  intro o order record tx t db hdue hI
  unfold ServiceOrderSaga.failedCommandEffect
  split
  · exact fun t₁ d₁ h₁ => DatedTx.none hdue.ready.noOrders
  · exact dates_map hR hI (ServiceOrderSaga.stepFailed_dated hR traceparent _ hdue hI)

/-! ## Delivery and opening -/

theorem DeliverOS.execute_dated (hR : ShopInterference R) (osId : IdText)
    (hI : TimelyTables t db) : Dates R (DeliverOS.execute osId) {} t db := by
  unfold DeliverOS.execute
  refine EnsuresAt.seq hR.toInterference hI (.of_ensures hR.toInterference
    (findOSOrThrow_ensures hR osId fun o => rfl)) ?_
  rintro os tx₁ t₁ d₁ ⟨hc₁, o, ho, hf⟩ h₁
  refine EnsuresAt.seq hR.toInterference h₁.holds (.of_ensures hR.toInterference
    (ofExcept_ensures _)) ?_
  rintro u tx₂ t₂ d₂ ⟨hlegal, rfl⟩ h₂
  intro deliveredAt d₃ h₃
  have hno : ∀ o, lastOrder tx₂.writes o = none := by
    intro o'
    rw [hc₁.start.1]
    rfl
  have hf₃ := (hf.stable hR h₂.moved).stable hR h₃.moved
  refine update_dated hR ho hno hf₃.seen h₃.holds ?_ ?_ ?_
  · intro b hb
    cases hb
    exact assertTransition_ok hlegal
  · intro status date hd
    cases status with
    | delivered =>
        cases hd
        exact ⟨rfl, Nat.le_refl _, .of_seen hf₃.seen h₃.holds⟩
    | _ => cases hd
  · intro status _ hset
    cases hset
    rfl

/-- A row inserted for an order has its opening for its only date. -/
theorem insertOrder_dates {customerId vehicleId : IdText} {status : OSStatus}
    {budgetTotal : Option ℚ} {createdAt : ℕ} {columns : OrderColumns} {ws : List Write}
    (h : exec (.insertOrder o customerId vehicleId status budgetTotal createdAt) db
      = .ok (columns, ws)) :
    columns.createdAt = createdAt ∧ columns.startedAt = none ∧ columns.finishedAt = none ∧
      columns.deliveredAt = none := by
  simp only [exec] at h
  split at h
  · split at h
    · cases h
    · split at h
      · cases h
      · rcases map_ok h with ⟨ws', -, heq⟩
        cases heq
        exact ⟨rfl, rfl, rfl, rfl⟩
  · cases h

/-- An order that has only been opened. -/
theorem timely_of_opening {row : OrderRow} {n : ℕ} (change : StatusChange)
    (hhistory : row.history = [change]) (hstatus : change.toStatus = .received)
    (hdates : row.createdAt ≤ n ∧ row.startedAt = none ∧ row.finishedAt = none ∧
      row.deliveredAt = none) (hn : n ≤ change.changedAt) (ht : change.changedAt ≤ t) :
    row.Timely t := by
  obtain ⟨hcreated, hstarted, hfinished, hdelivered⟩ := hdates
  constructor
  · have htimeline : row.timeline = [row.createdAt, change.changedAt] := by
      rw [OrderRow.timeline, hhistory, List.flatMap_singleton, OrderRow.timesOf, hstatus]
      rfl
    rw [htimeline]
    simp only [List.cons_append, List.nil_append, List.pairwise_cons, List.mem_cons,
      List.not_mem_nil, or_false, forall_eq_or_imp, forall_eq]
    simp only [List.Pairwise.nil, and_true, false_imp_iff, implies_true]
    omega
  · intro status hdated
    rw [hhistory]
    cases status <;>
      simp [OSStatus.dated, OrderRow.dateOf, pathOf, hstatus, hstarted, hfinished, hdelivered] at hdated ⊢

theorem ServiceOrderRepository.create_dated (hR : ShopInterference R) {data : NewServiceOrder}
    (hdata : data.status = .received) (hno : ∀ o, lastOrder tx.writes o = none) :
    Dates R (ServiceOrderRepository.create data) tx t db := by
  unfold ServiceOrderRepository.create
  intro o createdAt d₀ h₀
  refine ensuresAt_sql.mpr fun t₁ d₁ h₁ columns ws₁ he => ?_
  have hdates := insertOrder_dates he
  obtain ⟨hnew, row, hc₁, rfl, rfl, hid, hstatus, -, -, -, -, hh₁, -⟩ := insertOrder_ok he
  rw [view_orders hno] at hnew
  have hw₁ : Rewrote o row tx (tx.record (.insertOrder o data.customerId data.vehicleId
      data.status data.budgetTotal createdAt) row.toOrderColumns [.putOrder row hc₁])
      ([] ++ [.putOrder row hc₁]) [] :=
    ⟨(Continues.refl tx).record rfl, OrderWrites.one hc₁ hid⟩
  refine ensuresAt_sql.mpr fun t₂ d₂ h₂ u₂ ws₂ he => ?_
  rcases createServiceLines_ok he (hw₁.order d₂) with ⟨ids, hc₂, rfl, -⟩
  have hw₂ := hw₁.record (s := .createServiceLines o data.services) (r := u₂) hc₂ rfl rfl
  refine ensuresAt_sql.mpr fun t₃ d₃ h₃ u₃ ws₃ he => ?_
  rcases createItemLines_ok he (hw₂.order d₃) with ⟨new, hc₃, rfl, -⟩
  have hw₃ := hw₂.record (s := .createItemLines o data.items) (r := u₃) hc₃ rfl rfl
  refine EnsuresAt.seq hR.toInterference h₃.holds (.of_ensures hR.toInterference
    (ServiceOrderRepository.includeRelations_ensures hw₃ _)) ?_
  rintro order tx₄ t₄ d₄ ⟨hw₄, -⟩ h₄
  -- the history starts after the order was dated
  intro changedAt d₅ h₅
  refine ensuresAt_sql.mpr fun t₆ d₆ h₆ u₆ ws₆ he => ?_
  rcases changeOrder_ok he (hw₄.order d₆) with ⟨row₆, hc₆, hf₆, rfl⟩
  simp only [Except.ok.injEq, Prod.mk.injEq, true_and] at hf₆
  subst hf₆
  have hw₆ := hw₄.record (s := .insertHistory o _) (r := u₆) hc₆ rfl rfl
  intro t₇ d₇ h₇ o' row' hrow
  rw [hw₆.continues.writes, lastOrder, lastOf_append] at hrow
  by_cases ho : o' = o
  · subst ho
    rw [show lastOf (Write.order? o') _ = some _ from hw₆.writes.last, Option.some_or] at hrow
    obtain rfl := Option.some.inj hrow
    have hnone : d₇.orders.find? o' = none := by
      rw [hw₆.held hR h₇.moved, hw₄.held hR h₆.moved, hw₄.held hR h₅.moved, hw₃.held hR h₄.moved,
        hw₂.held hR h₃.moved, hw₁.held hR h₂.moved, hnew]
    rw [hnone]
    refine .opened (timely_of_opening ⟨none, row.status, changedAt⟩ ?_ (hstatus.trans hdata)
      ⟨hdates.1.le, hdates.2⟩ ?_ ?_)
    · simp [hh₁]
    · exact (h₁.time.trans h₂.time).trans ((h₃.time.trans h₄.time).trans h₅.time)
    · exact h₆.time.trans h₇.time
  · rw [show lastOf (Write.order? o') _ = none from hw₆.writes.other ho, Option.none_or] at hrow
    change lastOrder tx.writes o' = some row' at hrow
    rw [hno o'] at hrow
    cases hrow

theorem CreateServiceOrder.execute_dated (hR : ShopInterference R)
    (input : CreateServiceOrderInput) (traceparent : Option String) (hI : TimelyTables t db) :
    Dates R (CreateServiceOrder.execute input traceparent) {} t db := by
  unfold CreateServiceOrder.execute
  refine EnsuresAt.seq hR.toInterference hI (.of_ensures hR.toInterference
    (CreateServiceOrder.resolveServices_ensures hR input.services)) ?_
  rintro services tx₁ t₁ d₁ ⟨rfl, hc₁⟩ h₁
  have hempty₁ : tx₁.writes = [] := hc₁.start.1
  refine EnsuresAt.seq hR.toInterference h₁.holds (.of_ensures hR.toInterference
    (CreateServiceOrder.reserveLines_ensures hR input.items hempty₁)) ?_
  rintro lines tx₂ t₂ d₂ ⟨rfl, wi, hc₂, hwi, -⟩ h₂
  have hno₂ : ∀ o, lastOrder tx₂.writes o = none := by
    intro o
    rw [hc₂.writes, hempty₁, List.nil_append]
    exact hwi.order o
  refine EnsuresAt.seq hR.toInterference h₂.holds
    (ServiceOrderRepository.create_dated hR rfl hno₂) ?_
  intro order tx₃ t₃ d₃ hdt h₃
  exact hdt.frame hR h₃.holds ((Outbox.add_table _ _).bind fun _ => trivial)

/-! ## All operations -/

/-- A line editor leaves the times of its order as they are. -/
theorem Edited.dated {ids : List Uuid} {lines : List ItemLine} {data : ServiceOrderChanges}
    {r₀ r₁ : OrderRow} {ws : List Write} {G : ShopTx → Stmt → Db → Prop}
    (h : Edited R G o ids lines data r₀ r₁ ws tx db) (hstatus : data.status = none)
    (hdates : ∀ status, data.dateOf status = none) (hI : TimelyTables t db) : DatedTx tx t db := by
  intro o' row hrow
  by_cases ho : o' = o
  · subst ho
    obtain rfl : r₁ = row := Option.some.inj (h.commit.order.symm.trans hrow)
    obtain ⟨n, hhistory⟩ := h.commit.revision.history
    rw [hstatus] at hhistory
    rw [h.commit.found]
    refine .updated data t h.commit.revision ?_ (by rw [hstatus]; exact hhistory) ⟨?_, ?_⟩
      (hI o' r₀ h.commit.found).2 (Nat.le_refl t)
    · intro b hb
      rw [hstatus] at hb
      cases hb
    · intro status date hd
      rw [hdates] at hd
      cases hd
    · intro status _ hset
      rw [hstatus] at hset
      cases hset
  · rw [h.commit.others o' ho] at hrow
    cases hrow

theorem program_dated (hR : ShopInterference R) (op : Op) (hI : TimelyTables t db) :
    Dates R (program op) {} t db := by
  have hall : (program op).EnsuresAt postgres R TimelyTables
      (fun result tx _ db => Committed R (fun _ _ _ => True) op result tx db) {} t db :=
    .of_ensures hR.toInterference (program_ensures hR op db)
  have hnone : ∀ status, ({} : ServiceOrderChanges).dateOf status = none := by
    intro status
    cases status <;> rfl
  cases op with
  | createServiceOrder input traceparent =>
      exact dates_map hR hI (CreateServiceOrder.execute_dated hR input traceparent hI)
  | deliverOS osId => exact dates_map hR hI (DeliverOS.execute_dated hR osId hI)
  | handle reply traceparent =>
      exact dates_map hR hI (ServiceOrderSaga.handle_dated hR reply traceparent hI)
  | handleFailedCommand command traceparent =>
      exact dates_map hR hI (ServiceOrderSaga.handleFailedCommand_dated hR command traceparent hI)
  | addItemToOS osId itemId quantity =>
      refine hall.post ?_
      rintro result tx t db ⟨o, i, ids, lines, r₀, r₁, ws, -, hadded⟩ hI
      exact hadded.edited.dated rfl hnone hI
  | removeItemFromOS osId itemId =>
      refine hall.post ?_
      rintro result tx t db ⟨o, line, ids, lines, r₀, r₁, ws, -, hremoved⟩ hI
      exact hremoved.edited.dated rfl hnone hI
  | addServiceToOS osId serviceId =>
      refine hall.post ?_
      rintro result tx t db ⟨o, ids, lines, r₀, r₁, -, hadded⟩ hI
      exact hadded.edited.dated rfl hnone hI
  | removeServiceFromOS osId serviceId =>
      refine hall.post ?_
      rintro result tx t db ⟨o, ids, lines, r₀, r₁, -, hremoved⟩ hI
      exact hremoved.edited.dated rfl hnone hI
  | createItem | updateItem | deleteItem =>
      exact hall.post fun result tx t db h _ => DatedTx.none h.1.orders
  | createService | updateService | deleteService | createCustomer | updateCustomer
  | deleteCustomer | createVehicle | updateVehicle | deleteVehicle =>
      exact hall.post fun result tx t db h _ => DatedTx.none h.1.quiet.orders

end Specs

end CarRepairShop
