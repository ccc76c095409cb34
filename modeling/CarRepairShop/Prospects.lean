import CarRepairShop.Announcements
import CarRepairShop.MessageCommutation

/-! # What can still become of an order

Where can an order still get to, whatever is done next? Two things decide it.
Its status: the graph has no way back, and no way on from an order that was
compensated. And its customer: without one the budget is never asked for, and
nobody undeletes a customer. So an order whose customer leaves during the
diagnosis stays there for good (`Doomed`), since no reply, no dead command and
no operation of the staff cancels it; before the diagnosis it can still be
cancelled, and after it the customer is not needed.

Every other order can be brought to its end, one due message at a time
(`Incoming.moves`, `can_be_delivered`).
-/

namespace CarRepairShop

open Lib Txn Prog

/-- After the operations `ops`, more operations can bring order `o` into a status of `P`. -/
def CanBecome (ops : List (ℕ × Op)) (o : Uuid) (P : OSStatus → Prop) : Prop :=
  ∃ more row, (World.performAll {} (ops ++ more)).db.orders.find? o = some row ∧ P row.status

theorem CanBecome.now {ops : List (ℕ × Op)} {o : Uuid} {row : OrderRow} {P : OSStatus → Prop}
    (h : (World.performAll {} ops).db.orders.find? o = some row) (hP : P row.status) :
    CanBecome ops o P :=
  ⟨[], row, by rw [List.append_nil]; exact h, hP⟩

/-- What can be done after one more operation can be done. -/
theorem CanBecome.next {ops : List (ℕ × Op)} (op : ℕ × Op) {o : Uuid} {P : OSStatus → Prop}
    (h : CanBecome (ops ++ [op]) o P) : CanBecome ops o P := by
  rcases h with ⟨more, row, hrow, hP⟩
  refine ⟨op :: more, row, ?_, hP⟩
  rw [List.append_assoc] at hrow
  exact hrow

theorem CanBecome.mono {ops : List (ℕ × Op)} {o : Uuid} {P P' : OSStatus → Prop}
    (h : CanBecome ops o P) (himp : ∀ status, P status → P' status) : CanBecome ops o P' := by
  rcases h with ⟨more, row, hrow, hP⟩
  exact ⟨more, row, hrow, himp _ hP⟩

theorem World.performAll_append (w : World) (ops more : List (ℕ × Op)) :
    w.performAll (ops ++ more) = (w.performAll ops).performAll more :=
  List.foldl_append

/-! ## Customers do not come back -/

/-- The customer was deleted. -/
def CustomerLeft (db : Db) (c : Uuid) : Prop :=
  ∃ row, db.customers.find? c = some row ∧ row.deletedAt ≠ none

section Left

variable {db : Db} {c : Uuid}

theorem CustomerLeft.put (h : CustomerLeft db c) {row : CustomerRow} (hc : row.Checks)
    (hrow : row.id = c → row.deletedAt ≠ none) :
    CustomerLeft (postgres.applyAll db [.putCustomer row hc]) c := by
  rcases h with ⟨old, hold, hdeleted⟩
  have hfind : (postgres.applyAll db [.putCustomer row hc]).customers.find? c =
      if row.id = c then some row else db.customers.find? c :=
    Table.find?_put db.customers row hc c
  by_cases hid : row.id = c
  · exact ⟨row, by rw [hfind, if_pos hid], hrow hid⟩
  · exact ⟨old, by rw [hfind, if_neg hid, hold], hdeleted⟩

/-- No statement undeletes a customer. -/
theorem CustomerLeft.exec (h : CustomerLeft db c) {s : Stmt} {r : s.Resp} {ws : List Write}
    (he : postgres.exec s db = .ok (r, ws)) : CustomerLeft (postgres.applyAll db ws) c := by
  have hother : (∀ row hc, s.makes (.putCustomer row hc) = false) →
      CustomerLeft (postgres.applyAll db ws) c := by
    intro hno
    have hlast : lastCustomer ws c = none := by
      refine lastOf_eq_none fun w hw => ?_
      have hmakes := exec_makes s db r ws he w hw
      cases w with
      | putCustomer row hc =>
          rw [hno row hc] at hmakes
          cases hmakes
      | _ => rfl
    rcases h with ⟨row, hrow, hdeleted⟩
    refine ⟨row, ?_, hdeleted⟩
    rw [applyAll_customers, hlast, Option.none_or, hrow]
  cases s with
  | insertCustomer new =>
      simp only [postgres, CarRepairShop.exec] at he
      split at he
      · cases he
      · next hfree =>
        rcases map_ok he with ⟨ws', hstore, heq⟩
        cases heq
        rcases storeCustomer_ok hstore with ⟨hc, rfl⟩
        refine h.put hc fun hid => ?_
        -- the id of a customer who left is taken
        rcases h with ⟨row, hrow, -⟩
        rw [hid, hrow] at hfree
        exact absurd ⟨hc, rfl⟩ hfree
  | updateCustomer id data updatedAt =>
      simp only [postgres, CarRepairShop.exec] at he
      split at he
      · cases he
      · next row hrow =>
        rcases map_ok he with ⟨ws', hstore, heq⟩
        cases heq
        rcases storeCustomer_ok hstore with ⟨hchecked, rfl⟩
        refine h.put hchecked fun hid => ?_
        have hkey : row.id = id := Table.key_of_find? (α := CustomerRow) hrow
        have hc : row.id = c := hid
        rcases h with ⟨old, hold, hdeleted⟩
        have hsame : row = old := by
          rw [← hkey, hc, hold] at hrow
          exact (Option.some.inj hrow).symm
        intro hnone
        rw [CustomerPatch.apply, Option.or_eq_none_iff, hsame] at hnone
        exact hdeleted hnone.2
  | _ => exact hother fun _ _ => rfl

theorem World.perform_customerLeft {w : World} (h : CustomerLeft w.db c) (now : ℕ) (op : Op) :
    CustomerLeft (w.perform now op).db c := by
  unfold World.perform World.attempt
  cases hrun : (program op).run postgres now w.db w.nextId {} with
  | error failure => exact h
  | ok fin =>
      have hview : CustomerLeft (postgres.view {} w.db) c := h
      exact run_keeps (I := fun d => CustomerLeft d c) (fun _ _ _ _ he hv => hv.exec he) hview hrun

end Left

/-! ## Orders that cannot go on -/

section Doomed

variable {op : Op} {result : Outcome} {tx : ShopTx} {db : Db} {o : Uuid} {r₀ r₁ : OrderRow}

/-- The customer of an order stays the same. -/
theorem OrderStep.customerId {R : List Write → Db → Db → Prop} {G : ShopTx → Stmt → Db → Prop}
    (h : OrderStep R G op tx db) (h₀ : db.orders.find? o = some r₀)
    (h₁ : (postgres.applyAll db tx.writes).orders.find? o = some r₁) :
    r₁.customerId = r₀.customerId := by
  refine h.orders (P := fun o row => db.orders.find? o = some row)
    (Q := fun o row => ∀ r, db.orders.find? o = some r → row.customerId = r.customerId) ?_ ?_ ?_
    (fun o row hrow => hrow) o r₁ h₁ r₀ h₀
  · intro o row _ hrow r hr
    rw [hrow, Option.some.injEq] at hr
    rw [hr]
  · intro input o row message hopen r hr
    rw [hopen.isNew] at hr
    cases hr
  · intro o data expected q₀ q₁ hcommit _ _ hrow r hr
    rw [hrow, Option.some.injEq] at hr
    have hcustomer := congrArg OrderColumns.customerId hcommit.revision.columns
    rw [← hr]
    exact hcustomer

/-- What moves an order on from its diagnosis is a completed diagnosis, and that
takes a customer who is there. -/
theorem Committed.leaves_diagnosis (h : Committed Alone AnyStep op result tx db)
    (h₀ : db.orders.find? o = some r₀) (hstatus : r₀.status = .diagnosis)
    (hmoved : StatusMoved o tx db) :
    ∃ c, db.customers.find? r₀.customerId = some c ∧ c.deletedAt = none := by
  -- the order that is updated is this one, as it is stored
  have hown : ∀ {o' data expected q₀ q₁}, OrderCommit o' data expected q₀ q₁ tx db →
      q₀ = r₀ ∧ data.status.getD .diagnosis ≠ .diagnosis := by
    intro o' data expected q₀ q₁ hcommit
    rcases (hcommit.statusMoved_iff).mp hmoved with ⟨rfl, hne⟩
    obtain rfl : q₀ = r₀ := Option.some.inj (hcommit.found.symm.trans h₀)
    rw [hstatus] at hne
    exact ⟨rfl, hne⟩
  cases op with
  | createServiceOrder input traceparent =>
      rcases h with ⟨o', row, message, hopen⟩
      exact absurd hmoved (hopen.notMoved o)
  | addItemToOS osId itemId quantity =>
      rcases h with ⟨o', i, ids, lines, q₀, q₁, ws, -, hadded⟩
      exact absurd hmoved (hadded.edited.notMoved rfl o)
  | removeItemFromOS osId itemId =>
      rcases h with ⟨o', line, ids, lines, q₀, q₁, ws, -, hremoved⟩
      exact absurd hmoved (hremoved.edited.notMoved rfl o)
  | addServiceToOS osId serviceId =>
      rcases h with ⟨o', ids, lines, q₀, q₁, -, hadded⟩
      exact absurd hmoved (hadded.edited.notMoved rfl o)
  | removeServiceFromOS osId serviceId =>
      rcases h with ⟨o', ids, lines, q₀, q₁, -, hremoved⟩
      exact absurd hmoved (hremoved.edited.notMoved rfl o)
  | deliverOS osId =>
      rcases h with ⟨o', q₀, q₁, data, -, hcommit, -, -, -, -, hlegal, -⟩
      rw [(hown hcommit).1, hstatus] at hlegal
      cases hlegal
  | handle reply traceparent =>
      rcases h with ⟨res, -, hprocessed⟩
      generalize res.outcome = outcome at hprocessed
      cases hprocessed with
      | duplicate m hm hrecorded hwrites =>
          exact absurd hmoved (not_statusMoved (by rw [hwrites]; rfl))
      | ignored m hm hnew honly => exact absurd hmoved (not_statusMoved (honly.orders o))
      | applied m o' hm hnew ho' _ heffect =>
          unfold ReplyApplied at heffect
          cases hreaction : replyReaction reply.type with
          | none =>
              rw [hreaction] at heffect
              exact absurd hmoved (not_statusMoved (heffect.orders o))
          | some reaction =>
              rw [hreaction] at heffect
              rcases heffect with ⟨data, q₀, q₁, hperformed, hdue, -, -, hcustomer⟩
              obtain rfl := (hown hperformed.commit).1
              rw [hstatus] at hdue
              have htype : reply.type = .diagnosisCompleted := by
                revert hdue
                cases reply.type <;> decide
              rcases was_alone.mp (hcustomer htype) with ⟨c, hc, hactive⟩
              exact ⟨c, hc, hactive⟩
  | handleFailedCommand command traceparent =>
      rcases h with ⟨res, -, hprocessed⟩
      generalize res.outcome = outcome at hprocessed
      cases hprocessed with
      | duplicate m hm hrecorded hwrites =>
          exact absurd hmoved (not_statusMoved (by rw [hwrites]; rfl))
      | ignored m hm hnew honly => exact absurd hmoved (not_statusMoved (honly.orders o))
      | applied m o' hm hnew ho' _ heffect =>
          unfold FailureApplied at heffect
          cases hreaction : failedCommandReaction command.type with
          | none =>
              rw [hreaction] at heffect
              exact absurd hmoved (not_statusMoved (heffect.orders o))
          | some reaction =>
              rw [hreaction] at heffect
              rcases heffect with ⟨data, q₀, q₁, hperformed, hdue, -⟩
              rw [(hown hperformed.commit).1, hstatus] at hdue
              -- no dead command is about an order in diagnosis
              revert hreaction hdue
              cases command.type <;>
                simp [failedCommandReaction, ServiceOrderSaga.failedCommand,
                  ServiceOrderSaga.Expected.admits]
  | createItem | updateItem | deleteItem => exact absurd hmoved (h.1.notMoved o)
  | createService | updateService | deleteService | createCustomer | updateCustomer
  | deleteCustomer | createVehicle | updateVehicle | deleteVehicle =>
      exact absurd hmoved (h.1.quiet.notMoved o)

/-- An order in one of the statuses `S`; if the diagnosis is one of them, its
customer left. -/
def Doomed (S : List OSStatus) (o : Uuid) (db : Db) : Prop :=
  ∃ row, db.orders.find? o = some row ∧ row.status ∈ S ∧
    (.diagnosis ∈ S → CustomerLeft db row.customerId)

/-- Statuses that only a completed diagnosis leads out of. -/
def Closed (S : List OSStatus) : Prop :=
  ∀ a ∈ S, a ≠ .diagnosis → ∀ b ∈ validTransitions a, b ∈ S

/-- A commit that leaves an order in another status moved it. -/
theorem StatusMoved.of_rows (h₀ : db.orders.find? o = some r₀)
    (h₁ : (postgres.applyAll db tx.writes).orders.find? o = some r₁)
    (hne : r₁.status ≠ r₀.status) : StatusMoved o tx db := by
  rw [applyAll_orders] at h₁
  cases hlast : lastOrder tx.writes o with
  | some written =>
      rw [hlast, Option.some_or, Option.some.injEq] at h₁
      exact ⟨r₀, r₁, h₀, by rw [hlast, h₁], hne⟩
  | none =>
      rw [hlast, Option.none_or, h₀, Option.some.injEq] at h₁
      rw [h₁] at hne
      exact absurd rfl hne

/-- The step: a doomed order does not get on. -/
theorem Doomed.perform {S : List OSStatus} (hS : Closed S) {w : World} (h : Doomed S o w.db)
    (now : ℕ) (op : Op) : Doomed S o (w.perform now op).db := by
  rcases h with ⟨r₀, h₀, hstatus, hleft⟩
  have hstill := fun hin => World.perform_customerLeft (hleft hin) now op
  rcases w.perform_cases now op with hsame | ⟨result, tx, nextId, hcommitted, hdb⟩
  · rw [hsame]
    exact ⟨r₀, h₀, hstatus, hleft⟩
  · rw [hdb] at hstill ⊢
    have hstep := hcommitted.step
    rcases hstep.change h₀ with ⟨r₁, h₁, hchange⟩
    have hcustomer := hstep.customerId h₀ h₁
    refine ⟨r₁, h₁, ?_, by rw [hcustomer]; exact hstill⟩
    cases hchange with
    | kept hsame =>
        rw [hsame]
        exact hstatus
    | revised _ hsame _ =>
        rw [hsame]
        exact hstatus
    | moved _ hlegal _ =>
        refine hS _ hstatus ?_ _ (by simpa [canTransition] using hlegal)
        intro hdiagnosis
        have hmoved := StatusMoved.of_rows h₀ h₁ (canTransition_ne hlegal)
        rcases hcommitted.leaves_diagnosis h₀ hdiagnosis hmoved with ⟨c, hc, hactive⟩
        rcases hleft (hdiagnosis ▸ hstatus) with ⟨c', hc', hdeleted⟩
        rw [hc, Option.some.injEq] at hc'
        exact absurd (hc' ▸ hactive) hdeleted

/-- The run: nor does it whatever is done. -/
theorem Doomed.performAll {S : List OSStatus} (hS : Closed S) {w : World} (h : Doomed S o w.db)
    (ops : List (ℕ × Op)) : Doomed S o (w.performAll ops).db := by
  induction ops generalizing w with
  | nil => exact h
  | cons op ops ih => exact ih (h.perform hS op.1 op.2)

theorem Doomed.not_become {S : List OSStatus} (hS : Closed S) {ops : List (ℕ × Op)}
    (h : Doomed S o (World.performAll {} ops).db) {P : OSStatus → Prop} (hP : ∀ a ∈ S, ¬ P a) :
    ¬ CanBecome ops o P := by
  rintro ⟨more, row, hrow, hbecome⟩
  rw [World.performAll_append] at hrow
  rcases h.performAll hS more with ⟨row', hrow', hstatus, -⟩
  rw [hrow, Option.some.injEq] at hrow'
  rw [hrow'] at hbecome
  exact hP _ hstatus hbecome

end Doomed

/-! ## Operations that succeed -/

namespace ServiceOrderSaga

section Failed

variable {v : Db} {o : Uuid} {row : OrderRow}

theorem cancelStep_succeeds (traceparent : Option String) {order : ServiceOrder}
    (ho : order.id.column? = some o) (cancel : List CancelTarget) (target : CancelTarget) :
    (cancelStep traceparent order cancel target).Succeeds postgres (fun _ _ => True) v := by
  unfold cancelStep
  split
  · cases target with
    | execution => exact (Outbox.add_succeeds traceparent ho).mono fun _ _ _ => trivial
    | budget => exact (Outbox.add_succeeds traceparent ho).mono fun _ _ _ => trivial
  · trivial

/-- The steps before a dead command can be undone while the order may be cancelled. -/
theorem stepFailed_succeeds (traceparent : Option String) (h : Backed v o row)
    (hroom : (row.version : ℤ) < maxInteger) (hactive : row.status.active = true)
    (hlegal : canTransition row.status .cancelled = true) (cancel : List CancelTarget) :
    (stepFailed traceparent row.entity cancel).Succeeds postgres (fun _ _ => True) v := by
  have ho : row.entity.id.column? = some o := by
    rw [← order_id h.found]
    rfl
  unfold stepFailed
  refine (releaseReservations_succeeds h.found (h.reserved hactive)).seq ?_
  intro _ v₁ hv₁
  refine (moveTo_after h hv₁ hroom hlegal).seq ?_
  intro updated v₂ _
  refine (cancelStep_succeeds traceparent ho cancel .execution).seq ?_
  intro _ v₃ _
  exact (cancelStep_succeeds traceparent ho cancel .budget).seq fun _ _ _ => trivial

/-- A fresh dead command that is due is handled. -/
theorem handleFailedCommand_succeeds (traceparent : Option String) {command : FailedSagaCommand}
    {m : Uuid} (h : Backed v o row) (ho : command.serviceOrderId.column? = some o)
    (hm : command.messageId.stored? = some m) (hfresh : v.processed.find? m = none)
    (hdue : (failedCommand command.type).1.admits row.status = true)
    (hroom : (row.version : ℤ) < maxInteger) :
    (handleFailedCommand command traceparent).Succeeds postgres
      (fun result _ => result.outcome = .applied) v := by
  unfold handleFailedCommand process
  refine (ProcessedMessages.markProcessed_succeeds command.type.name hm hfresh).seq ?_
  rintro marked v₁ ⟨rfl, hv₁⟩
  -- recording the message leaves the other tables
  have hbacked : Backed v₁ o row := by
    rw [hv₁]
    exact { h with keys := { h.keys with } }
  refine (ServiceOrderRepository.findById_succeeds ho hbacked.found).seq ?_
  rintro order v₂ ⟨rfl, rfl⟩
  have hadmits : (failedCommand command.type).1.admits row.entity.status = true := hdue
  simp only [hadmits, Bool.not_true, Bool.false_eq_true, if_false]
  refine Succeeds.seq (P := fun _ _ => True) ?_ fun _ _ _ => rfl
  unfold failedCommandEffect
  cases hrule : (failedCommand command.type).2 with
  | report => trivial
  | cancel cancel =>
      -- the commands that are undone belong to orders that are under way
      have hunder : row.status.active = true ∧ canTransition row.status .cancelled = true := by
        revert hrule hdue
        cases command.type <;> cases row.status <;>
          simp [failedCommand, Expected.admits, OSStatus.active, canTransition, validTransitions]
      exact (stepFailed_succeeds traceparent hbacked hroom hunder.1 hunder.2 cancel).seq
        fun _ _ _ => trivial

end Failed

end ServiceOrderSaga

/-- A finished order can be handed over. -/
theorem DeliverOS.execute_succeeds {v : Db} {o : Uuid} {row : OrderRow}
    (hrow : v.orders.find? o = some row) (hroom : (row.version : ℤ) < maxInteger)
    (hstatus : row.status = .finished) :
    (DeliverOS.execute (Uuid.text o)).Succeeds postgres (fun _ _ => True) v := by
  have hassert : assertTransition row.entity.status .delivered = .ok () :=
    if_pos (by rw [show row.entity.status = row.status from rfl, hstatus]; rfl)
  unfold DeliverOS.execute findOSOrThrow
  refine Succeeds.seq (P := fun os v' => os = row.entity ∧ v' = v) ?_ ?_
  · refine (ServiceOrderRepository.findById_succeeds rfl hrow).seq ?_
    rintro order v' ⟨rfl, rfl⟩
    exact ⟨rfl, rfl⟩
  · rintro os v' ⟨rfl, rfl⟩
    rw [hassert]
    intro deliveredAt
    -- the saga's `save` is this update
    have hsave : (ServiceOrderSaga.save row.entity
        { status := some .delivered, deliveredAt := some deliveredAt }).Succeeds postgres
          (fun _ _ => True) _ :=
      ServiceOrderSaga.save_succeeds hrow hroom rfl rfl (by simp)
    have hid : row.entity.id = Uuid.text o := by
      rw [← order_id hrow]
      rfl
    rw [← hid]
    exact hsave.first.mono fun _ _ _ => trivial

/-! ## One step further -/

/-- After the operations `ops`, one more operation moves the order to status `b`. -/
def MovesOn (ops : List (ℕ × Op)) (o : Uuid) (row : OrderRow) (b : OSStatus) : Prop :=
  ∃ op row', (World.performAll {} (ops ++ [op])).db.orders.find? o = some row' ∧ row'.status = b ∧
    row'.version = row.version + 1 ∧ row'.customerId = row.customerId ∧
    ∀ c, (World.performAll {} (ops ++ [op])).db.customers.find? c =
      (World.performAll {} ops).db.customers.find? c

section Further

variable (ops : List (ℕ × Op)) {o : Uuid} {row : OrderRow}

theorem World.attempt_succeeds {α : Type} {w : World} {p : Work α} {Q : α → Db → Prop}
    (h : p.Succeeds postgres Q w.db) (now : ℕ) :
    ∃ a w', w.attempt now p = .ok (a, w') ∧ Q a w'.db := by
  rcases World.attempt_ends (F := fun _ => False) h.ends now with hdone | ⟨_, _, hfalse⟩
  · exact hdone
  · exact hfalse.elim

/-- Where an update takes its order. -/
theorem OrderCommit.after {data : ServiceOrderChanges} {expected : Option ℕ} {r₁ : OrderRow}
    {tx : ShopTx} {db : Db} (h : OrderCommit o data expected row r₁ tx db) {b : OSStatus}
    (hb : data.status = some b) :
    (postgres.applyAll db tx.writes).orders.find? o = some r₁ ∧ r₁.status = b ∧
      r₁.version = row.version + 1 ∧ r₁.customerId = row.customerId := by
  have hversion := congrArg OrderColumns.version h.revision.columns
  have hcustomer := congrArg OrderColumns.customerId h.revision.columns
  refine ⟨?_, ?_, hversion, hcustomer⟩
  · rw [applyAll_orders, h.order, Option.some_or]
  · rw [h.revision.status, hb, Option.getD_some]

/-- A message that is applied to its order, and moves it, takes it a step further. -/
theorem Incoming.moves (a : Incoming) (ho : a.orderId = Uuid.text o) {b : OSStatus}
    (hrow : (World.performAll {} ops).db.orders.find? o = some row)
    (hsucceeds : (program a.op).Succeeds postgres
      (fun out _ => ∃ result, out = .saga result ∧ result.outcome = .applied)
      (World.performAll {} ops).db)
    (hperformed : ∀ result tx, result.outcome = .applied →
      Committed Alone AnyStep a.op (.saga result) tx (World.performAll {} ops).db →
      ∃ o' data expected r₀ r₁, a.orderId.column? = some o' ∧ data.status = some b ∧
        OrderCommit o' data expected r₀ r₁ tx (World.performAll {} ops).db) :
    MovesOn ops o row b := by
  rcases World.attempt_succeeds hsucceeds 0 with ⟨out, w', hrun, result, rfl, happlied⟩
  rcases World.attempt_committed hrun with ⟨tx, nextId, hcommitted, hw'⟩
  rcases hperformed result tx happlied hcommitted with
    ⟨o', data, expected, r₀, r₁, ho', hb, hcommit⟩
  obtain rfl : o = o' := by simpa [ho] using ho'
  obtain rfl : r₀ = row := Option.some.inj (hcommit.found.symm.trans hrow)
  have hperform : (World.performAll {} ops).perform 0 a.op = w' := World.perform_ok hrun
  rcases hcommit.after hb with ⟨hafter, hstatus, hversion, hcustomer⟩
  refine ⟨(0, a.op), r₁, ?_, hstatus, hversion, hcustomer, ?_⟩
  · rw [World.performAll_snoc, hperform, hw']
    exact hafter
  · -- a message does nothing to the customers
    rcases a.does ops 0 with ⟨d, hd⟩
    rw [World.performAll_snoc]
    exact congrFun (congrArg Picture.customers hd.picture)

/-- A reply that is due and not blocked takes the order on to the status it is for. -/
theorem reply_moves {type : SagaReplyType} {reaction : Reaction} {b : OSStatus}
    (hrow : (World.performAll {} ops).db.orders.find? o = some row)
    (hreaction : replyReaction type = some reaction) (hb : reaction.status = some b)
    (hdue : row.status ∈ ServiceOrderSaga.expectedStatus type)
    (hfree : ServiceOrderSaga.Unblocked type (World.performAll {} ops).db row) :
    MovesOn ops o row b := by
  rcases Table.exists_free (World.performAll {} ops).db.processed with ⟨m, hfresh⟩
  let reply : SagaReply := ⟨Uuid.text m, type, Uuid.text o, []⟩
  have htotal : ServiceOrderSaga.TotalFits reply := by
    intro htype
    rw [show type = .budgetGenerated from htype] at hreaction
    cases hreaction
    cases hb
  refine Incoming.moves ops (.reply reply none) rfl hrow ?_ ?_
  · have hhandle : (ServiceOrderSaga.handle reply none).Succeeds postgres
        (fun result _ => result.outcome = .applied) (World.performAll {} ops).db :=
      ServiceOrderSaga.handle_succeeds none (World.performAll_backed ops hrow) rfl rfl hfresh hdue
        hfree htotal
    exact hhandle.seq fun result _ happlied => ⟨result, rfl, happlied⟩
  · rintro result tx happlied ⟨res, hres, hprocessed⟩
    cases hres
    rw [happlied] at hprocessed
    cases hprocessed with
    | applied m' o' hm' hnew ho' hstatus heffect =>
        unfold ReplyApplied at heffect
        rw [show replyReaction reply.type = some reaction from hreaction] at heffect
        rcases heffect with ⟨data, r₀, r₁, hperformed, -⟩
        exact ⟨o', data, _, r₀, r₁, ho', hperformed.status.trans hb, hperformed.commit⟩

/-- A dead command that is due cancels the order. -/
theorem failedCommand_moves (type : SagaCommandType) {reaction : Reaction} {b : OSStatus}
    (hrow : (World.performAll {} ops).db.orders.find? o = some row)
    (hreaction : failedCommandReaction type = some reaction) (hb : reaction.status = some b)
    (hdue : (ServiceOrderSaga.failedCommand type).1.admits row.status = true)
    (hroom : (row.version : ℤ) < maxInteger) : MovesOn ops o row b := by
  rcases Table.exists_free (World.performAll {} ops).db.processed with ⟨m, hfresh⟩
  let command : FailedSagaCommand := ⟨Uuid.text m, type, Uuid.text o⟩
  refine Incoming.moves ops (.failedCommand command none) rfl hrow ?_ ?_
  · have hhandle : (ServiceOrderSaga.handleFailedCommand command none).Succeeds postgres
        (fun result _ => result.outcome = .applied) (World.performAll {} ops).db :=
      ServiceOrderSaga.handleFailedCommand_succeeds none (World.performAll_backed ops hrow) rfl rfl
        hfresh hdue hroom
    exact hhandle.seq fun result _ happlied => ⟨result, rfl, happlied⟩
  · rintro result tx happlied ⟨res, hres, hprocessed⟩
    cases hres
    rw [happlied] at hprocessed
    cases hprocessed with
    | applied m' o' hm' hnew ho' hstatus heffect =>
        unfold FailureApplied at heffect
        rw [show failedCommandReaction command.type = some reaction from hreaction] at heffect
        rcases heffect with ⟨data, r₀, r₁, hperformed, -⟩
        exact ⟨o', data, _, r₀, r₁, ho', hperformed.status.trans hb, hperformed.commit⟩

/-- A finished order is delivered by the staff. -/
theorem delivery_moves (hrow : (World.performAll {} ops).db.orders.find? o = some row)
    (hstatus : row.status = .finished) (hroom : (row.version : ℤ) < maxInteger) :
    CanBecome ops o (· = .delivered) := by
  have hsucceeds : (program (.deliverOS (Uuid.text o))).Succeeds postgres (fun _ _ => True)
      (World.performAll {} ops).db :=
    (DeliverOS.execute_succeeds hrow hroom hstatus).seq fun _ _ _ => trivial
  rcases World.attempt_succeeds hsucceeds 0 with ⟨out, w', hrun, -⟩
  rcases World.attempt_committed hrun with ⟨tx, nextId, hcommitted, hw'⟩
  rcases hcommitted with ⟨o', r₀, r₁, data, ho', hcommit, -, -, hb, -⟩
  obtain rfl : o = o' := by simpa using ho'
  obtain rfl : r₀ = row := Option.some.inj (hcommit.found.symm.trans hrow)
  rcases hcommit.after hb with ⟨hafter, hdelivered, -⟩
  have hrow' : (World.performAll {} (ops ++ [(0, .deliverOS (Uuid.text o))])).db.orders.find? o
      = some r₁ := by
    rw [World.performAll_snoc, World.perform_ok hrun, hw']
    exact hafter
  exact CanBecome.next _ (.now hrow' hdelivered)

/-! ## To the end -/

/-- The reply that takes an order on, when all goes well. -/
def nextReply : OSStatus → Option SagaReplyType
  | .received => some .diagnosisStarted
  | .diagnosis => some .diagnosisCompleted
  | .waitingApproval => some .budgetApproved
  | .approved => some .paymentConfirmed
  | .paid => some .repairStarted
  | .execution => some .repairCompleted
  | _ => none

/-- Before the end of the repair there is a next reply, and it leads one stage on. -/
theorem nextReply_leads {a : OSStatus} (h : a.stage < 6) : ∃ type reaction b,
    nextReply a = some type ∧ a ∈ ServiceOrderSaga.expectedStatus type ∧
    replyReaction type = some reaction ∧ reaction.status = some b ∧ b.stage = a.stage + 1 := by
  revert h
  cases a <;> simp [OSStatus.stage, nextReply, ServiceOrderSaga.expectedStatus, replyReaction]

/-- An order that was not compensated, and has a customer for its diagnosis, can be delivered. -/
theorem can_be_delivered (hrow : (World.performAll {} ops).db.orders.find? o = some row)
    (hstage : row.status.stage ≤ 7)
    (hroom : (row.version : ℤ) + (7 - row.status.stage) ≤ maxInteger)
    (hcustomer : row.status.stage ≤ 1 → ¬ CustomerLeft (World.performAll {} ops).db row.customerId) :
    CanBecome ops o (· = .delivered) := by
  generalize hleft : 7 - row.status.stage = left
  induction left generalizing ops row with
  | zero =>
      refine .now hrow ?_
      revert hstage hleft
      cases row.status <;> simp [OSStatus.stage]
  | succ left ih =>
      have hversion : (row.version : ℤ) < maxInteger := by omega
      by_cases hfinished : row.status.stage = 6
      · refine delivery_moves ops hrow ?_ hversion
        revert hfinished
        cases row.status <;> simp [OSStatus.stage]
      · have hbefore : row.status.stage < 6 := by omega
        rcases nextReply_leads hbefore with ⟨type, reaction, b, htype, hdue, hreaction, hb, hnext⟩
        have hfree : ServiceOrderSaga.Unblocked type (World.performAll {} ops).db row := by
          refine ⟨?_, fun _ => hversion⟩
          intro hcompleted c hc
          have hearly : row.status.stage ≤ 1 := by
            rw [hcompleted] at hdue
            rw [List.mem_singleton.mp hdue]
            decide
          by_contra hdeleted
          exact hcustomer hearly ⟨c, hc, hdeleted⟩
        rcases reply_moves ops hrow hreaction hb hdue hfree with
          ⟨op, row', hrow', hstatus', hversion', hsame, hcustomers⟩
        have hstage' : row'.status.stage = row.status.stage + 1 := by rw [hstatus', hnext]
        refine CanBecome.next op (ih _ hrow' (by omega) (by push_cast [hversion']; omega) ?_
          (by omega))
        rintro hearly ⟨c, hc, hdeleted⟩
        rw [hcustomers, hsame] at hc
        exact hcustomer (by omega) ⟨c, hc, hdeleted⟩

end Further

/-- The order is at an end: no transition leads on. -/
def OSStatus.final (status : OSStatus) : Prop := validTransitions status = []

/-- After any sequence of operations run one at a time, for every order whose
version has room for the rest of its life: it can still be delivered exactly if
it was not compensated and, up to its diagnosis, has a customer who was not
deleted; and it can still be brought to an end exactly if it is not in
diagnosis for a customer who was deleted. -/
theorem order_prospects (ops : List (ℕ × Op)) {o : Uuid} {row : OrderRow}
    (hrow : (World.performAll {} ops).db.orders.find? o = some row)
    (hroom : (row.version : ℤ) + 7 ≤ maxInteger) :
    (CanBecome ops o (· = .delivered) ↔ row.status ≠ .rejected ∧ row.status ≠ .cancelled ∧
      (row.status = .received ∨ row.status = .diagnosis →
        ¬ CustomerLeft (World.performAll {} ops).db row.customerId)) ∧
    (CanBecome ops o OSStatus.final ↔ ¬ (row.status = .diagnosis ∧
      CustomerLeft (World.performAll {} ops).db row.customerId)) := by
  have hdoomed : ∀ {S : List OSStatus}, row.status ∈ S →
      (.diagnosis ∈ S → CustomerLeft (World.performAll {} ops).db row.customerId) →
      Doomed S o (World.performAll {} ops).db := fun hin hleft => ⟨row, hrow, hin, hleft⟩
  have hdelivered : row.status ≠ .rejected → row.status ≠ .cancelled →
      (row.status = .received ∨ row.status = .diagnosis →
        ¬ CustomerLeft (World.performAll {} ops).db row.customerId) →
      CanBecome ops o (· = .delivered) := by
    intro hrejected hcancelled hcustomer
    have hstage : row.status.stage ≤ 7 := by
      revert hrejected hcancelled
      cases row.status <;> simp [OSStatus.stage]
    refine can_be_delivered ops hrow hstage (by omega) ?_
    intro hearly
    apply hcustomer
    revert hearly
    cases row.status <;> simp [OSStatus.stage]
  refine ⟨⟨?_, fun h => hdelivered h.1 h.2.1 h.2.2⟩, ?_, ?_⟩
  · intro hcan
    refine ⟨?_, ?_, ?_⟩
    · intro hstatus
      refine (hdoomed (S := [.rejected]) (by simp [hstatus]) (by simp)).not_become ?_ (by simp) hcan
      simp [Closed, validTransitions]
    · intro hstatus
      refine (hdoomed (S := [.cancelled]) (by simp [hstatus]) (by simp)).not_become ?_ (by simp) hcan
      simp [Closed, validTransitions]
    · intro hearly hleft
      -- from there a diagnosis or a cancellation is all that is left
      refine (hdoomed (S := [.received, .diagnosis, .cancelled]) ?_ fun _ => hleft).not_become ?_
        (by simp) hcan
      · rcases hearly with hstatus | hstatus <;> simp [hstatus]
      · simp [Closed, validTransitions]
  · rintro hcan ⟨hstatus, hleft⟩
    refine (hdoomed (S := [.diagnosis]) (by simp [hstatus]) fun _ => hleft).not_become ?_ ?_ hcan
    · simp [Closed]
    · simp [OSStatus.final, validTransitions]
  · intro hnot
    by_cases hfinal : row.status.final
    · exact .now hrow hfinal
    · by_cases hstays : row.status ≠ .received ∨
          ¬ CustomerLeft (World.performAll {} ops).db row.customerId
      · have hcan : CanBecome ops o (· = .delivered) := by
          refine hdelivered ?_ ?_ ?_
          · intro hstatus
            exact hfinal (by rw [hstatus]; rfl)
          · intro hstatus
            exact hfinal (by rw [hstatus]; rfl)
          · rintro (hstatus | hstatus) hleft
            · exact hstays.elim (fun hne => hne hstatus) fun hno => hno hleft
            · exact hnot ⟨hstatus, hleft⟩
        refine hcan.mono ?_
        rintro _ rfl
        rfl
      · -- without a customer, a dead command is the way out
        have hstatus : row.status = .received := by
          by_contra hne
          exact hstays (Or.inl hne)
        rcases failedCommand_moves ops .enqueueDiagnosis hrow rfl rfl
          (by rw [hstatus]; rfl) (by omega) with ⟨op, row', hrow', hstatus', -⟩
        exact CanBecome.next op (.now hrow' (by rw [hstatus']; rfl))

/-- The first order is in diagnosis: it can be delivered, until its customer is deleted. -/
theorem prospects_of_first_diagnosis :
    CanBecome firstDiagnosis 4 (· = .delivered) ∧
    ¬ CanBecome (firstDiagnosis ++ [(6, .deleteCustomer (Uuid.text 0))]) 4 OSStatus.final := by
  have hbefore : ∃ row ∈ (World.performAll {} firstDiagnosis).db.orders.find? 4,
      row.status = .diagnosis ∧ row.version = 1 ∧
      ((World.performAll {} firstDiagnosis).db.customers.find? row.customerId).map
        (fun c => c.deletedAt) = some none := by
    decide +kernel
  have hafter : ∃ row ∈ customerLeft.db.orders.find? 4, row.status = .diagnosis ∧ row.version = 1 ∧
      (customerLeft.db.customers.find? row.customerId).map (fun c => c.deletedAt) = some (some 6) := by
    decide +kernel
  constructor
  · rcases hbefore with ⟨row, hrow, hstatus, hversion, hcustomer⟩
    refine (order_prospects firstDiagnosis hrow (by rw [hversion]; decide)).1.mpr ⟨?_, ?_, ?_⟩
    · simp [hstatus]
    · simp [hstatus]
    · rintro - ⟨c, hc, hdeleted⟩
      simp [hc, hdeleted] at hcustomer
  · rcases hafter with ⟨row, hrow, hstatus, hversion, hcustomer⟩
    rw [(order_prospects _ hrow (by rw [hversion]; decide)).2, not_not]
    refine ⟨hstatus, ?_⟩
    rcases Option.map_eq_some_iff.mp hcustomer with ⟨c, hc, hdeleted⟩
    exact ⟨c, hc, by rw [hdeleted]; simp⟩

end CarRepairShop
