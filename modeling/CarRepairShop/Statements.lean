import CarRepairShop.OperationSpecs

/-! # What the units of work issue

What can be read off the statements a unit of work issues, whatever they answer
(`Prog.Issues`): the operations that are not about vehicles issue no statement on
vehicles, and store messages with the trace context they run in
(`program_spares`).
-/

namespace CarRepairShop

open Txn Prog

/-! ## What each operation issues -/

/-- The trace context of an operation that stores messages. -/
def Op.traceparent : Op → Option String
  | .createServiceOrder _ traceparent => traceparent
  | .handle _ traceparent => traceparent
  | .handleFailedCommand _ traceparent => traceparent
  | _ => none

/-- A message that the statement stores has this trace context. -/
def Stmt.carries (traceparent : Option String) : Stmt → Prop
  | .insertOutbox row => row.traceparent = traceparent
  | _ => True

/-- The statement is not about vehicles, and a message that it stores has this trace context. -/
def Stmt.spares (traceparent : Option String) : Stmt → Prop
  | .insertOutbox row => row.traceparent = traceparent
  | .findVehicle _ | .findVehicleByPlate _ | .insertVehicle .. | .updateVehicle ..
  | .deleteVehicle _ => False
  | _ => True

theorem Stmt.spares.carries {tp : Option String} {s : Stmt} (h : s.spares tp) : s.carries tp := by
  cases s with
  | insertOutbox row => exact h
  | _ => trivial

/-- A statement on another table than those two is of no concern here. -/
theorem Stmt.spares.of_table {tp : Option String} {s : Stmt} (hvehicles : s.table ≠ .vehicles)
    (houtbox : s.table ≠ .outbox) : s.spares tp := by
  cases s <;> trivial

/-! ### One statement on the row of a column -/

section Dispatch

variable {α : Type} {P : Stmt → Prop}

/-- A text that names no row needs no statement, one that names a row needs the one on it. -/
theorem issues_byColumn {id : IdText} {missing : α} {s : Uuid → Stmt}
    {k : ∀ key, (s key).Resp → Work α} (hs : ∀ key, P (s key))
    (hk : ∀ key r, (k key r).Issues P) :
    Issues P (match id.column? with
      | none => .pure missing
      | some key => sql (s key) >>= k key) := by
  cases id.column? with
  | none => trivial
  | some key => exact ⟨hs key, hk key⟩

/-- A search by id issues the search in its table, or nothing. -/
theorem ItemRepository.findById_issues (hP : ∀ key, P (.findItem key)) (id : IdText) :
    (findById id).Issues P :=
  issues_byColumn hP fun _ _ => trivial

theorem ServiceRepository.findById_issues (hP : ∀ key, P (.findService key)) (id : IdText) :
    (findById id).Issues P :=
  issues_byColumn hP fun _ _ => trivial

theorem CustomerRepository.findById_issues (hP : ∀ key, P (.findActiveCustomer key)) (id : IdText) :
    (findById id).Issues P :=
  issues_byColumn hP fun _ _ => trivial

/-- A move of units issues the one statement that moves them, or nothing. -/
theorem ItemRepository.reserve_issues {quantity : ℤ} (hP : ∀ key, P (.reserveItem key quantity))
    (id : IdText) : (reserve id quantity).Issues P :=
  issues_byColumn hP fun _ _ => trivial

theorem ItemRepository.release_issues {quantity : ℤ} (hP : ∀ key, P (.releaseItem key quantity))
    (id : IdText) : (release id quantity).Issues P :=
  issues_byColumn hP fun _ _ => trivial

theorem ItemRepository.consume_issues {quantity : ℤ} (hP : ∀ key, P (.consumeItem key quantity))
    (id : IdText) : (consume id quantity).Issues P :=
  issues_byColumn hP fun _ _ => trivial

end Dispatch

/-! ### The orders and the saga -/

section Spares

variable {tp : Option String}

/-- The relations of an order are its lines, which are in tables of their own. -/
theorem ServiceOrderRepository.includeRelations_spares (row : OrderColumns) :
    (includeRelations row).Issues (Stmt.spares tp) :=
  ⟨trivial, fun _ => ⟨trivial, fun _ => trivial⟩⟩

theorem ServiceOrderRepository.findById_spares (id : IdText) :
    (findById id).Issues (Stmt.spares tp) := by
  unfold findById
  cases id.column? with
  | none => trivial
  | some key =>
      refine ⟨trivial, fun found => ?_⟩
      cases found with
      | none => trivial
      | some row => exact (includeRelations_spares row).bind fun _ => trivial

/-- Opening an order names its vehicle by key, without a statement on vehicles. -/
theorem ServiceOrderRepository.create_spares (data : NewServiceOrder) :
    (create data).Issues (Stmt.spares tp) := by
  intro id createdAt
  refine ⟨trivial, fun row => ⟨trivial, fun _ => ⟨trivial, fun _ => ?_⟩⟩⟩
  exact (includeRelations_spares row).bind fun _ _ => ⟨trivial, fun _ => trivial⟩

/-- An update of an order stays in the tables of orders, lines and history. -/
theorem ServiceOrderRepository.update_spares (id : IdText) (data : ServiceOrderChanges)
    (expected : Option ℕ) : (update id data expected).Issues (Stmt.spares tp) := by
  unfold update
  cases id.column? with
  | none => trivial
  | some key =>
      refine ⟨trivial, fun claimed => ?_⟩
      change Issues _ (if claimed = 0 then _ else _)
      -- nobody claimed: the order is looked up to tell a conflict from its absence
      split
      · refine ⟨trivial, fun existing => ?_⟩
        change Issues _ (if existing = 0 then _ else _)
        split <;> trivial
      · refine ⟨trivial, fun previous => ?_⟩
        change Issues _ (replaceServices key data.services >>= _)
        refine Issues.bind ?_ fun _ => Issues.bind ?_ fun _ => ⟨trivial, fun row =>
          (includeRelations_spares row).bind fun order => Issues.bind ?_ fun _ => trivial⟩
        · cases data.services with
          | none => trivial
          | some services => exact ⟨trivial, fun _ => ⟨trivial, fun _ => trivial⟩⟩
        · cases data.items with
          | none => trivial
          | some items => exact ⟨trivial, fun _ => ⟨trivial, fun _ => trivial⟩⟩
        · unfold recordChange
          cases data.status with
          | none => trivial
          | some status =>
              dsimp only
              split
              · trivial
              · exact fun changedAt => ⟨trivial, fun _ => trivial⟩

/-- The row stored has the trace context that `add` was given. -/
theorem Outbox.add_spares (message : OutgoingMessage) :
    (Outbox.add tp message).Issues (Stmt.spares tp) := by
  unfold Outbox.add
  cases message.serviceOrderId.stored? with
  | none => trivial
  | some key => exact fun id createdAt => ⟨rfl, fun _ => trivial⟩

theorem ofExcept_spares {α : Type} (e : Except Failure α) :
    (ofExcept e).Issues (Stmt.spares tp) := by
  cases e <;> trivial

/-- The message of an opening is stored with the trace context of the request. -/
theorem CreateServiceOrder.execute_spares (input : CreateServiceOrderInput) :
    (execute input tp).Issues (Stmt.spares tp) := by
  refine Issues.bind (Issues.each ?_ _) fun services => Issues.bind (Issues.each ?_ _)
    fun reservedItems => (ServiceOrderRepository.create_spares _).bind fun order =>
      (Outbox.add_spares _).bind fun _ => trivial
  · intro serviceId
    refine (ServiceRepository.findById_issues (fun _ => trivial) serviceId).bind fun service => ?_
    cases service <;> trivial
  · intro line
    refine (ItemRepository.findById_issues (fun _ => trivial) line.itemId).bind fun item => ?_
    cases item with
    | none => trivial
    | some item =>
        refine (ItemRepository.reserve_issues (fun _ => trivial) line.itemId).bind fun reserved => ?_
        cases reserved <;> trivial

namespace ServiceOrderSaga

theorem save_spares (order : ServiceOrder) (changes : ServiceOrderChanges) :
    (save order changes).Issues (Stmt.spares tp) := by
  refine (ServiceOrderRepository.update_spares _ _ _).bind fun updated => ?_
  cases updated <;> trivial

theorem moveTo_spares (order : ServiceOrder) (status : OSStatus) (changes : ServiceOrderChanges) :
    (moveTo order status changes).Issues (Stmt.spares tp) :=
  (ofExcept_spares _).bind fun _ => save_spares order _

/-- The items of an order are released, and nothing else is. -/
theorem releaseReservations_spares (order : ServiceOrder) :
    (releaseReservations order).Issues (Stmt.spares tp) := by
  refine Issues.bind (Issues.each ?_ _) fun _ => trivial
  intro line
  refine (ItemRepository.release_issues (fun _ => trivial) line.itemId).bind fun released => ?_
  cases released <;> trivial

/-- The budget command is built from orders, customers, services and items. -/
theorem budgetCommandFor_spares (order : ServiceOrder) :
    (budgetCommandFor order).Issues (Stmt.spares tp) := by
  refine (CustomerRepository.findById_issues (fun _ => trivial) order.customerId).bind
    fun customer => ?_
  cases customer with
  | none => trivial
  | some customer =>
      have hservice : ∀ s : OSService,
          (ServiceRepository.findById s.serviceId).Issues (Stmt.spares tp) :=
        fun s => ServiceRepository.findById_issues (fun _ => trivial) s.serviceId
      have hitem : ∀ i : OSItem, (ItemRepository.findById i.itemId).Issues (Stmt.spares tp) :=
        fun i => ItemRepository.findById_issues (fun _ => trivial) i.itemId
      exact Issues.bind (Issues.each hservice _) fun _ => Issues.bind (Issues.each hitem _)
          fun _ => (ofExcept_spares _).bind fun _ => trivial

theorem repairCommandFor_spares (order : ServiceOrder) :
    (repairCommandFor order).Issues (Stmt.spares tp) := by
  refine Issues.bind (Issues.each ?_ _) fun _ => trivial
  intro line
  refine (ServiceRepository.findById_issues (fun _ => trivial) line.serviceId).bind fun service => ?_
  cases service <;> trivial

/-- A cancellation is stored with the trace context of the message it answers. -/
theorem cancelStep_spares (order : ServiceOrder) (cancel : List CancelTarget)
    (target : CancelTarget) : (cancelStep tp order cancel target).Issues (Stmt.spares tp) := by
  unfold cancelStep
  split
  · cases target with
    | execution => exact Outbox.add_spares _
    | budget => exact Outbox.add_spares _
  · trivial

/-- What a reply does, type by type: each command it sends has its trace context. -/
theorem apply_spares (order : ServiceOrder) (reply : SagaReply) :
    (apply tp order reply).Issues (Stmt.spares tp) := by
  unfold apply
  cases reply.type with
  | diagnosisStarted => exact moveTo_spares order _ _
  | diagnosisCompleted =>
      exact (budgetCommandFor_spares order).bind fun _ => (moveTo_spares order _ _).bind fun _ =>
        (Outbox.add_spares _).bind fun _ => trivial
  | budgetGenerated =>
      dsimp only
      unfold budgetGenerated
      split
      · exact save_spares order _
      · trivial
  | budgetApproved =>
      exact (moveTo_spares order _ _).bind fun _ => (Outbox.add_spares _).bind fun _ => trivial
  | budgetRejected =>
      exact (releaseReservations_spares order).bind fun _ => (moveTo_spares order _ _).bind
        fun _ => (Outbox.add_spares _).bind fun _ => trivial
  | paymentConfirmed =>
      refine Issues.bind (Issues.each ?_ _) fun _ => (repairCommandFor_spares order).bind fun _ =>
        (moveTo_spares order _ _).bind fun _ => (Outbox.add_spares _).bind fun _ => trivial
      intro line
      refine (ItemRepository.consume_issues (fun _ => trivial) line.itemId).bind fun consumed => ?_
      cases consumed <;> trivial
  | paymentFailed =>
      exact (releaseReservations_spares order).bind fun _ => (moveTo_spares order _ _).bind
        fun _ => (Outbox.add_spares _).bind fun _ => (Outbox.add_spares _).bind fun _ => trivial
  | repairStarted => exact fun startedAt => moveTo_spares order _ _
  | repairCompleted => exact fun finishedAt => moveTo_spares order _ _
  | executionCancelled => trivial
  | budgetCancelled => trivial

/-- A message is recorded and its order looked up, and the rest is its effect. -/
theorem process_spares {message : SagaMessage} {expected : Expected}
    {effect : ServiceOrder → Work Effect} (h : ∀ order, (effect order).Issues (Stmt.spares tp)) :
    (process message expected effect).Issues (Stmt.spares tp) := by
  intro processedAt
  refine ⟨trivial, fun count => ?_⟩
  change Issues _ (if !decide (count = 1) then _ else _)
  -- a message that was handled before ends here
  split
  · trivial
  · refine (ServiceOrderRepository.findById_spares _).bind fun found => ?_
    cases found with
    | none => trivial
    | some order =>
        dsimp only
        split
        · trivial
        · exact (h order).bind fun _ => trivial

theorem handle_spares (reply : SagaReply) : (handle reply tp).Issues (Stmt.spares tp) :=
  process_spares fun order => (apply_spares order reply).bind fun _ => trivial

/-- So it is for a dead command, whose effect compensates or only logs. -/
theorem handleFailedCommand_spares (command : FailedSagaCommand) :
    (handleFailedCommand command tp).Issues (Stmt.spares tp) := by
  refine process_spares fun order => ?_
  unfold failedCommandEffect
  split
  · trivial
  · refine Issues.bind ?_ fun _ => trivial
    exact (releaseReservations_spares order).bind fun _ => (moveTo_spares order _ _).bind
      fun _ => (cancelStep_spares order _ _).bind fun _ => (cancelStep_spares order _ _).bind
        fun _ => trivial

end ServiceOrderSaga

/-! ### Line editors and delivery -/

theorem findOSOrThrow_spares (osId : IdText) : (findOSOrThrow osId).Issues (Stmt.spares tp) := by
  refine (ServiceOrderRepository.findById_spares osId).bind fun os => ?_
  cases os <;> trivial

/-- The editors of an order go through items, services and orders only. -/
theorem AddItemToOS.execute_spares (osId itemId : IdText) (quantity : ℤ) :
    (execute osId itemId quantity).Issues (Stmt.spares tp) := by
  refine (findOSOrThrow_spares osId).bind fun os => ?_
  split
  · trivial
  · refine (ItemRepository.findById_issues (fun _ => trivial) itemId).bind fun item => ?_
    cases item with
    | none => trivial
    | some item =>
        refine (ItemRepository.reserve_issues (fun _ => trivial) itemId).bind fun reserved => ?_
        cases reserved with
        | false => trivial
        | true => exact ServiceOrderRepository.update_spares _ _ _

/-- An item is looked up and then written. -/
theorem ItemRepository.update_spares (id : IdText) (data : ItemPatch) :
    (update id data).Issues (Stmt.spares tp) := by
  unfold update
  cases id.column? with
  | none => trivial
  | some key =>
      refine ⟨trivial, fun existing => ?_⟩
      cases existing with
      | none => trivial
      | some row => exact ⟨trivial, fun _ => trivial⟩

theorem RemoveItemFromOS.execute_spares (osId itemId : IdText) :
    (execute osId itemId).Issues (Stmt.spares tp) := by
  refine (findOSOrThrow_spares osId).bind fun os => ?_
  split
  · trivial
  · split
    · trivial
    · refine (ItemRepository.findById_issues (fun _ => trivial) itemId).bind fun item => ?_
      cases item with
      | none => exact ServiceOrderRepository.update_spares _ _ _
      | some item =>
          exact (ItemRepository.update_spares itemId _).bind fun _ =>
            ServiceOrderRepository.update_spares _ _ _

theorem AddServiceToOS.execute_spares (osId serviceId : IdText) :
    (execute osId serviceId).Issues (Stmt.spares tp) := by
  refine (findOSOrThrow_spares osId).bind fun os => ?_
  split
  · trivial
  · refine (ServiceRepository.findById_issues (fun _ => trivial) serviceId).bind fun service => ?_
    cases service with
    | none => trivial
    | some service =>
        dsimp only
        split
        · trivial
        · exact ServiceOrderRepository.update_spares _ _ _

theorem RemoveServiceFromOS.execute_spares (osId serviceId : IdText) :
    (execute osId serviceId).Issues (Stmt.spares tp) := by
  refine (findOSOrThrow_spares osId).bind fun os => ?_
  split
  · trivial
  · split
    · exact ServiceOrderRepository.update_spares _ _ _
    · trivial

theorem DeliverOS.execute_spares (osId : IdText) : (execute osId).Issues (Stmt.spares tp) :=
  (findOSOrThrow_spares osId).bind fun _ => (ofExcept_spares _).bind fun _ _ =>
    ServiceOrderRepository.update_spares _ _ _

/-! ### The catalogue and the customers -/

/-- The catalogue: each operation on an item or a service stays in its table. -/
theorem CreateItem.execute_spares (name : String) (price : ℚ) (stockQuantity : ℤ) :
    (execute name price stockQuantity).Issues (Stmt.spares tp) := by
  unfold execute
  split
  · trivial
  · split
    · trivial
    · exact fun id => ⟨trivial, fun _ => trivial⟩

theorem UpdateItem.execute_spares (id : IdText) (data : UpdateItemInput) :
    (execute id data).Issues (Stmt.spares tp) := by
  unfold execute
  split
  · trivial
  · split
    · trivial
    · refine (ItemRepository.update_spares id _).bind fun updated => ?_
      cases updated <;> trivial

theorem DeleteItem.execute_spares (id : IdText) : (execute id).Issues (Stmt.spares tp) := by
  refine (ItemRepository.findById_issues (fun _ => trivial) id).bind fun item => ?_
  cases item with
  | none => trivial
  | some item =>
      dsimp only
      split
      · trivial
      · refine Issues.bind ?_ fun _ => trivial
        unfold ItemRepository.delete
        cases id.column? with
        | none => trivial
        | some key =>
            refine ⟨trivial, fun existing => ?_⟩
            cases existing with
            | none => trivial
            | some row => exact ⟨trivial, fun _ => trivial⟩

theorem DeleteService.execute_spares (id : IdText) : (execute id).Issues (Stmt.spares tp) := by
  refine Issues.bind ?_ fun deleted => ?_
  · unfold ServiceRepository.delete
    cases id.column? with
    | none => trivial
    | some key =>
        refine ⟨trivial, fun existing => ?_⟩
        cases existing with
        | none => trivial
        | some row => exact ⟨trivial, fun _ => trivial⟩
  · cases deleted <;> trivial

/-! ### Every operation -/

/-- A call on the vehicles of the registry. -/
def Op.onVehicles : Op → Bool
  | .createVehicle _ | .updateVehicle .. | .deleteVehicle _ => true
  | _ => false

/-- Every other operation spares the vehicles and carries the trace context it runs in. -/
theorem program_spares {op : Op} (hop : op.onVehicles = false) :
    (program op).Issues (Stmt.spares op.traceparent) := by
  have hcustomers : ∀ s : Stmt, s.table = .customers → s.spares none := by
    intro s hs
    exact .of_table (by simp [hs]) (by simp [hs])
  have hservices : ∀ s : Stmt, s.table = .services ∧ s.registry = true → s.spares none := by
    intro s hs
    exact .of_table (by simp [hs.1]) (by simp [hs.1])
  -- each operation returns what its use case does, so only the use case counts
  cases op with
  | createServiceOrder input traceparent =>
      exact (CreateServiceOrder.execute_spares input).bind fun _ => trivial
  | addItemToOS osId itemId quantity =>
      exact (AddItemToOS.execute_spares osId itemId quantity).bind fun _ => trivial
  | removeItemFromOS osId itemId =>
      exact (RemoveItemFromOS.execute_spares osId itemId).bind fun _ => trivial
  | addServiceToOS osId serviceId =>
      exact (AddServiceToOS.execute_spares osId serviceId).bind fun _ => trivial
  | removeServiceFromOS osId serviceId =>
      exact (RemoveServiceFromOS.execute_spares osId serviceId).bind fun _ => trivial
  | deliverOS osId => exact (DeliverOS.execute_spares osId).bind fun _ => trivial
  | handle reply traceparent =>
      exact (ServiceOrderSaga.handle_spares reply).bind fun _ => trivial
  | handleFailedCommand command traceparent =>
      exact (ServiceOrderSaga.handleFailedCommand_spares command).bind fun _ => trivial
  | createItem name price stockQuantity =>
      exact (CreateItem.execute_spares name price stockQuantity).bind fun _ => trivial
  | updateItem id data => exact (UpdateItem.execute_spares id data).bind fun _ => trivial
  | deleteItem id => exact (DeleteItem.execute_spares id).bind fun _ => trivial
  | createService name price estimatedMinutes =>
      exact ((CreateService.execute_issues name price estimatedMinutes).mono hservices).bind
        fun _ => trivial
  | updateService id data =>
      exact ((UpdateService.execute_issues id data).mono hservices).bind fun _ => trivial
  | deleteService id => exact (DeleteService.execute_spares id).bind fun _ => trivial
  | createCustomer input =>
      exact ((CreateCustomer.execute_issues input).mono hcustomers).bind fun _ => trivial
  | updateCustomer id data =>
      exact ((UpdateCustomer.execute_issues id data).mono hcustomers).bind fun _ => trivial
  | deleteCustomer id =>
      exact ((DeleteCustomer.execute_issues id).mono hcustomers).bind fun _ => trivial
  | createVehicle _ | updateVehicle _ _ | deleteVehicle _ => cases hop

end Spares

/-! ## Reads -/

/-- The statements that write nothing. -/
def Stmt.reads : Stmt → Bool
  | .findOrder _ | .findServiceLines _ | .findItemLines _ | .countOrders _
  | .findStatusOrThrow _ | .findItem _ | .findService _ | .findActiveCustomer _
  | .findActiveCustomerByTaxId _ | .findVehicle _ | .findVehicleByPlate _ => true
  | _ => false

/-- The item whose units a statement moves. -/
def Stmt.movesItem : Stmt → Option Uuid
  | .reserveItem id _ | .releaseItem id _ | .consumeItem id _ => some id
  | _ => none

/-- A statement that reads makes no write, whatever it is answered. -/
theorem exec_reads {s : Stmt} {v : Db} {r : s.Resp} {ws : List Write} (hs : s.reads = true)
    (h : exec s v = .ok (r, ws)) : ws = [] := by
  cases s with
  | findStatusOrThrow id =>
      simp only [exec] at h
      split at h
      · cases h
      · cases h
        rfl
  | findActiveCustomerByTaxId _ | findVehicleByPlate _ =>
      simp only [exec] at h
      split at h
      · cases h
        rfl
      · cases h
  | findOrder _ | findServiceLines _ | findItemLines _ | countOrders _ | findItem _ | findService _
  | findActiveCustomer _ | findVehicle _ =>
      cases h
      rfl
  | _ => cases hs

/-- Writes of item `i`. -/
def IsItem (i : Uuid) (w : Write) : Prop := ∃ row hc, w = .putItem row hc ∧ row.id = i

/-- A statement that moves the units of an item writes the row of that item only. -/
theorem exec_movesItem {s : Stmt} {v : Db} {i : Uuid} (hs : s.movesItem = some i) :
    WritesOnly (IsItem i) (exec s v) := by
  have hif : ∀ {quantity : ℤ} {cond : ItemRow → Bool} {f : ItemRow → ItemRow},
      (∀ row, (f row).id = row.id) →
      WritesOnly (IsItem i) (changeItemIf v i quantity cond f) := by
    intro quantity cond f hf n ws h
    rcases changeItemIf_ok h with ⟨-, rfl⟩ | ⟨-, row, hc, hrow, -, rfl⟩
    · intro w hw
      cases hw
    · refine List.forall_mem_singleton.mpr ⟨f row, hc, rfl, ?_⟩
      rw [hf, item_id hrow]
  cases s with
  | reserveItem _ _ | releaseItem _ _ | consumeItem _ _ =>
      cases hs
      exact hif fun _ => rfl
  | _ => cases hs

/-- The order a statement locks first. -/
def Stmt.takesOrder : Stmt → Option Uuid
  | .claimVersion id _ | .insertOrder id .. => some id
  | _ => none

/-- The order a statement writes once more. -/
def Stmt.rewritesOrder : Stmt → Option Uuid
  | .deleteServiceLines o | .createServiceLines o _ | .deleteItemLines o | .createItemLines o _
  | .updateOrder o _ | .insertHistory o _ => some o
  | _ => none

/-- Writes of order `o`. -/
def IsOrder (o : Uuid) (w : Write) : Prop := ∃ row hc, w = .putOrder row hc ∧ row.id = o

theorem storeOrder_writes {α : Type} {o : Uuid} {row : OrderRow} {a : α} (hid : row.id = o) :
    WritesOnly (IsOrder o) ((storeOrder row).map (a, ·)) :=
  .order fun hc => ⟨row, hc, rfl, hid⟩

/-- A change of order `o` that keeps its id writes the row of `o` only. -/
theorem changeOrder_writes {α : Type} {v : Db} {o : Uuid} {missing : Except Failure (α × List Write)}
    {f : OrderRow → Except Failure (α × OrderRow)} (hmissing : WritesOnly (IsOrder o) missing)
    (hf : ∀ row a row', f row = .ok (a, row') → row'.id = row.id) :
    WritesOnly (IsOrder o) (changeOrder v o missing f) := by
  intro a ws h
  cases hrow : v.orders.find? o with
  | none =>
      rw [changeOrder, hrow] at h
      exact hmissing a ws h
  | some row =>
      rcases changeOrder_ok h hrow with ⟨row', hc, hrow', rfl⟩
      refine List.forall_mem_singleton.mpr ⟨row', hc, rfl, ?_⟩
      rw [hf row a row' hrow', order_id hrow]

/-- A statement that writes an order held already writes that order only. -/
theorem exec_rewritesOrder {s : Stmt} {v : Db} {o : Uuid} (hs : s.rewritesOrder = some o) :
    WritesOnly (IsOrder o) (exec s v) := by
  cases s with
  | deleteServiceLines _ | deleteItemLines _ =>
      cases hs
      refine changeOrder_writes (.answer ()) fun row a row' h => ?_
      cases h
      rfl
  | createServiceLines _ _ | createItemLines _ _ =>
      cases hs
      refine changeOrder_writes (.refused _) fun row a row' h => ?_
      rcases bind_ok h with ⟨new, -, heq⟩
      cases heq
      rfl
  | updateOrder _ _ | insertHistory _ _ =>
      cases hs
      refine changeOrder_writes (.refused _) fun row a row' h => ?_
      cases h
      rfl
  | _ => cases hs

/-- So does one that takes the order: the claim of its version, and its insertion. -/
theorem exec_takesOrder {s : Stmt} {v : Db} {o : Uuid} (hs : s.takesOrder = some o) :
    WritesOnly (IsOrder o) (exec s v) := by
  cases s with
  | claimVersion id expectedVersion =>
      cases hs
      simp only [exec]
      split
      · exact .answer _
      · next row hrow =>
        split
        · have hid : row.id = o := order_id hrow
          exact storeOrder_writes hid
        · exact .answer _
  | insertOrder id customerId vehicleId status budgetTotal createdAt =>
      cases hs
      simp only [exec]
      split
      · split
        · exact .refused _
        · split
          · exact .refused _
          · exact storeOrder_writes rfl
      · exact .refused _
  | _ => cases hs

section Reads

variable {α : Type}

theorem ServiceOrderRepository.includeRelations_reads (row : OrderColumns) :
    (includeRelations row).Issues fun s => s.reads = true :=
  ⟨rfl, fun _ => ⟨rfl, fun _ => trivial⟩⟩

/-- Looking an order up, with its relations, only reads. -/
theorem ServiceOrderRepository.findById_reads (id : IdText) :
    (findById id).Issues fun s => s.reads = true := by
  unfold findById
  cases id.column? with
  | none => trivial
  | some key =>
      refine ⟨rfl, fun found => ?_⟩
      cases found with
      | none => trivial
      | some row => exact (includeRelations_reads row).bind fun _ => trivial

/-- So does the lookup with which every editor begins. -/
theorem findOSOrThrow_reads (osId : IdText) :
    (findOSOrThrow osId).Issues fun s => s.reads = true := by
  refine (ServiceOrderRepository.findById_reads osId).bind fun os => ?_
  cases os <;> trivial

theorem ofExcept_reads (e : Except Failure α) :
    (ofExcept e).Issues fun s => s.reads = true := by
  cases e <;> trivial

namespace ServiceOrderSaga

/-- The commands to the other services are put together from what is read. -/
theorem budgetCommandFor_reads (order : ServiceOrder) :
    (budgetCommandFor order).Issues fun s => s.reads = true := by
  refine (CustomerRepository.findById_issues (fun _ => rfl) order.customerId).bind fun customer => ?_
  cases customer with
  | none => trivial
  | some customer =>
      have hservice : ∀ s : OSService, (ServiceRepository.findById s.serviceId).Issues
          fun s => s.reads = true :=
        fun s => ServiceRepository.findById_issues (fun _ => rfl) s.serviceId
      have hitem : ∀ i : OSItem, (ItemRepository.findById i.itemId).Issues
          fun s => s.reads = true :=
        fun i => ItemRepository.findById_issues (fun _ => rfl) i.itemId
      exact Issues.bind (Issues.each hservice _) fun _ => Issues.bind (Issues.each hitem _)
          fun _ => (ofExcept_reads _).bind fun _ => trivial

theorem repairCommandFor_reads (order : ServiceOrder) :
    (repairCommandFor order).Issues fun s => s.reads = true := by
  refine Issues.bind (Issues.each ?_ _) fun _ => trivial
  intro line
  refine (ServiceRepository.findById_issues (fun _ => rfl) line.serviceId).bind fun service => ?_
  cases service <;> trivial

end ServiceOrderSaga

end Reads

end CarRepairShop
