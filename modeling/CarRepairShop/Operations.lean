import CarRepairShop.Lib.ReadCommitted
import CarRepairShop.Saga

/-! # The operations of the service and their runs

Everything that writes the tables, as one type of operations, and the two ways
of running them: one unit of work at a time (`World.performAll`) and
interleaved statement by statement under READ COMMITTED (`ShopSys`).
-/

namespace CarRepairShop

open Txn Prog

/-- An operation with its arguments. The ones that store messages carry the
trace context they run in. -/
inductive Op where
  | createServiceOrder (input : CreateServiceOrderInput) (traceparent : Option String)
  | addItemToOS (osId itemId : IdText) (quantity : ℤ)
  | removeItemFromOS (osId itemId : IdText)
  | addServiceToOS (osId serviceId : IdText)
  | removeServiceFromOS (osId serviceId : IdText)
  | deliverOS (osId : IdText)
  | handle (reply : SagaReply) (traceparent : Option String)
  | handleFailedCommand (command : FailedSagaCommand) (traceparent : Option String)
  | createItem (name : String) (price : ℚ) (stockQuantity : ℤ)
  | updateItem (id : IdText) (data : UpdateItemInput)
  | deleteItem (id : IdText)
  | createService (name : String) (price : ℚ) (estimatedMinutes : ℤ)
  | updateService (id : IdText) (data : ServicePatch)
  | deleteService (id : IdText)
  | createCustomer (input : CreateCustomerInput)
  | updateCustomer (id : IdText) (data : CustomerPatch)
  | deleteCustomer (id : IdText)
  | createVehicle (input : CreateVehicleInput)
  | updateVehicle (id : IdText) (data : VehiclePatch)
  | deleteVehicle (id : IdText)
deriving Repr

/-- What an operation returns. -/
inductive Outcome where
  | order (order : Option ServiceOrder)
  | saga (result : SagaReplyResult)
  | item (item : Item)
  | available (item : ItemWithAvailable)
  | service (service : Service)
  | customer (customer : Customer)
  | vehicle (vehicle : Vehicle)
  | done
deriving DecidableEq, Repr

/-- Applies a constructor of `Outcome` to what a unit of work returns. -/
def returning {α : Type} (p : Work α) (f : α → Outcome) : Work Outcome := do
  let a ← p
  .pure (f a)

/-- The unit of work of each operation. -/
def program : Op → Work Outcome
  | .createServiceOrder input traceparent =>
      returning (CreateServiceOrder.execute input traceparent) fun order => .order (some order)
  | .addItemToOS osId itemId quantity =>
      returning (AddItemToOS.execute osId itemId quantity) .order
  | .removeItemFromOS osId itemId => returning (RemoveItemFromOS.execute osId itemId) .order
  | .addServiceToOS osId serviceId => returning (AddServiceToOS.execute osId serviceId) .order
  | .removeServiceFromOS osId serviceId =>
      returning (RemoveServiceFromOS.execute osId serviceId) .order
  | .deliverOS osId => returning (DeliverOS.execute osId) .order
  | .handle reply traceparent => returning (ServiceOrderSaga.handle reply traceparent) .saga
  | .handleFailedCommand command traceparent =>
      returning (ServiceOrderSaga.handleFailedCommand command traceparent) .saga
  | .createItem name price stockQuantity =>
      returning (CreateItem.execute name price stockQuantity) .item
  | .updateItem id data => returning (UpdateItem.execute id data) .available
  | .deleteItem id => returning (DeleteItem.execute id) fun _ => .done
  | .createService name price estimatedMinutes =>
      returning (CreateService.execute name price estimatedMinutes) .service
  | .updateService id data => returning (UpdateService.execute id data) .service
  | .deleteService id => returning (DeleteService.execute id) fun _ => .done
  | .createCustomer input => returning (CreateCustomer.execute input) .customer
  | .updateCustomer id data => returning (UpdateCustomer.execute id data) .customer
  | .deleteCustomer id => returning (DeleteCustomer.execute id) fun _ => .done
  | .createVehicle input => returning (CreateVehicle.execute input) .vehicle
  | .updateVehicle id data => returning (UpdateVehicle.execute id data) .vehicle
  | .deleteVehicle id => returning (DeleteVehicle.execute id) fun _ => .done

/-! ## One unit of work at a time -/

/-- The committed tables, and the first identifier not drawn yet. -/
structure World where
  db : Db := {}
  nextId : ℕ := 0

/-- Runs one unit of work alone, at time `now`. -/
def World.attempt {α : Type} (w : World) (now : ℕ) (p : Work α) :
    Except Failure (α × World) :=
  match p.run postgres now w.db w.nextId {} with
  | .ok fin => .ok (fin.value, ⟨postgres.applyAll w.db fin.tx.writes, fin.nextId⟩)
  | .error failure => .error failure

/-- One operation; one that throws is rolled back. -/
def World.perform (w : World) (now : ℕ) (op : Op) : World :=
  match w.attempt now (program op) with
  | .ok (_, w') => w'
  | .error _ => w

/-- Operations in order, each with the time it runs at. -/
def World.performAll (w : World) (ops : List (ℕ × Op)) : World :=
  ops.foldl (fun w op => w.perform op.1 op.2) w

/-! ## Interleaved -/

/-- The service on any number of replicas, at statement granularity. -/
abbrev ShopSys := Sys Db Stmt Stmt.Resp Write Failure Op Outcome

/-- A commit of the service. -/
abbrev ShopCommit := Commit Db Stmt Stmt.Resp Write Op Outcome

/-- A restriction of the runs of the service. -/
abbrev ShopGuard := Guard Db Stmt Stmt.Resp Write Op

/-- The service before any operation, on the tables `db`. -/
def ShopSys.start (db : Db := {}) (nextId : ℕ := 0) : ShopSys := { db, nextId }

/-- The states of the service that the runs under a guard reach. -/
abbrev ShopReachable (G : ShopGuard) (init : ShopSys) : ShopSys → Prop :=
  Reachable postgres program G init

/-- A first order: its customer is row 0, its vehicle 1, its item 2 with two of
ten units, its service 3, and the order itself 4. -/
def openingMoves : List (Label Op) :=
  Label.session 0 (.createCustomer ⟨"Ana", "529.982.247-25", .cpf, "ana@mail", "11987654321"⟩) 5 ++
  Label.session 1 (.createVehicle ⟨Uuid.text 0, "ABC-1234", "VW", "Gol", 2020⟩) 4 ++
  Label.session 2 (.createItem "Oil" 30 10) 3 ++
  Label.session 3 (.createService "Oil change" 80 30) 3 ++
  Label.session 4 (.createServiceOrder
    ⟨Uuid.text 0, Uuid.text 1, [Uuid.text 3], [⟨Uuid.text 2, 2⟩]⟩ none) 16

/-- A reply about that order, with message id `m`, in session `i`. -/
def replyMoves (i : ℕ) (m : Uuid) (type : SagaReplyType) (payload : List (String × Json)) (n : ℕ) :
    List (Label Op) :=
  Label.session i (.handle ⟨Uuid.text m, type, Uuid.text 4, payload⟩ none) n

end CarRepairShop
