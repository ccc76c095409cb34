import CarRepairShop.Schema

/-! # Repositories

The gateways (`adapters/gateways/Postgres*Repository.ts`, `PrismaOutbox.ts`,
`PrismaProcessedMessages.ts`): each function is the sequence of statements it
sends. A transaction that a repository opens for itself
(`withTransaction`) is the unit of work it runs in here; a read made outside
any transaction sees what the same read sees inside one that has not written
yet, so it is not told apart.
-/

namespace CarRepairShop

open Txn Prog

/-! ## Service orders -/

/-- `toEntity` of `PostgresServiceOrderRepository`. -/
def OrderColumns.toEntity (row : OrderColumns) (services : List Uuid) (items : List ItemLine) :
    ServiceOrder where
  id := row.id.text
  customerId := row.customerId.text
  vehicleId := row.vehicleId.text
  status := row.status
  budgetTotal := row.budgetTotal
  services := services.map fun id => ⟨id.text⟩
  items := items.map fun line => ⟨line.itemId.text, line.quantity⟩
  createdAt := row.createdAt
  startedAt := row.startedAt
  finishedAt := row.finishedAt
  deliveredAt := row.deliveredAt
  version := row.version

/-- The data `serviceOrders.create` is given. -/
structure NewServiceOrder where
  customerId : IdText
  vehicleId : IdText
  status : OSStatus
  budgetTotal : Option ℚ := none
  services : List OSService
  items : List OSItem
deriving DecidableEq, Repr

/-- The data `serviceOrders.update` is given: the scalar columns, and the
lines to put in place of those stored. -/
structure ServiceOrderChanges extends OrderScalar where
  services : Option (List OSService) := none
  items : Option (List OSItem) := none
deriving DecidableEq, Repr

namespace ServiceOrderRepository

/-- `INCLUDE_RELATIONS`: the lines are read by statements of their own, after
the row. -/
def includeRelations (row : OrderColumns) : Work ServiceOrder := do
  let services : List Uuid ← sql (.findServiceLines row.id)
  let items : List ItemLine ← sql (.findItemLines row.id)
  .pure (row.toEntity services items)

/-- An id that is no UUID is of no order, and no statement is sent. -/
def findById (id : IdText) : Work (Option ServiceOrder) :=
  match id.column? with
  | none => .pure none
  | some key => do
      let found : Option OrderColumns ← sql (.findOrder key)
      match found with
      | none => .pure none
      | some row => do
          let order ← includeRelations row
          .pure (some order)

/-- The row, its lines and its first history row, in this order. -/
def create (data : NewServiceOrder) : Work ServiceOrder := do
  let id ← fresh
  let createdAt ← now
  let row : OrderColumns ← sql (.insertOrder id data.customerId data.vehicleId data.status data.budgetTotal
    createdAt)
  sql (.createServiceLines id data.services)
  sql (.createItemLines id data.items)
  let order ← includeRelations row
  let changedAt ← now
  sql (.insertHistory id { fromStatus := none, toStatus := row.status, changedAt })
  .pure order

/-- `if (data.services)`: deletes the service lines and creates the new ones. -/
def replaceServices (id : Uuid) : Option (List OSService) → Work Unit
  | none => .pure ()
  | some services => do
      sql (.deleteServiceLines id)
      sql (.createServiceLines id services)

/-- `if (data.items)`: deletes the item lines and creates the new ones. -/
def replaceItems (id : Uuid) : Option (List OSItem) → Work Unit
  | none => .pure ()
  | some items => do
      sql (.deleteItemLines id)
      sql (.createItemLines id items)

/-- The history row of an update, when it sets a status other than the
previous one. -/
def recordChange (id : Uuid) (previous : OSStatus) (status : Option OSStatus) : Work Unit :=
  match status with
  | none => .pure ()
  | some toStatus =>
      if toStatus = previous then .pure ()
      else do
        let changedAt ← now
        sql (.insertHistory id { fromStatus := some previous, toStatus, changedAt })

/-- `none` when there is no such order; a conflict when its version is not the expected one.
-/
def update (id : IdText) (data : ServiceOrderChanges) (expectedVersion : Option ℕ := none) :
    Work (Option ServiceOrder) :=
  match id.column? with
  | none => .pure none
  | some key => do
      -- claiming the version first takes the row lock, so updates of one order
      -- run one after the other; an expected version that moved claims nothing
      let claimed : ℕ ← sql (.claimVersion key expectedVersion)
      if claimed = 0 then do
        let existing : ℕ ← sql (.countOrders key)
        if existing = 0 then .pure none
        else .throw (.app (.conflict "Service order was changed by another operation"))
      else do
        let previous : OSStatus ← sql (.findStatusOrThrow key)
        replaceServices key data.services
        replaceItems key data.items
        let row : OrderColumns ← sql (.updateOrder key data.toOrderScalar)
        let order ← includeRelations row
        recordChange key previous data.status
        .pure (some order)

end ServiceOrderRepository

/-! ## Items -/

def ItemRow.toEntity (row : ItemRow) : Item where
  id := row.id.text
  name := row.name
  price := row.price
  stockQuantity := row.stockQuantity
  reservedQuantity := row.reservedQuantity

namespace ItemRepository

def findById (id : IdText) : Work (Option Item) :=
  match id.column? with
  | none => .pure none
  | some key => do
      let found : Option ItemRow ← sql (.findItem key)
      .pure (found.map ItemRow.toEntity)

/-- The id is drawn by the client. -/
def create (name : String) (price : ℚ) (stockQuantity reservedQuantity : ℤ) : Work Item := do
  let id ← fresh
  let row : ItemRow ← sql (.insertItem id name price stockQuantity reservedQuantity)
  .pure row.toEntity

/-- `none` when there is no such item. -/
def update (id : IdText) (data : ItemPatch) : Work (Option Item) :=
  match id.column? with
  | none => .pure none
  | some key => do
      let existing : Option ItemRow ← sql (.findItem key)
      match existing with
      | none => .pure none
      | some _ => do
          let row : ItemRow ← sql (.updateItem key data)
          .pure (some row.toEntity)

/-- Whether as many units were available. The condition is part of the update. -/
def reserve (id : IdText) (quantity : ℤ) : Work Bool :=
  match id.column? with
  | none => .pure false
  | some key => do
      let reservedRows : ℕ ← sql (.reserveItem key quantity)
      .pure (decide (reservedRows = 1))

/-- Whether as many units were reserved. -/
def release (id : IdText) (quantity : ℤ) : Work Bool :=
  match id.column? with
  | none => .pure false
  | some key => do
      let releasedRows : ℕ ← sql (.releaseItem key quantity)
      .pure (decide (releasedRows = 1))

/-- Whether as many units were reserved and in stock; they leave both counters. -/
def consume (id : IdText) (quantity : ℤ) : Work Bool :=
  match id.column? with
  | none => .pure false
  | some key => do
      let consumedRows : ℕ ← sql (.consumeItem key quantity)
      .pure (decide (consumedRows = 1))

/-- Whether there was such an item. -/
def delete (id : IdText) : Work Bool :=
  match id.column? with
  | none => .pure false
  | some key => do
      let existing : Option ItemRow ← sql (.findItem key)
      match existing with
      | none => .pure false
      | some _ => do
          sql (.deleteItem key)
          .pure true

end ItemRepository

/-! ## Catalog services -/

def ServiceRow.toEntity (row : ServiceRow) : Service where
  id := row.id.text
  name := row.name
  price := row.price
  estimatedMinutes := row.estimatedMinutes

namespace ServiceRepository

def findById (id : IdText) : Work (Option Service) :=
  match id.column? with
  | none => .pure none
  | some key => do
      let found : Option ServiceRow ← sql (.findService key)
      .pure (found.map ServiceRow.toEntity)

def create (name : String) (price : ℚ) (estimatedMinutes : ℤ) : Work Service := do
  let id ← fresh
  let row : ServiceRow ← sql (.insertService id name price estimatedMinutes)
  .pure row.toEntity

def update (id : IdText) (data : ServicePatch) : Work (Option Service) :=
  match id.column? with
  | none => .pure none
  | some key => do
      let existing : Option ServiceRow ← sql (.findService key)
      match existing with
      | none => .pure none
      | some _ => do
          let row : ServiceRow ← sql (.updateService key data)
          .pure (some row.toEntity)

def delete (id : IdText) : Work Bool :=
  match id.column? with
  | none => .pure false
  | some key => do
      let existing : Option ServiceRow ← sql (.findService key)
      match existing with
      | none => .pure false
      | some _ => do
          sql (.deleteService key)
          .pure true

end ServiceRepository

/-! ## Customers and vehicles -/

/-- `FIELD_LABELS` (`uniqueConstraint.ts`). -/
def fieldLabel : String → Option String
  | "tax_id" => some "CPF/CNPJ"
  | "taxId" => some "CPF/CNPJ"
  | "plate" => some "Plate"
  | "email" => some "Email"
  | _ => none

/-- The names of the columns of a violation, as a message has them. -/
def labelFor (target : List String) : String :=
  match target.filterMap fieldLabel with
  | [] => "Value"
  | labels => ", ".intercalate labels

/-- `translatingUniqueViolation`: a duplicate is a business outcome. -/
def translatingUniqueViolation : Failure → Failure
  | .db (.unique target) => .app (.conflict s!"{labelFor target} already registered")
  | failure => failure

def CustomerRow.toEntity (row : CustomerRow) : Customer where
  id := row.id.text
  name := row.name
  taxId := row.taxId
  taxType := row.taxType
  email := row.email
  phone := row.phone
  createdAt := row.createdAt
  updatedAt := row.updatedAt
  deletedAt := row.deletedAt

namespace CustomerRepository

/-- Deleted customers are not found. -/
def findById (id : IdText) : Work (Option Customer) :=
  match id.column? with
  | none => .pure none
  | some key => do
      let found : Option CustomerRow ← sql (.findActiveCustomer key)
      .pure (found.map CustomerRow.toEntity)

/-- Nor are they by their document, which is compared as it is given. -/
def findByTaxId (taxId : String) : Work (Option Customer) := do
  let found : Option CustomerRow ← sql (.findActiveCustomerByTaxId taxId)
  .pure (found.map CustomerRow.toEntity)

def create (name taxId : String) (taxType : TaxType) (email phone : String) : Work Customer := do
  let id ← fresh
  let createdAt ← now
  let row : CustomerRow ← sqlOr (.insertCustomer
    { id, name, taxId, taxType, email, phone, createdAt, updatedAt := createdAt
      deletedAt := none }) translatingUniqueViolation
  .pure row.toEntity

def update (id : IdText) (data : CustomerPatch) : Work (Option Customer) :=
  match id.column? with
  | none => .pure none
  | some key => do
      let existing : Option CustomerRow ← sql (.findActiveCustomer key)
      match existing with
      | none => .pure none
      | some _ => do
          let updatedAt ← now
          let row : CustomerRow ← sqlOr (.updateCustomer key data updatedAt) translatingUniqueViolation
          .pure (some row.toEntity)

/-- Whether there was such a customer, not deleted yet. -/
def softDelete (id : IdText) : Work Bool :=
  match id.column? with
  | none => .pure false
  | some key => do
      let existing : Option CustomerRow ← sql (.findActiveCustomer key)
      match existing with
      | none => .pure false
      | some _ => do
          let deletedAt ← now
          let _row : CustomerRow ← sql (.updateCustomer key { deletedAt := some deletedAt } deletedAt)
          .pure true

end CustomerRepository

def VehicleRow.toEntity (row : VehicleRow) : Vehicle where
  id := row.id.text
  customerId := row.customerId.text
  plate := row.plate
  brand := row.brand
  model := row.model
  year := row.year

namespace VehicleRepository

/-- The plate is compared as it is given. -/
def findByPlate (plate : String) : Work (Option Vehicle) := do
  let found : Option VehicleRow ← sql (.findVehicleByPlate plate)
  .pure (found.map VehicleRow.toEntity)

def create (customerId : IdText) (plate brand model : String) (year : ℤ) : Work Vehicle := do
  let id ← fresh
  let row : VehicleRow ← sqlOr (.insertVehicle id customerId plate brand model year)
    translatingUniqueViolation
  .pure row.toEntity

def update (id : IdText) (data : VehiclePatch) : Work (Option Vehicle) :=
  match id.column? with
  | none => .pure none
  | some key => do
      let existing : Option VehicleRow ← sql (.findVehicle key)
      match existing with
      | none => .pure none
      | some _ => do
          let row : VehicleRow ← sqlOr (.updateVehicle key data) translatingUniqueViolation
          .pure (some row.toEntity)

def delete (id : IdText) : Work Bool :=
  match id.column? with
  | none => .pure false
  | some key => do
      let existing : Option VehicleRow ← sql (.findVehicle key)
      match existing with
      | none => .pure false
      | some _ => do
          sql (.deleteVehicle key)
          .pure true

end VehicleRepository

/-! ## Outbox and processed messages -/

/-- `PrismaOutbox.add`; `traceparent` is the ambient trace context. -/
def Outbox.add (traceparent : Option String) (message : OutgoingMessage) : Work Unit :=
  match message.serviceOrderId.stored? with
  | none => .throw (.db .malformedUuid)
  | some key => do
      let id ← fresh
      let createdAt ← now
      sql (.insertOutbox
        { id, destination := message.destination, type := message.type, serviceOrderId := key
          payload := message.payload, traceparent, createdAt, publishedAt := none })

/-- `PrismaProcessedMessages.markProcessed`: inserts the id unless it is
already recorded; `false` when it was. -/
def ProcessedMessages.markProcessed (messageId : IdText) (type : String) : Work Bool := do
  let processedAt ← now
  let count : ℕ ← sql (.insertProcessed messageId type processedAt)
  .pure (decide (count = 1))

end CarRepairShop
