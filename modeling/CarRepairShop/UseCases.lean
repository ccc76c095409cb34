import CarRepairShop.Repositories
import CarRepairShop.Validators

/-! # Use cases

The use cases of orders and of the registry (`use-cases/`), each as the unit
of work it runs. Notices to the customer go out after the commit and are not
part of it.
-/

namespace CarRepairShop

open Txn Prog

/-- Throws an error of the application. -/
def throwApp {α : Type} (error : AppError) : Work α := .throw (.app error)

/-- Continues with the value of a computation that may fail. -/
def ofExcept {α : Type} : Except Failure α → Work α
  | .ok a => .pure a
  | .error failure => .throw failure

/-! ## Service orders -/

/-- `findOSOrThrow` (`serviceOrderUtils.ts`). -/
def findOSOrThrow (osId : IdText) : Work ServiceOrder := do
  let os ← ServiceOrderRepository.findById osId
  match os with
  | none => throwApp (.notFound "Service order")
  | some os => .pure os

/-- `CreateServiceOrderInput`; absent lists are empty. -/
structure CreateServiceOrderInput where
  customerId : IdText
  vehicleId : IdText
  services : List IdText
  items : List OSItem
deriving DecidableEq, Repr

namespace CreateServiceOrder

/-- One service of `resolveServices`. -/
def resolveService (serviceId : IdText) : Work OSService := do
  let service ← ServiceRepository.findById serviceId
  match service with
  | none => throwApp (.notFound s!"Service {serviceId}")
  | some _ => .pure ⟨serviceId⟩

/-- Every service has to be in the catalogue; that one comes twice is not noticed here. -/
def resolveServices (serviceIds : List IdText) : Work (List OSService) :=
  each resolveService serviceIds

/-- One round of the loop over `input.items`: a reserved line. -/
def reserveLine (line : OSItem) : Work OSItem := do
  let item ← ItemRepository.findById line.itemId
  match item with
  | none => throwApp (.notFound s!"Item {line.itemId}")
  | some _ => do
      let reserved ← ItemRepository.reserve line.itemId line.quantity
      if reserved then .pure line
      else throwApp (.validation s!"Insufficient stock for item {line.itemId}")

/-- The lines are reserved before the order is created, all in one transaction. -/
def execute (input : CreateServiceOrderInput) (traceparent : Option String) :
    Work ServiceOrder := do
  let services ← resolveServices input.services
  let reservedItems ← each reserveLine input.items
  let order ← ServiceOrderRepository.create
    { customerId := input.customerId, vehicleId := input.vehicleId, status := .received
      services, items := reservedItems }
  Outbox.add traceparent
    { destination := .executionCommands, type := .enqueueDiagnosis, serviceOrderId := order.id
      payload := .empty }
  .pure order

end CreateServiceOrder

/-- The lines after adding `quantity` of an item: merged with its line, or
appended. -/
def addedLines (items : List OSItem) (itemId : IdText) (quantity : ℤ) : List OSItem :=
  match items.find? (fun i => i.itemId = itemId) with
  | some _ =>
      items.map fun i => if i.itemId = itemId then ⟨itemId, i.quantity + quantity⟩ else i
  | none => items ++ [⟨itemId, quantity⟩]

/-- The counter moves by a conditional update, the order by an update that expects no
version. -/
def AddItemToOS.execute (osId itemId : IdText) (quantity : ℤ) : Work (Option ServiceOrder) := do
  let os ← findOSOrThrow osId
  if os.status ≠ .diagnosis then
    throwApp (.validation "Items can only be added during DIAGNOSIS")
  else do
    let item ← ItemRepository.findById itemId
    match item with
    | none => throwApp (.notFound "Item")
    | some _ => do
        let reserved ← ItemRepository.reserve itemId quantity
        if reserved then
          ServiceOrderRepository.update osId { items := some (addedLines os.items itemId quantity) }
        else throwApp (.validation "Insufficient stock available")

/-- The counter is written as what was read, less the line; a line whose item is gone is
removed all the same. -/
def RemoveItemFromOS.execute (osId itemId : IdText) : Work (Option ServiceOrder) := do
  let os ← findOSOrThrow osId
  if os.status ≠ .diagnosis then
    throwApp (.validation "Items can only be removed during DIAGNOSIS")
  else
    match os.items.find? (fun i => i.itemId = itemId) with
    | none => throwApp (.notFound "Item in order")
    | some existing => do
        let item ← ItemRepository.findById itemId
        match item with
        | none => .pure ()
        | some item => do
            -- an absolute write: the counter read above, less the quantity
            let _updated ← ItemRepository.update itemId
              { reservedQuantity := some (item.reservedQuantity - existing.quantity) }
            .pure ()
        let lines := os.items.filter fun i => i.itemId ≠ itemId
        ServiceOrderRepository.update osId { items := some lines }

/-- A service is added once, by the spelling of its id. -/
def AddServiceToOS.execute (osId serviceId : IdText) : Work (Option ServiceOrder) := do
  let os ← findOSOrThrow osId
  if os.status ≠ .diagnosis then
    throwApp (.validation "Services can only be added during DIAGNOSIS")
  else do
    let service ← ServiceRepository.findById serviceId
    match service with
    | none => throwApp (.notFound "Service")
    | some _ =>
        if os.services.any (fun s => s.serviceId = serviceId) then
          throwApp (.validation "Service already added to this order")
        else
          ServiceOrderRepository.update osId { services := some (os.services ++ [⟨serviceId⟩]) }

/-- Lines are compared by the spelling of the id, too. -/
def RemoveServiceFromOS.execute (osId serviceId : IdText) : Work (Option ServiceOrder) := do
  let os ← findOSOrThrow osId
  if os.status ≠ .diagnosis then
    throwApp (.validation "Services can only be removed during DIAGNOSIS")
  else if os.services.any (fun s => s.serviceId = serviceId) then
    ServiceOrderRepository.update osId
      { services := some (os.services.filter fun s => s.serviceId ≠ serviceId) }
  else throwApp (.notFound "Service in order")

/-- Unlike the editors of lines, a delivery expects the version it read. -/
def DeliverOS.execute (osId : IdText) : Work (Option ServiceOrder) := do
  let os ← findOSOrThrow osId
  ofExcept (assertTransition os.status .delivered)
  let deliveredAt ← now
  ServiceOrderRepository.update osId { status := some .delivered, deliveredAt := some deliveredAt }
    (some os.version)

/-! ## Items -/

/-- A new item has no unit reserved. -/
def CreateItem.execute (name : String) (price : ℚ) (stockQuantity : ℤ) : Work Item :=
  if price < 0 then throwApp (.validation "Price cannot be negative")
  else if stockQuantity < 0 then throwApp (.validation "Stock quantity cannot be negative")
  else ItemRepository.create name price stockQuantity 0

/-- The declared fields of an item update. -/
structure UpdateItemInput where
  name : Option String := none
  price : Option ℚ := none
  stockQuantity : Option ℤ := none
deriving DecidableEq, Repr

/-- What is checked is the sign of the new values, not the reserved units. -/
def UpdateItem.execute (id : IdText) (data : UpdateItemInput) : Work ItemWithAvailable :=
  if data.price.any (· < 0) then throwApp (.validation "Price cannot be negative")
  else if data.stockQuantity.any (· < 0) then
    throwApp (.validation "Stock quantity cannot be negative")
  else do
    let updated ← ItemRepository.update id
      { name := data.name, price := data.price, stockQuantity := data.stockQuantity }
    match updated with
    | none => throwApp (.notFound "Item")
    | some item => .pure { item with availableQuantity := getAvailableQuantity item }

/-- Reserved units stand in the way; lines of orders are left to the foreign key. -/
def DeleteItem.execute (id : IdText) : Work Unit := do
  let item ← ItemRepository.findById id
  match item with
  | none => throwApp (.notFound "Item")
  | some item =>
      if item.reservedQuantity > 0 then
        throwApp (.validation "Cannot delete item with active reserved stock")
      else do
        let _deleted ← ItemRepository.delete id
        .pure ()

/-! ## Catalog services -/

/-- Nothing is checked but by the table. -/
def CreateService.execute (name : String) (price : ℚ) (estimatedMinutes : ℤ) : Work Service :=
  ServiceRepository.create name price estimatedMinutes

def UpdateService.execute (id : IdText) (data : ServicePatch) : Work Service := do
  let updated ← ServiceRepository.update id data
  match updated with
  | none => throwApp (.notFound "Service")
  | some service => .pure service

def DeleteService.execute (id : IdText) : Work Unit := do
  let deleted ← ServiceRepository.delete id
  if deleted then .pure () else throwApp (.notFound "Service")

/-! ## Customers -/

/-- `CreateCustomerInput`. -/
structure CreateCustomerInput where
  name : String
  taxId : String
  taxType : TaxType
  email : String
  phone : String
deriving DecidableEq, Repr

/-- The document is reduced to its digits before it is validated, looked up and stored. -/
def CreateCustomer.execute (input : CreateCustomerInput) : Work Customer :=
  if !validatePhone input.phone then throwApp (.validation "Invalid phone number")
  else
    let normalizedTaxId := String.ofList (onlyDigits input.taxId)
    if !validateTaxId normalizedTaxId input.taxType then
      throwApp (.validation "Invalid CPF or CNPJ")
    else do
      let existing ← CustomerRepository.findByTaxId normalizedTaxId
      match existing with
      | some _ => throwApp (.conflict "CPF/CNPJ already registered")
      | none =>
          CustomerRepository.create input.name normalizedTaxId input.taxType input.email
            input.phone

/-- The document of a customer never changes. -/
def UpdateCustomer.execute (id : IdText) (data : CustomerPatch) : Work Customer :=
  if data.taxId.isSome || data.taxType.isSome then
    throwApp (.validation "taxId and taxType cannot be updated")
  else if data.phone.any (fun phone => !validatePhone phone) then
    throwApp (.validation "Invalid phone number")
  else do
    let updated ← CustomerRepository.update id data
    match updated with
    | none => throwApp (.notFound "Customer")
    | some customer => .pure customer

/-- The row stays, with the time of its deletion. -/
def DeleteCustomer.execute (id : IdText) : Work Unit := do
  let deleted ← CustomerRepository.softDelete id
  if deleted then .pure () else throwApp (.notFound "Customer")

/-! ## Vehicles -/

/-- `CreateVehicleInput`. -/
structure CreateVehicleInput where
  customerId : IdText
  plate : String
  brand : String
  model : String
  year : ℤ
deriving DecidableEq, Repr

/-- The plate is looked up and stored as it is spelled. -/
def CreateVehicle.execute (input : CreateVehicleInput) : Work Vehicle :=
  if !validatePlate input.plate then throwApp (.validation "Invalid plate format")
  else do
    let existing ← VehicleRepository.findByPlate input.plate
    match existing with
    | some _ => throwApp (.conflict "Plate already registered")
    | none =>
        VehicleRepository.create input.customerId input.plate input.brand input.model input.year

/-- The checks of `UpdateVehicle` on a new plate. -/
def UpdateVehicle.checkPlate (id : IdText) : Option String → Work Unit
  | none => .pure ()
  | some plate =>
      if !validatePlate plate then throwApp (.validation "Invalid plate format")
      else do
        let existing ← VehicleRepository.findByPlate plate
        if existing.any (fun vehicle => vehicle.id ≠ id) then
          throwApp (.conflict "Plate already registered")
        else .pure ()

/-- So is a new plate of a vehicle. -/
def UpdateVehicle.execute (id : IdText) (data : VehiclePatch) : Work Vehicle := do
  UpdateVehicle.checkPlate id data.plate
  let updated ← VehicleRepository.update id data
  match updated with
  | none => throwApp (.notFound "Vehicle")
  | some vehicle => .pure vehicle

def DeleteVehicle.execute (id : IdText) : Work Unit := do
  let deleted ← VehicleRepository.delete id
  if deleted then .pure () else throwApp (.notFound "Vehicle")

end CarRepairShop
