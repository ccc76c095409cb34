import CarRepairShop.Lib.Table
import CarRepairShop.Lib.Transaction
import CarRepairShop.Messages

/-! # The schema and its statements

The tables (`prisma/migrations`), with their constraints: primary keys and
unique pairs, CHECK constraints and column ranges are part of the types
(`Table`, `Checks`), so no stored row violates them; foreign keys and the
unique columns of customers and vehicles are checked by the statements.

The lines and the status history of an order are kept with the order they
belong to, as the rows of `service_order_services`, `service_order_items` and
`service_order_status_history` with its id. They are still read and written
by statements of their own.

A statement is what one call of the repositories sends to the database. It
sees the tables of its transaction and yields its answer and its writes, each
write being a whole row.
-/

namespace CarRepairShop

open Lib Txn

/-! ## Column types -/

/-- The smallest value of an `INTEGER` column. -/
def minInteger : ℤ := -2147483648

/-- The largest value of an `INTEGER` column. -/
def maxInteger : ℤ := 2147483647

/-- The largest value of a `DECIMAL(10,2)` column, in cents. -/
def maxDecimal : ℤ := 9999999999

/-- The value a `DECIMAL(10,2)` column takes from a number: rounded to cents,
halves away from zero. -/
def toDecimal (x : ℚ) : Money :=
  if 0 ≤ x then (x * 100 + 1 / 2).floor else -(-x * 100 + 1 / 2).floor

/-- The character that no text of PostgreSQL holds. -/
def nul : Char := Char.ofNat 0

/-- A text that a `TEXT` column or parameter takes. -/
def TextFits (text : String) : Prop := nul ∉ text.toList

instance : DecidablePred TextFits := fun text => inferInstanceAs (Decidable (nul ∉ text.toList))

/-! ## Rows -/

/-- The columns of `service_orders`. -/
structure OrderColumns where
  id : Uuid
  customerId : Uuid
  vehicleId : Uuid
  status : OSStatus
  budgetTotal : Option Money
  createdAt : ℕ
  startedAt : Option ℕ
  finishedAt : Option ℕ
  deliveredAt : Option ℕ
  version : ℕ
deriving DecidableEq, Repr

/-- A row of `service_order_items`. -/
structure ItemLine where
  itemId : Uuid
  quantity : ℤ
deriving DecidableEq, Repr

/-- An order with its service lines, item lines and status history. -/
structure OrderRow extends OrderColumns where
  services : List Uuid
  items : List ItemLine
  history : List StatusChange
deriving DecidableEq, Repr

/-- One line per service and item of an order, `quantity > 0`,
`budget_total >= 0`, and the column ranges. -/
structure OrderRow.Checks (r : OrderRow) : Prop where
  oneLinePerService : r.services.Nodup
  oneLinePerItem : (r.items.map (·.itemId)).Nodup
  quantityPositive : ∀ l ∈ r.items, 0 < l.quantity
  quantityFits : ∀ l ∈ r.items, l.quantity ≤ maxInteger
  budgetNonNegative : ∀ t ∈ r.budgetTotal, 0 ≤ t
  budgetFits : ∀ t ∈ r.budgetTotal, t ≤ maxDecimal
  versionFits : (r.version : ℤ) ≤ maxInteger

instance (r : OrderRow) : Decidable r.Checks :=
  decidable_of_iff (r.services.Nodup ∧ (r.items.map (·.itemId)).Nodup ∧
      (∀ l ∈ r.items, 0 < l.quantity) ∧ (∀ l ∈ r.items, l.quantity ≤ maxInteger) ∧
      (∀ t ∈ r.budgetTotal, 0 ≤ t) ∧ (∀ t ∈ r.budgetTotal, t ≤ maxDecimal) ∧
      (r.version : ℤ) ≤ maxInteger)
    ⟨fun ⟨a, b, c, d, e, f, g⟩ => ⟨a, b, c, d, e, f, g⟩,
      fun ⟨a, b, c, d, e, f, g⟩ => ⟨a, b, c, d, e, f, g⟩⟩

/-- The constraint an order row that fails its checks violates first. -/
def OrderRow.violation (r : OrderRow) : DbError :=
  if ¬ r.services.Nodup then .unique ["serviceOrderId", "serviceId"]
  else if ¬ (r.items.map (·.itemId)).Nodup then .unique ["serviceOrderId", "itemId"]
  else if ¬ ((∀ l ∈ r.items, 0 < l.quantity) ∧ ∀ t ∈ r.budgetTotal, 0 ≤ t) then .check
  else .outOfRange

/-- A row of `items`. -/
structure ItemRow where
  id : Uuid
  name : String
  price : Money
  stockQuantity : ℤ
  reservedQuantity : ℤ
deriving DecidableEq, Repr

/-- The CHECK constraints of `items`, and the column ranges. -/
structure ItemRow.Checks (r : ItemRow) : Prop where
  nameFits : TextFits r.name
  stockNonNegative : 0 ≤ r.stockQuantity
  reservedNonNegative : 0 ≤ r.reservedQuantity
  reservedWithinStock : r.reservedQuantity ≤ r.stockQuantity
  priceNonNegative : 0 ≤ r.price
  stockFits : r.stockQuantity ≤ maxInteger
  priceFits : r.price ≤ maxDecimal

instance (r : ItemRow) : Decidable r.Checks :=
  decidable_of_iff (TextFits r.name ∧ 0 ≤ r.stockQuantity ∧ 0 ≤ r.reservedQuantity ∧
      r.reservedQuantity ≤ r.stockQuantity ∧ 0 ≤ r.price ∧ r.stockQuantity ≤ maxInteger ∧
      r.price ≤ maxDecimal)
    ⟨fun ⟨a, b, c, d, e, f, g⟩ => ⟨a, b, c, d, e, f, g⟩,
      fun ⟨a, b, c, d, e, f, g⟩ => ⟨a, b, c, d, e, f, g⟩⟩

/-- A row of `services`. -/
structure ServiceRow where
  id : Uuid
  name : String
  price : Money
  estimatedMinutes : ℤ
deriving DecidableEq, Repr

/-- The CHECK constraints of `services`, and the column ranges. -/
structure ServiceRow.Checks (r : ServiceRow) : Prop where
  nameFits : TextFits r.name
  priceNonNegative : 0 ≤ r.price
  minutesNonNegative : 0 ≤ r.estimatedMinutes
  priceFits : r.price ≤ maxDecimal
  minutesFit : r.estimatedMinutes ≤ maxInteger

instance (r : ServiceRow) : Decidable r.Checks :=
  decidable_of_iff (TextFits r.name ∧ 0 ≤ r.price ∧ 0 ≤ r.estimatedMinutes ∧
      r.price ≤ maxDecimal ∧ r.estimatedMinutes ≤ maxInteger)
    ⟨fun ⟨a, b, c, d, e⟩ => ⟨a, b, c, d, e⟩, fun ⟨a, b, c, d, e⟩ => ⟨a, b, c, d, e⟩⟩

/-- A row of `customers`. -/
structure CustomerRow where
  id : Uuid
  name : String
  taxId : String
  taxType : TaxType
  email : String
  phone : String
  createdAt : ℕ
  updatedAt : ℕ
  deletedAt : Option ℕ
deriving DecidableEq, Repr

/-- The texts of a customer. -/
structure CustomerRow.Checks (r : CustomerRow) : Prop where
  nameFits : TextFits r.name
  taxIdFits : TextFits r.taxId
  emailFits : TextFits r.email
  phoneFits : TextFits r.phone

instance (r : CustomerRow) : Decidable r.Checks :=
  decidable_of_iff (TextFits r.name ∧ TextFits r.taxId ∧ TextFits r.email ∧ TextFits r.phone)
    ⟨fun ⟨a, b, c, d⟩ => ⟨a, b, c, d⟩, fun ⟨a, b, c, d⟩ => ⟨a, b, c, d⟩⟩

/-- A row of `vehicles`. -/
structure VehicleRow where
  id : Uuid
  customerId : Uuid
  plate : String
  brand : String
  model : String
  year : ℤ
deriving DecidableEq, Repr

/-- The texts of a vehicle, and the range of its year. -/
structure VehicleRow.Checks (r : VehicleRow) : Prop where
  plateFits : TextFits r.plate
  brandFits : TextFits r.brand
  modelFits : TextFits r.model
  yearFits : minInteger ≤ r.year ∧ r.year ≤ maxInteger

instance (r : VehicleRow) : Decidable r.Checks :=
  decidable_of_iff (TextFits r.plate ∧ TextFits r.brand ∧ TextFits r.model ∧
      minInteger ≤ r.year ∧ r.year ≤ maxInteger)
    ⟨fun ⟨a, b, c, d⟩ => ⟨a, b, c, d⟩, fun ⟨a, b, c, d⟩ => ⟨a, b, c, d⟩⟩

/-- A row of `outbox_messages`. -/
structure OutboxRow where
  id : Uuid
  destination : MessageDestination
  type : SagaCommandType
  serviceOrderId : Uuid
  payload : Payload
  traceparent : Option String
  createdAt : ℕ
  publishedAt : Option ℕ
deriving DecidableEq, Repr

/-- A row of `processed_messages`. -/
structure ProcessedRow where
  messageId : Uuid
  type : String
  processedAt : ℕ
deriving DecidableEq, Repr

/-! ## The database -/

/-- The tables. The outbox only grows at its end; its ids come from
`randomUUID`, so they are not compared with those already stored. -/
structure Db where
  customers : Table (fun r : CustomerRow => r.id) CustomerRow.Checks := Table.empty
  vehicles : Table (fun r : VehicleRow => r.id) VehicleRow.Checks := Table.empty
  services : Table (fun r : ServiceRow => r.id) ServiceRow.Checks := Table.empty
  items : Table (fun r : ItemRow => r.id) ItemRow.Checks := Table.empty
  orders : Table (fun r : OrderRow => r.id) OrderRow.Checks := Table.empty
  outbox : List OutboxRow := []
  processed : Table (fun r : ProcessedRow => r.messageId) (fun _ => True) := Table.empty

/-- The write of one row. -/
inductive Write where
  | putCustomer (row : CustomerRow) (checked : row.Checks)
  | putVehicle (row : VehicleRow) (checked : row.Checks)
  | eraseVehicle (id : Uuid)
  | putService (row : ServiceRow) (checked : row.Checks)
  | eraseService (id : Uuid)
  | putItem (row : ItemRow) (checked : row.Checks)
  | eraseItem (id : Uuid)
  | putOrder (row : OrderRow) (checked : row.Checks)
  | addOutbox (row : OutboxRow)
  | putProcessed (row : ProcessedRow)

/-- Performs a write. -/
def Db.write (db : Db) : Write → Db
  | .putCustomer row h => { db with customers := db.customers.put row h }
  | .putVehicle row h => { db with vehicles := db.vehicles.put row h }
  | .eraseVehicle id => { db with vehicles := db.vehicles.erase id }
  | .putService row h => { db with services := db.services.put row h }
  | .eraseService id => { db with services := db.services.erase id }
  | .putItem row h => { db with items := db.items.put row h }
  | .eraseItem id => { db with items := db.items.erase id }
  | .putOrder row h => { db with orders := db.orders.put row h }
  | .addOutbox row => { db with outbox := db.outbox ++ [row] }
  | .putProcessed row => { db with processed := db.processed.put row trivial }

/-! ## Row locks -/

/-- What a lock is taken on: a row, or a value of a unique column. -/
inductive LockKey where
  | customer (id : Uuid)
  | taxId (value : String)
  | vehicle (id : Uuid)
  | plate (value : String)
  | service (id : Uuid)
  | item (id : Uuid)
  | order (id : Uuid)
  | processed (messageId : Uuid)
deriving DecidableEq, Repr

/-- The row lock modes of PostgreSQL that the statements below take. -/
inductive LockMode where
  | keyShare
  | noKeyUpdate
  | update
deriving DecidableEq, Repr

def LockMode.conflicts : LockMode → LockMode → Bool
  | .keyShare, .update => true
  | .update, .keyShare => true
  | .keyShare, _ => false
  | _, .keyShare => false
  | _, _ => true

/-- The locks a write holds until its transaction ends. A row locks the rows
it references against removal. Lines and history are written by the
transaction that updated the order itself, so its lock covers them. A statement
takes all its locks at once here. In PostgreSQL the removal of an item or a service
goes on, with its row locked, to wait for whoever removes a line of it (here the
lines as committed decide at once), and a change of plate, with its vehicle
locked, for whoever has that plate (here it locks both together). -/
def Write.locks : Write → List (LockKey × LockMode)
  | .putCustomer row _ => [(.customer row.id, .noKeyUpdate), (.taxId row.taxId, .update)]
  | .putVehicle row _ =>
      [(.vehicle row.id, .noKeyUpdate), (.plate row.plate, .update),
        (.customer row.customerId, .keyShare)]
  | .eraseVehicle id => [(.vehicle id, .update)]
  | .putService row _ => [(.service row.id, .noKeyUpdate)]
  | .eraseService id => [(.service id, .update)]
  | .putItem row _ => [(.item row.id, .noKeyUpdate)]
  | .eraseItem id => [(.item id, .update)]
  | .putOrder row _ =>
      (.order row.id, .noKeyUpdate) :: (.customer row.customerId, .keyShare) ::
        (.vehicle row.vehicleId, .keyShare) ::
        (row.services.map fun id => (.service id, .keyShare)) ++
        row.items.map fun line => (.item line.itemId, .keyShare)
  | .addOutbox _ => []
  | .putProcessed row => [(.processed row.messageId, .update)]

/-- Whether two writes of different transactions exclude each other. -/
def Write.conflicts (w w' : Write) : Bool :=
  w.locks.any fun l => w'.locks.any fun l' => l.1 == l'.1 && l.2.conflicts l'.2

/-! ## Statements -/

/-- The columns `serviceOrder.update` sets; absent ones keep their value. -/
structure OrderScalar where
  status : Option OSStatus := none
  budgetTotal : Option ℚ := none
  startedAt : Option ℕ := none
  finishedAt : Option ℕ := none
  deliveredAt : Option ℕ := none
deriving DecidableEq, Repr

/-- The columns `item.update` sets. -/
structure ItemPatch where
  name : Option String := none
  price : Option ℚ := none
  stockQuantity : Option ℤ := none
  reservedQuantity : Option ℤ := none
deriving DecidableEq, Repr

/-- The columns `service.update` sets. -/
structure ServicePatch where
  name : Option String := none
  price : Option ℚ := none
  estimatedMinutes : Option ℤ := none
deriving DecidableEq, Repr

/-- The columns `customer.update` sets. -/
structure CustomerPatch where
  name : Option String := none
  taxId : Option String := none
  taxType : Option TaxType := none
  email : Option String := none
  phone : Option String := none
  deletedAt : Option ℕ := none
deriving DecidableEq, Repr

/-- The columns `vehicle.update` sets. -/
structure VehiclePatch where
  customerId : Option IdText := none
  plate : Option String := none
  brand : Option String := none
  model : Option String := none
  year : Option ℤ := none
deriving DecidableEq, Repr

/-- The statements the repositories send. -/
inductive Stmt where
  | findOrder (id : Uuid)
  | findServiceLines (orderId : Uuid)
  | findItemLines (orderId : Uuid)
  | countOrders (id : Uuid)
  | insertOrder (id : Uuid) (customerId vehicleId : IdText) (status : OSStatus)
      (budgetTotal : Option ℚ) (createdAt : ℕ)
  | claimVersion (id : Uuid) (expectedVersion : Option ℕ)
  | findStatusOrThrow (id : Uuid)
  | deleteServiceLines (orderId : Uuid)
  | createServiceLines (orderId : Uuid) (lines : List OSService)
  | deleteItemLines (orderId : Uuid)
  | createItemLines (orderId : Uuid) (lines : List OSItem)
  | updateOrder (id : Uuid) (data : OrderScalar)
  | insertHistory (orderId : Uuid) (change : StatusChange)
  | findItem (id : Uuid)
  | insertItem (id : Uuid) (name : String) (price : ℚ) (stockQuantity reservedQuantity : ℤ)
  | updateItem (id : Uuid) (data : ItemPatch)
  | reserveItem (id : Uuid) (quantity : ℤ)
  | releaseItem (id : Uuid) (quantity : ℤ)
  | consumeItem (id : Uuid) (quantity : ℤ)
  | deleteItem (id : Uuid)
  | findService (id : Uuid)
  | insertService (id : Uuid) (name : String) (price : ℚ) (estimatedMinutes : ℤ)
  | updateService (id : Uuid) (data : ServicePatch)
  | deleteService (id : Uuid)
  | findActiveCustomer (id : Uuid)
  | findActiveCustomerByTaxId (taxId : String)
  | insertCustomer (row : CustomerRow)
  | updateCustomer (id : Uuid) (data : CustomerPatch) (updatedAt : ℕ)
  | findVehicle (id : Uuid)
  | findVehicleByPlate (plate : String)
  | insertVehicle (id : Uuid) (customerId : IdText) (plate brand model : String) (year : ℤ)
  | updateVehicle (id : Uuid) (data : VehiclePatch)
  | deleteVehicle (id : Uuid)
  | insertOutbox (row : OutboxRow)
  | insertProcessed (messageId : IdText) (type : String) (processedAt : ℕ)

/-- What each statement answers; a number is a count of rows. -/
@[reducible] def Stmt.Resp : Stmt → Type
  | .findOrder _ => Option OrderColumns
  | .findServiceLines _ => List Uuid
  | .findItemLines _ => List ItemLine
  | .countOrders _ | .claimVersion .. => ℕ
  | .findStatusOrThrow _ => OSStatus
  | .insertOrder .. | .updateOrder .. => OrderColumns
  | .findItem _ => Option ItemRow
  | .insertItem .. | .updateItem .. => ItemRow
  | .reserveItem .. | .releaseItem .. | .consumeItem .. => ℕ
  | .findService _ => Option ServiceRow
  | .insertService .. | .updateService .. => ServiceRow
  | .findActiveCustomer _ | .findActiveCustomerByTaxId _ => Option CustomerRow
  | .insertCustomer _ | .updateCustomer .. => CustomerRow
  | .findVehicle _ | .findVehicleByPlate _ => Option VehicleRow
  | .insertVehicle .. | .updateVehicle .. => VehicleRow
  | .insertProcessed .. => ℕ
  | .deleteServiceLines _ | .createServiceLines .. | .deleteItemLines _
  | .createItemLines .. | .insertHistory .. | .deleteItem _ | .deleteService _
  | .deleteVehicle _ | .insertOutbox _ => Unit

/-! ### Storing a row -/

def storeOrder (row : OrderRow) : Except Failure (List Write) :=
  if h : row.Checks then .ok [.putOrder row h] else .error (.db row.violation)

def storeItem (row : ItemRow) : Except Failure (List Write) :=
  if h : row.Checks then .ok [.putItem row h]
  else .error (.db (if ¬ TextFits row.name then .invalidText
    else if row.stockQuantity ≤ maxInteger ∧ row.price ≤ maxDecimal then .check
    else .outOfRange))

def storeService (row : ServiceRow) : Except Failure (List Write) :=
  if h : row.Checks then .ok [.putService row h]
  else .error (.db (if ¬ TextFits row.name then .invalidText
    else if row.price ≤ maxDecimal ∧ row.estimatedMinutes ≤ maxInteger then .check
    else .outOfRange))

/-- The texts and the unique `tax_id` of `customers`. -/
def storeCustomer (db : Db) (row : CustomerRow) : Except Failure (List Write) :=
  if h : row.Checks then
    if db.customers.rows.any (fun c => c.taxId = row.taxId ∧ c.id ≠ row.id) then
      .error (.db (.unique ["taxId"]))
    else .ok [.putCustomer row h]
  else .error (.db .invalidText)

/-- The columns, the foreign key and the unique `plate` of `vehicles`. -/
def storeVehicle (db : Db) (row : VehicleRow) : Except Failure (List Write) :=
  if h : row.Checks then
    if db.vehicles.rows.any (fun v => v.plate = row.plate ∧ v.id ≠ row.id) then
      .error (.db (.unique ["plate"]))
    else if (db.customers.find? row.customerId).isNone then .error (.db .foreignKey)
    else .ok [.putVehicle row h]
  else .error (.db (if minInteger ≤ row.year ∧ row.year ≤ maxInteger then .invalidText
    else .outOfRange))

/-! ### Columns of inserted lines -/

/-- The service ids of new lines: UUID columns that reference `services`. -/
def serviceColumns (db : Db) : List OSService → Except Failure (List Uuid)
  | [] => .ok []
  | line :: lines =>
      match line.serviceId.stored? with
      | none => .error (.db .malformedUuid)
      | some id =>
          if (db.services.find? id).isNone then .error (.db .foreignKey)
          else (serviceColumns db lines).map (id :: ·)

/-- The columns of new item lines: UUID columns that reference `items`. -/
def itemColumns (db : Db) : List OSItem → Except Failure (List ItemLine)
  | [] => .ok []
  | line :: lines =>
      match line.itemId.stored? with
      | none => .error (.db .malformedUuid)
      | some id =>
          if (db.items.find? id).isNone then .error (.db .foreignKey)
          else (itemColumns db lines).map (⟨id, line.quantity⟩ :: ·)

/-- Changes the row of an order that has one, with the answer given. -/
def changeOrder {α : Type} (db : Db) (id : Uuid) (missing : Except Failure (α × List Write))
    (f : OrderRow → Except Failure (α × OrderRow)) : Except Failure (α × List Write) :=
  match db.orders.find? id with
  | none => missing
  | some row => do
      let (answer, row') ← f row
      let writes ← storeOrder row'
      .ok (answer, writes)

/-- A conditional `UPDATE items ... WHERE id = $1 AND ...` with an `INTEGER`
parameter: the count of rows it changed. -/
def changeItemIf (db : Db) (id : Uuid) (quantity : ℤ) (cond : ItemRow → Bool)
    (f : ItemRow → ItemRow) : Except Failure (ℕ × List Write) :=
  if minInteger ≤ quantity ∧ quantity ≤ maxInteger then
    match db.items.find? id with
    | none => .ok (0, [])
    | some row => if cond row then (storeItem (f row)).map (1, ·) else .ok (0, [])
  else .error (.db .outOfRange)

def OrderScalar.apply (data : OrderScalar) (row : OrderRow) : OrderRow :=
  { row with
    status := data.status.getD row.status
    budgetTotal := (data.budgetTotal.map toDecimal).or row.budgetTotal
    startedAt := data.startedAt.or row.startedAt
    finishedAt := data.finishedAt.or row.finishedAt
    deliveredAt := data.deliveredAt.or row.deliveredAt }

def ItemPatch.apply (data : ItemPatch) (row : ItemRow) : ItemRow :=
  { row with
    name := data.name.getD row.name
    price := (data.price.map toDecimal).getD row.price
    stockQuantity := data.stockQuantity.getD row.stockQuantity
    reservedQuantity := data.reservedQuantity.getD row.reservedQuantity }

def ServicePatch.apply (data : ServicePatch) (row : ServiceRow) : ServiceRow :=
  { row with
    name := data.name.getD row.name
    price := (data.price.map toDecimal).getD row.price
    estimatedMinutes := data.estimatedMinutes.getD row.estimatedMinutes }

def CustomerPatch.apply (data : CustomerPatch) (updatedAt : ℕ) (row : CustomerRow) :
    CustomerRow :=
  { row with
    name := data.name.getD row.name
    taxId := data.taxId.getD row.taxId
    taxType := data.taxType.getD row.taxType
    email := data.email.getD row.email
    phone := data.phone.getD row.phone
    updatedAt := updatedAt
    deletedAt := data.deletedAt.or row.deletedAt }

/-- The row after the patch; the customer id has to be a UUID. -/
def VehiclePatch.apply (data : VehiclePatch) (row : VehicleRow) : Except Failure VehicleRow :=
  match data.customerId.map IdText.stored? with
  | some none => .error (.db .malformedUuid)
  | some (some customerId) => .ok (rest customerId)
  | none => .ok (rest row.customerId)
where
  rest (customerId : Uuid) : VehicleRow :=
    { row with
      customerId
      plate := data.plate.getD row.plate
      brand := data.brand.getD row.brand
      model := data.model.getD row.model
      year := data.year.getD row.year }

/-! ### The engine -/

/-- Executes a statement on the tables it sees. -/
def exec : (s : Stmt) → Db → Except Failure (s.Resp × List Write)
  | .findOrder id, db => .ok ((db.orders.find? id).map (·.toOrderColumns), [])
  | .findServiceLines orderId, db =>
      .ok (((db.orders.find? orderId).map (·.services)).getD [], [])
  | .findItemLines orderId, db => .ok (((db.orders.find? orderId).map (·.items)).getD [], [])
  | .countOrders id, db => .ok (if (db.orders.find? id).isSome then 1 else 0, [])
  | .insertOrder id customerId vehicleId status budgetTotal createdAt, db =>
      match customerId.stored?, vehicleId.stored? with
      | some customer, some vehicle =>
          if (db.orders.find? id).isSome then .error (.db (.unique ["id"]))
          else if (db.customers.find? customer).isNone ∨ (db.vehicles.find? vehicle).isNone then
            .error (.db .foreignKey)
          else
            let row : OrderRow :=
              { id, customerId := customer, vehicleId := vehicle, status
                budgetTotal := budgetTotal.map toDecimal, createdAt
                startedAt := none, finishedAt := none, deliveredAt := none, version := 0
                services := [], items := [], history := [] }
            (storeOrder row).map (row.toOrderColumns, ·)
      | _, _ => .error (.db .malformedUuid)
  | .claimVersion id expectedVersion, db =>
      match db.orders.find? id with
      | none => .ok (0, [])
      | some row =>
          if expectedVersion = none ∨ expectedVersion = some row.version then
            (storeOrder { row with version := row.version + 1 }).map (1, ·)
          else .ok (0, [])
  | .findStatusOrThrow id, db =>
      match db.orders.find? id with
      | none => .error (.db .recordNotFound)
      | some row => .ok (row.status, [])
  | .deleteServiceLines orderId, db =>
      changeOrder db orderId (.ok ((), [])) fun row => .ok ((), { row with services := [] })
  | .createServiceLines orderId lines, db =>
      changeOrder db orderId (.error (.db .foreignKey)) fun row => do
        let ids ← serviceColumns db lines
        .ok ((), { row with services := row.services ++ ids })
  | .deleteItemLines orderId, db =>
      changeOrder db orderId (.ok ((), [])) fun row => .ok ((), { row with items := [] })
  | .createItemLines orderId lines, db =>
      changeOrder db orderId (.error (.db .foreignKey)) fun row => do
        let new ← itemColumns db lines
        .ok ((), { row with items := row.items ++ new })
  | .updateOrder id data, db =>
      changeOrder db id (.error (.db .recordNotFound)) fun row =>
        .ok ((data.apply row).toOrderColumns, data.apply row)
  | .insertHistory orderId change, db =>
      changeOrder db orderId (.error (.db .foreignKey)) fun row =>
        .ok ((), { row with history := row.history ++ [change] })
  | .findItem id, db => .ok (db.items.find? id, [])
  | .insertItem id name price stockQuantity reservedQuantity, db =>
      if (db.items.find? id).isSome then .error (.db (.unique ["id"]))
      else
        let row : ItemRow := { id, name, price := toDecimal price, stockQuantity, reservedQuantity }
        (storeItem row).map (row, ·)
  | .updateItem id data, db =>
      match db.items.find? id with
      | none => .error (.db .recordNotFound)
      | some row => (storeItem (data.apply row)).map (data.apply row, ·)
  | .reserveItem id quantity, db =>
      changeItemIf db id quantity (fun row => row.stockQuantity - row.reservedQuantity ≥ quantity)
        fun row => { row with reservedQuantity := row.reservedQuantity + quantity }
  | .releaseItem id quantity, db =>
      changeItemIf db id quantity (fun row => row.reservedQuantity ≥ quantity)
        fun row => { row with reservedQuantity := row.reservedQuantity - quantity }
  | .consumeItem id quantity, db =>
      changeItemIf db id quantity
        (fun row => row.reservedQuantity ≥ quantity ∧ row.stockQuantity ≥ quantity)
        fun row => { row with
          stockQuantity := row.stockQuantity - quantity
          reservedQuantity := row.reservedQuantity - quantity }
  | .deleteItem id, db =>
      if (db.items.find? id).isNone then .error (.db .recordNotFound)
      else if db.orders.rows.any (fun o => o.items.any fun l => l.itemId = id) then
        .error (.db .foreignKey)
      else .ok ((), [.eraseItem id])
  | .findService id, db => .ok (db.services.find? id, [])
  | .insertService id name price estimatedMinutes, db =>
      if (db.services.find? id).isSome then .error (.db (.unique ["id"]))
      else
        let row : ServiceRow := { id, name, price := toDecimal price, estimatedMinutes }
        (storeService row).map (row, ·)
  | .updateService id data, db =>
      match db.services.find? id with
      | none => .error (.db .recordNotFound)
      | some row => (storeService (data.apply row)).map (data.apply row, ·)
  | .deleteService id, db =>
      if (db.services.find? id).isNone then .error (.db .recordNotFound)
      else if db.orders.rows.any (fun o => o.services.any fun s => s = id) then
        .error (.db .foreignKey)
      else .ok ((), [.eraseService id])
  | .findActiveCustomer id, db =>
      .ok ((db.customers.find? id).filter (fun c => c.deletedAt.isNone), [])
  | .findActiveCustomerByTaxId taxId, db =>
      if TextFits taxId then
        .ok (db.customers.rows.find? (fun c => c.taxId = taxId ∧ c.deletedAt.isNone), [])
      else .error (.db .invalidText)
  | .insertCustomer row, db =>
      -- the texts are read before the keys are compared
      if row.Checks ∧ (db.customers.find? row.id).isSome then .error (.db (.unique ["id"]))
      else (storeCustomer db row).map (row, ·)
  | .updateCustomer id data updatedAt, db =>
      match db.customers.find? id with
      | none => .error (.db .recordNotFound)
      | some row =>
          (storeCustomer db (data.apply updatedAt row)).map (data.apply updatedAt row, ·)
  | .findVehicle id, db => .ok (db.vehicles.find? id, [])
  | .findVehicleByPlate plate, db =>
      if TextFits plate then .ok (db.vehicles.rows.find? (fun v => v.plate = plate), [])
      else .error (.db .invalidText)
  | .insertVehicle id customerId plate brand model year, db =>
      match customerId.stored? with
      | none => .error (.db .malformedUuid)
      | some customer =>
          if (db.vehicles.find? id).isSome then .error (.db (.unique ["id"]))
          else
            let row : VehicleRow := { id, customerId := customer, plate, brand, model, year }
            (storeVehicle db row).map (row, ·)
  | .updateVehicle id data, db =>
      match db.vehicles.find? id with
      | none => .error (.db .recordNotFound)
      | some row => do
          let row' ← data.apply row
          let writes ← storeVehicle db row'
          .ok (row', writes)
  | .deleteVehicle id, db =>
      if (db.vehicles.find? id).isNone then .error (.db .recordNotFound)
      else if db.orders.rows.any (fun o => o.vehicleId = id) then .error (.db .foreignKey)
      else .ok ((), [.eraseVehicle id])
  | .insertOutbox row, _ => .ok ((), [.addOutbox row])
  | .insertProcessed messageId type processedAt, db =>
      match messageId.stored? with
      | none => .error (.db .malformedUuid)
      | some id =>
          if (db.processed.find? id).isSome then .ok (0, [])
          else .ok (1, [.putProcessed { messageId := id, type, processedAt }])

/-- PostgreSQL with the schema of the service. -/
def postgres : Engine Db Stmt Stmt.Resp Write Failure where
  exec := exec
  apply := Db.write
  conflicts := Write.conflicts

/-- A unit of work on the database of the service. -/
abbrev Work (α : Type) := Prog Stmt Stmt.Resp Failure α

/-- Issues one statement. -/
def sql (s : Stmt) : Work s.Resp := Prog.query s

/-- Issues one statement and translates the error of the database. -/
def sqlOr (s : Stmt) (refused : Failure → Failure) : Work s.Resp := Prog.queryOr s refused

/-- What a transaction of the service did so far. -/
abbrev ShopTx := Tx Stmt Stmt.Resp Write

end CarRepairShop
