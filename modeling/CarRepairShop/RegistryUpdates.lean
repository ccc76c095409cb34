import CarRepairShop.UseCases

/-! # Updates of the registry with the body as it comes

`PUT /items/:id` and `PUT /customers/:id` as they run: the controllers pass
`req.body` on, the use cases look at the fields they check, and the
repositories give the body to Prisma as the columns to write. Types narrow the
body at compile time only.

What Prisma does is its documented behaviour on the models of
`schema.prisma`: an unknown field or a value of another type is refused, a
field that is absent leaves its column, and a field that is present writes it.
What such a route returns is left out.
-/

namespace CarRepairShop

open Lib Txn

/-! ## What reads the values -/

/-- What an update throws. -/
inductive UpdateError where
  | failed (failure : Failure)
  /-- `express.json` takes objects and arrays only. -/
  | badRequest
  /-- A method was called on a value that has none. -/
  | typeError
  /-- Prisma or a column refuses an argument. -/
  | refusedArgument
deriving DecidableEq, Repr

/-- The parts of the platform that are not modelled: the number a text stands
for in JavaScript, the readers of texts for columns, and the nested writes that
a relation field asks Prisma for. -/
structure Platform where
  number : String → Option ℚ
  decimal : String → Option ℚ
  uuid : String → Option Uuid
  dateTime : String → Option ℕ
  nested : (relation : String) → (id : Uuid) → Json → Db → Except UpdateError Db

/-- A field of the body; an array has none of those looked at. -/
def Json.field? : Json → String → Option Json
  | .obj fields, name => fields.lookup name
  | _, _ => none

/-- `value < 0` in JavaScript. An infinity is no value of a column, whatever its sign. -/
def Platform.negative (p : Platform) : Json → Bool
  | .num (.finite x) => x < 0
  | .str s => (p.number s).any (· < 0)
  -- an array of one value compares as that value
  | .arr [v] => p.negative v
  | _ => false

/-- The operand of a `set`, which may be left out. -/
def setOperand : Json → Json
  | .obj [("set", v)] => v
  | v => v

def textValue : Json → Except UpdateError String
  | .str s => .ok s
  | _ => .error .refusedArgument

def wholeNumber : Json → Except UpdateError ℤ
  | .num (.finite x) =>
      if x.den = 1 ∧ -maxInteger - 1 ≤ x.num ∧ x.num ≤ maxInteger then .ok x.num
      else .error .refusedArgument
  | _ => .error .refusedArgument

/-- A value read from a text, or refused. -/
def readText {α : Type} (read : String → Option α) : Json → Except UpdateError α
  | .str s =>
      match read s with
      | some a => .ok a
      | none => .error .refusedArgument
  | _ => .error .refusedArgument

def Platform.decimalValue (p : Platform) : Json → Except UpdateError ℚ
  | .num (.finite x) => .ok x
  | v => readText p.decimal v

def taxTypeValue : Json → Except UpdateError TaxType :=
  readText fun
    | "CPF" => some .cpf
    | "CNPJ" => some .cnpj
    | _ => none

/-- A column that may be null. -/
def nullable {α : Type} (read : Json → Except UpdateError α) : Json → Except UpdateError (Option α)
  | .null => .ok none
  | v => (read v).map some

/-- The update of a column to a value. -/
def setTo {α : Type} (read : Json → Except UpdateError α) (v : Json) (_old : α) :
    Except UpdateError α := read (setOperand v)

/-- The update of an `Int` column. -/
def intUpdate (v : Json) (old : ℤ) : Except UpdateError ℤ :=
  match v with
  | .obj [("increment", w)] => (wholeNumber w).map (old + ·)
  | .obj [("decrement", w)] => (wholeNumber w).map (old - ·)
  | .obj [("multiply", w)] => (wholeNumber w).map (old * ·)
  | .obj [("divide", w)] => do
      let n ← wholeNumber w
      if n = 0 then .error .refusedArgument else .ok (old.tdiv n)
  | v => wholeNumber (setOperand v)

/-- The update of a `Decimal` column. -/
def Platform.decimalUpdate (p : Platform) (v : Json) (old : Money) : Except UpdateError Money :=
  let before : ℚ := old / 100
  match v with
  | .obj [("increment", w)] => (p.decimalValue w).map fun x => toDecimal (before + x)
  | .obj [("decrement", w)] => (p.decimalValue w).map fun x => toDecimal (before - x)
  | .obj [("multiply", w)] => (p.decimalValue w).map fun x => toDecimal (before * x)
  | .obj [("divide", w)] => do
      let x ← p.decimalValue w
      if x = 0 then .error .refusedArgument else .ok (toDecimal (before / x))
  | v => (p.decimalValue (setOperand v)).map toDecimal

/-- A column after an update: the one of the body, if there is one. -/
def column {α : Type} (fields : List (String × Json)) (name : String)
    (update : Json → α → Except UpdateError α) (old : α) : Except UpdateError α :=
  match fields.lookup name with
  | none => .ok old
  | some v => update v old

/-! ## Items -/

/-- The fields of `model Item`. -/
def itemFields : List String :=
  ["id", "name", "price", "stockQuantity", "reservedQuantity", "serviceOrders"]

/-- The row that the body makes of `row`. -/
def Platform.itemRow (p : Platform) (fields : List (String × Json)) (row : ItemRow) :
    Except UpdateError ItemRow := do
  let id ← column fields "id" (setTo (readText p.uuid)) row.id
  let name ← column fields "name" (setTo textValue) row.name
  let price ← column fields "price" p.decimalUpdate row.price
  let stockQuantity ← column fields "stockQuantity" intUpdate row.stockQuantity
  let reservedQuantity ← column fields "reservedQuantity" intUpdate row.reservedQuantity
  .ok { id, name, price, stockQuantity, reservedQuantity }

/-- Stores `row` in the place of `old`. A new id goes on to the lines
(`ON UPDATE CASCADE`). -/
def Db.storeItemAs (db : Db) (old row : ItemRow) : Except Failure Db :=
  if row.id = old.id then (storeItem row).map (postgres.applyAll db)
  else if (db.items.find? row.id).isSome then .error (.db (.unique ["id"]))
  else do
    let stored ← storeItem row
    let orders ← (db.orders.rows.filter fun o => o.items.any fun l => l.itemId = old.id).mapM
      fun o => storeOrder { o with
        items := o.items.map fun l => if l.itemId = old.id then { l with itemId := row.id } else l }
    .ok (postgres.applyAll { db with items := db.items.erase old.id } (stored ++ orders.flatten))

/-- The nested writes of the relation of an item. -/
def Platform.itemRelations (p : Platform) (fields : List (String × Json)) (id : Uuid) (db : Db) :
    Except UpdateError Db :=
  match fields.lookup "serviceOrders" with
  | none => .ok db
  | some v => p.nested "Item.serviceOrders" id v db

/-- `prisma.item.update`. -/
def Platform.itemUpdate (p : Platform) (key : Uuid) (data : Json) (db : Db) :
    Except UpdateError Db :=
  match data with
  | .obj fields =>
      if fields.all (fun f => itemFields.contains f.1) then
        match db.items.find? key with
        | none => .error (.failed (.db .recordNotFound))
        | some row => do
            let row' ← p.itemRow fields row
            let db' ← (db.storeItemAs row row').mapError .failed
            p.itemRelations fields row'.id db'
      else .error .refusedArgument
  | _ => .error .refusedArgument

/-- `PostgresItemRepository.update`. -/
def ItemRepository.updateBody (p : Platform) (id : IdText) (data : Json) (db : Db) :
    Except UpdateError (Option Db) :=
  match id.column? with
  | none => .ok none
  | some key =>
      match db.items.find? key with
      | none => .ok none
      | some _ => (p.itemUpdate key data db).map some

/-- The checks of `UpdateItemUseCase`. -/
def UpdateItem.checkBody (p : Platform) (data : Json) : Except UpdateError Unit :=
  if (data.field? "price").any p.negative then
    .error (.failed (.app (.validation "Price cannot be negative")))
  else if (data.field? "stockQuantity").any p.negative then
    .error (.failed (.app (.validation "Stock quantity cannot be negative")))
  else .ok ()

/-- `UpdateItemUseCase.execute`. -/
def UpdateItem.executeBody (p : Platform) (id : IdText) (data : Json) (db : Db) :
    Except UpdateError Db := do
  UpdateItem.checkBody p data
  let updated ← ItemRepository.updateBody p id data db
  match updated with
  | none => .error (.failed (.app (.notFound "Item")))
  | some db' => .ok db'

/-- `PUT /items/:id`: the tables after it. -/
def ItemController.update (p : Platform) (id : IdText) (body : Json) (db : Db) :
    Except UpdateError Db :=
  match body with
  | .obj _ | .arr _ => UpdateItem.executeBody p id body db
  | _ => .error .badRequest

/-! ## Customers -/

/-- The fields of `model Customer`. -/
def customerFields : List String :=
  ["id", "name", "taxId", "taxType", "email", "phone", "createdAt", "updatedAt", "deletedAt",
    "vehicles", "serviceOrders"]

/-- The row that the body makes of `row` at time `now`. -/
def Platform.customerRow (p : Platform) (fields : List (String × Json)) (now : ℕ)
    (row : CustomerRow) : Except UpdateError CustomerRow := do
  let id ← column fields "id" (setTo (readText p.uuid)) row.id
  let name ← column fields "name" (setTo textValue) row.name
  let taxId ← column fields "taxId" (setTo textValue) row.taxId
  let taxType ← column fields "taxType" (setTo taxTypeValue) row.taxType
  let email ← column fields "email" (setTo textValue) row.email
  let phone ← column fields "phone" (setTo textValue) row.phone
  let createdAt ← column fields "createdAt" (setTo (readText p.dateTime)) row.createdAt
  -- `@updatedAt`
  let updatedAt ← column fields "updatedAt" (setTo (readText p.dateTime)) now
  let deletedAt ← column fields "deletedAt" (setTo (nullable (readText p.dateTime))) row.deletedAt
  .ok { id, name, taxId, taxType, email, phone, createdAt, updatedAt, deletedAt }

/-- Stores `row` in the place of `old`. A new id goes on to the vehicles and the
orders of the customer (`ON UPDATE CASCADE`). -/
def Db.storeCustomerAs (db : Db) (old row : CustomerRow) : Except Failure Db :=
  if row.id = old.id then (storeCustomer db row).map (postgres.applyAll db)
  else if (db.customers.find? row.id).isSome then .error (.db (.unique ["id"]))
  else do
    let others : Db := { db with customers := db.customers.erase old.id }
    let stored ← storeCustomer others row
    let renamed := postgres.applyAll others stored
    let vehicles ← (db.vehicles.rows.filter fun v => v.customerId = old.id).mapM
      fun v => storeVehicle renamed { v with customerId := row.id }
    let orders ← (db.orders.rows.filter fun o => o.customerId = old.id).mapM
      fun o => storeOrder { o with customerId := row.id }
    .ok (postgres.applyAll renamed (vehicles.flatten ++ orders.flatten))

/-- The nested writes of the two relations of a customer. -/
def Platform.customerRelations (p : Platform) (fields : List (String × Json)) (id : Uuid) (db : Db) :
    Except UpdateError Db := do
  let db' ← match fields.lookup "vehicles" with
    | none => .ok db
    | some v => p.nested "Customer.vehicles" id v db
  match fields.lookup "serviceOrders" with
  | none => .ok db'
  | some v => p.nested "Customer.serviceOrders" id v db'

/-- `prisma.customer.update`, with a unique violation translated. -/
def Platform.customerUpdate (p : Platform) (key : Uuid) (data : Json) (now : ℕ) (db : Db) :
    Except UpdateError Db :=
  match data with
  | .obj fields =>
      if fields.all (fun f => customerFields.contains f.1) then
        match db.customers.find? key with
        | none => .error (.failed (.db .recordNotFound))
        | some row => do
            let row' ← p.customerRow fields now row
            let db' ← (db.storeCustomerAs row row').mapError
              fun failure => .failed (translatingUniqueViolation failure)
            p.customerRelations fields row'.id db'
      else .error .refusedArgument
  | _ => .error .refusedArgument

/-- `PostgresCustomerRepository.update`. -/
def CustomerRepository.updateBody (p : Platform) (id : IdText) (data : Json) (now : ℕ) (db : Db) :
    Except UpdateError (Option Db) :=
  match id.column? with
  | none => .ok none
  | some key =>
      match (db.customers.find? key).filter (fun c => c.deletedAt.isNone) with
      | none => .ok none
      | some _ => (p.customerUpdate key data now db).map some

/-- The check of a new phone number, which only a text can pass. -/
def UpdateCustomer.checkPhone : Option Json → Except UpdateError Unit
  | none => .ok ()
  | some (.str phone) =>
      if validatePhone phone then .ok ()
      else .error (.failed (.app (.validation "Invalid phone number")))
  | some _ => .error .typeError

/-- The checks of `UpdateCustomerUseCase`. -/
def UpdateCustomer.checkBody (data : Json) : Except UpdateError Unit :=
  if (data.field? "taxId").isSome || (data.field? "taxType").isSome then
    .error (.failed (.app (.validation "taxId and taxType cannot be updated")))
  else UpdateCustomer.checkPhone (data.field? "phone")

/-- `UpdateCustomerUseCase.execute`. -/
def UpdateCustomer.executeBody (p : Platform) (id : IdText) (data : Json) (now : ℕ) (db : Db) :
    Except UpdateError Db := do
  UpdateCustomer.checkBody data
  let updated ← CustomerRepository.updateBody p id data now db
  match updated with
  | none => .error (.failed (.app (.notFound "Customer")))
  | some db' => .ok db'

/-- `PUT /customers/:id`: the tables after it. -/
def CustomerController.update (p : Platform) (id : IdText) (body : Json) (now : ℕ) (db : Db) :
    Except UpdateError Db :=
  match body with
  | .obj _ | .arr _ => UpdateCustomer.executeBody p id body now db
  | _ => .error .badRequest

end CarRepairShop
