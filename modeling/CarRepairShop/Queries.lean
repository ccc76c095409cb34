import CarRepairShop.Progress

/-! # Reads

The use cases that read an order or a customer for a request. A read is not part
of a unit of work: it is a function of the committed tables.

The history of an order is sorted by the database, which may answer rows of one
time in any order: `orderBy` is the order it answers in.
-/

namespace CarRepairShop

open Txn Prog

/-- A read: what it answers on the committed tables, or what it throws. -/
abbrev Query (α : Type) := Db → Except Failure α

/-- The answer of a unit of work that only reads. -/
def Query.of {α : Type} (p : Work α) : Query α := fun db =>
  (p.run postgres 0 db 0 {}).map (·.value)

theorem Query.of_succeeds {α : Type} {p : Work α} {a : α} {db : Db}
    (h : p.Succeeds postgres (fun b _ => b = a) db) : Query.of p db = .ok a := by
  have hview : p.Succeeds postgres (fun b _ => b = a) (postgres.view ({} : ShopTx) db) := h
  rcases hview.run 0 0 with ⟨fin, hrun, hvalue⟩
  simp [Query.of, hrun, hvalue, Except.map]

theorem Query.of_throws {α : Type} {p : Work α} {failure : Failure} {db : Db}
    (h : p.Ends postgres (fun _ _ => False) (fun e => e = failure) db) :
    Query.of p db = .error failure := by
  have hview : p.Ends postgres (fun _ _ => False) (fun e => e = failure)
      (postgres.view ({} : ShopTx) db) := h
  rcases hview.run 0 0 with ⟨fin, _, hvalue⟩ | ⟨e, hrun, rfl⟩
  · exact hvalue.elim
  · simp [Query.of, hrun, Except.map]

/-! ## Orders -/

/-- The row of an order, under any spelling of its id. -/
def Db.order? (db : Db) (id : IdText) : Option OrderRow := id.column?.bind db.orders.find?

/-- `findStatusHistory`. -/
def ServiceOrderRepository.findStatusHistory (orderBy : List StatusChange → List StatusChange)
    (serviceOrderId : IdText) : Query (List StatusChange) := fun db =>
  match serviceOrderId.column? with
  | none => .ok []
  | some key => .ok (orderBy (((db.orders.find? key).map (·.history)).getD []))

/-- `assertOwnership` (`ownership.ts`): an id that is missing or empty restricts nothing. -/
def assertOwnership (os : ServiceOrder) (requesterCustomerId : Option String) :
    Except Failure Unit :=
  match requesterCustomerId with
  | none => .ok ()
  | some customerId =>
      if customerId ≠ "" ∧ os.customerId.render ≠ customerId then
        .error (.app (.forbidden "Forbidden"))
      else .ok ()

def GetServiceOrder.execute (osId : IdText) (requesterCustomerId : Option String) :
    Query ServiceOrder := fun db => do
  let os ← Query.of (findOSOrThrow osId) db
  assertOwnership os requesterCustomerId
  .ok os

/-- `ServiceOrderHistory`. -/
structure ServiceOrderHistory where
  serviceOrderId : IdText
  history : List StatusChange
deriving DecidableEq, Repr

def GetServiceOrderHistory.execute (orderBy : List StatusChange → List StatusChange)
    (osId : IdText) (requesterCustomerId : Option String) : Query ServiceOrderHistory := fun db => do
  let os ← Query.of (findOSOrThrow osId) db
  assertOwnership os requesterCustomerId
  let history ← ServiceOrderRepository.findStatusHistory orderBy os.id db
  .ok ⟨os.id, history⟩

/-- An order is found under any spelling of its id. -/
theorem findOSOrThrow_query (osId : IdText) (db : Db) :
    Query.of (findOSOrThrow osId) db = match db.order? osId with
      | none => .error (.app (.notFound "Service order"))
      | some row => .ok row.entity := by
  unfold Db.order?
  cases hcol : osId.column? with
  | none =>
      apply Query.of_throws
      simp [findOSOrThrow, ServiceOrderRepository.findById, hcol, Ends, throwApp]
  | some o =>
      cases hrow : db.orders.find? o with
      | none =>
          simp only [Option.bind_some, hrow]
          apply Query.of_throws
          simp [findOSOrThrow, ServiceOrderRepository.findById, hcol, sql, Prog.query, Bind.bind,
            Prog.bind, Ends, postgres, exec, hrow, throwApp]
      | some row =>
          simp only [Option.bind_some, hrow]
          apply Query.of_succeeds
          unfold findOSOrThrow
          refine (ServiceOrderRepository.findById_succeeds hcol hrow).seq ?_
          rintro os v' ⟨rfl, -⟩
          rfl

theorem Db.order?_id {db : Db} {osId : IdText} {row : OrderRow} (h : db.order? osId = some row) :
    db.orders.find? row.id = some row := by
  rcases Option.bind_eq_some_iff.mp h with ⟨o, -, hrow⟩
  rw [order_id hrow]
  exact hrow

/-- Somebody who may see the order gets it. -/
theorem GetServiceOrder.execute_eq (osId : IdText) (requesterCustomerId : Option String) (db : Db) :
    GetServiceOrder.execute osId requesterCustomerId db = match db.order? osId with
      | none => .error (.app (.notFound "Service order"))
      | some row => (assertOwnership row.entity requesterCustomerId).map fun _ => row.entity := by
  unfold GetServiceOrder.execute
  rw [findOSOrThrow_query]
  cases db.order? osId with
  | none => rfl
  | some row =>
      cases hown : assertOwnership row.entity requesterCustomerId <;>
        simp [Bind.bind, Except.bind, Except.map, hown]

/-- Somebody who may see the order gets its history. -/
theorem GetServiceOrderHistory.execute_eq (orderBy : List StatusChange → List StatusChange)
    (osId : IdText) (requesterCustomerId : Option String) (db : Db) :
    GetServiceOrderHistory.execute orderBy osId requesterCustomerId db = match db.order? osId with
      | none => .error (.app (.notFound "Service order"))
      | some row => (assertOwnership row.entity requesterCustomerId).map fun _ =>
          ⟨row.id.text, orderBy row.history⟩ := by
  unfold GetServiceOrderHistory.execute
  rw [findOSOrThrow_query]
  cases hrow : db.order? osId with
  | none => rfl
  | some row =>
      have hid : row.entity.id = row.id.text := rfl
      cases hown : assertOwnership row.entity requesterCustomerId <;>
        simp [Bind.bind, Except.bind, Except.map, hown, ServiceOrderRepository.findStatusHistory,
          hid, Db.order?_id hrow]

/-! ## Customers -/

/-- `findByTaxIdIncludingInactive`. -/
def CustomerRepository.findByTaxIdIncludingInactive (taxId : String) : Query (Option Customer) :=
  fun db =>
    if TextFits taxId then
      .ok ((db.customers.rows.find? (fun c => c.taxId = taxId)).map CustomerRow.toEntity)
    else .error (.db .invalidText)

/-- `GetCustomerByTaxId`: the tax id is looked up as it is given. -/
def GetCustomerByTaxId.execute (taxId : String) : Query Customer := fun db => do
  let customer ← Query.of (CustomerRepository.findByTaxId taxId) db
  match customer with
  | none => .error (.app (.notFound "Customer"))
  | some customer => .ok customer

/-- `CustomerLookupResult`. -/
structure CustomerLookupResult where
  id : IdText
  name : String
  active : Bool
deriving DecidableEq, Repr

def LookupCustomerByCpf.execute (cpf : String) : Query CustomerLookupResult := fun db =>
  let normalized := String.ofList (onlyDigits cpf)
  if !validateCPF normalized then .error (.app (.validation "Invalid CPF"))
  else do
    let customer ← CustomerRepository.findByTaxIdIncludingInactive normalized db
    match customer with
    | none => .error (.app (.notFound "Customer"))
    | some customer => .ok ⟨customer.id, customer.name, customer.deletedAt.isNone⟩

theorem GetCustomerByTaxId.execute_eq {taxId : String} (hfits : TextFits taxId) (db : Db) :
    GetCustomerByTaxId.execute taxId db =
      match db.customers.rows.find? (fun c => c.taxId = taxId ∧ c.deletedAt.isNone) with
      | none => .error (.app (.notFound "Customer"))
      | some row => .ok row.toEntity := by
  have hread : Query.of (CustomerRepository.findByTaxId taxId) db = .ok
      ((db.customers.rows.find? (fun c => c.taxId = taxId ∧ c.deletedAt.isNone)).map
        CustomerRow.toEntity) := by
    apply Query.of_succeeds
    exact succeeds_read (if_pos hfits) rfl
  unfold GetCustomerByTaxId.execute
  rw [hread]
  cases db.customers.rows.find? (fun c => c.taxId = taxId ∧ c.deletedAt.isNone) <;> rfl

/-- A text that PostgreSQL refuses is an error of the database. -/
theorem GetCustomerByTaxId.execute_unfit {taxId : String} (hfits : ¬TextFits taxId) (db : Db) :
    GetCustomerByTaxId.execute taxId db = .error (.db .invalidText) := by
  have hread : Query.of (CustomerRepository.findByTaxId taxId) db
      = .error (.db .invalidText) := by
    apply Query.of_throws
    refine ends_sql.mpr ?_
    simp only [exec, if_neg hfits]
  unfold GetCustomerByTaxId.execute
  rw [hread]
  rfl

end CarRepairShop
