import Mathlib.Data.Rat.Floor

/-! # Identifiers, entities and errors

The types the use cases work with (`entities/`, `adapters/gateways/uuid.ts`).

Rows are identified by UUID columns; requests and messages name them by
strings. `IdText` keeps the two apart: it is a caller's string, read the way
`isUuid` reads it (`column?`), or the way a UUID column does that gets it
unchecked (`stored?`).
-/

namespace CarRepairShop

/-! ## Identifiers -/

/-- The value of a UUID column. `randomUUID` draws a new one each time. -/
abbrev Uuid := ℕ

/-- An identifier as a string. `spelled id casing` is a spelling of a UUID
that `UUID_RE` accepts, where `casing` has a bit for each hexadecimal letter
in upper case (0 is the form PostgreSQL prints); any other string is
`malformed`, though it may be a UUID in a spelling of another shape. -/
inductive IdText where
  | spelled (id : Uuid) (casing : ℕ)
  | malformed (text : String)
deriving DecidableEq, Repr

/-- The value of a string that `isUuid` (`uuid.ts`) lets through to a UUID
column. -/
def IdText.column? : IdText → Option Uuid
  | .spelled id _ => some id
  | .malformed _ => none

/-- A UUID as PostgreSQL prints it. -/
def Uuid.text (id : Uuid) : IdText := .spelled id 0

@[simp] theorem Uuid.column?_text (id : Uuid) : (Uuid.text id).column? = some id := rfl

@[simp] theorem Uuid.text_inj {a b : Uuid} : Uuid.text a = Uuid.text b ↔ a = b := by
  simp [Uuid.text]

/-- One hexadecimal digit and whether it is an upper-case letter. -/
def hexDigit? (c : Char) : Option (ℕ × Bool) :=
  if '0' ≤ c ∧ c ≤ '9' then some (c.toNat - '0'.toNat, false)
  else if 'a' ≤ c ∧ c ≤ 'f' then some (c.toNat - 'a'.toNat + 10, false)
  else if 'A' ≤ c ∧ c ≤ 'F' then some (c.toNat - 'A'.toNat + 10, true)
  else none

/-- Groups of four hexadecimal digits after `value`, with a hyphen between two of
them or without: the value, and what follows. -/
def readGroups : ℕ → List Char → ℕ → Option (ℕ × List Char)
  | 0, cs, value => some (value, cs)
  | n + 1, a :: b :: c :: d :: cs, value =>
      match hexDigit? a, hexDigit? b, hexDigit? c, hexDigit? d with
      | some a, some b, some c, some d =>
          let rest := if n ≠ 0 ∧ cs.head? = some '-' then cs.tail else cs
          readGroups n rest (16 * (16 * (16 * (16 * value + a.1) + b.1) + c.1) + d.1)
      | _, _, _, _ => none
  | _ + 1, _, _ => none

/-- A UUID in any spelling that PostgreSQL takes: the hyphens may be left out or
follow any group of four digits, and braces may stand around it. -/
def readUuid (text : String) : Option Uuid :=
  match text.toList with
  | '{' :: cs =>
      match readGroups 8 cs 0 with
      | some (id, ['}']) => some id
      | _ => none
  | cs =>
      match readGroups 8 cs 0 with
      | some (id, []) => some id
      | _ => none

/-- The value a UUID column takes from a string that nobody checked. -/
def IdText.stored? : IdText → Option Uuid
  | .spelled id _ => some id
  | .malformed text => readUuid text

@[simp] theorem Uuid.stored?_text (id : Uuid) : (Uuid.text id).stored? = some id := rfl

/-- A column reads what `isUuid` lets through. -/
theorem IdText.stored?_of_column? {id : IdText} {u : Uuid} (h : id.column? = some u) :
    id.stored? = some u := by
  cases id with
  | spelled _ _ => exact h
  | malformed _ => cases h

/-- A UUID without its hyphens, as `isUuid` refuses it and a column takes it. -/
example : (IdText.malformed "00000000000000000000000000000004").column? = none ∧
    (IdText.malformed "00000000000000000000000000000004").stored? = some 4 ∧
    (IdText.malformed "{00000000-0000-0000-0000-000000000004}").stored? = some 4 := by decide

/-- Reads hexadecimal digits after `value`, with the casing bits so far. -/
def readHex : List Char → ℕ → ℕ → Option (ℕ × ℕ)
  | [], value, casing => some (value, casing)
  | c :: cs, value, casing =>
      match hexDigit? c with
      | some (d, upper) => readHex cs (16 * value + d) (2 * casing + if upper then 1 else 0)
      | none => none

/-- `UUID_RE`: hexadecimal groups of 8, 4, 4, 4 and 12 digits. -/
def IdText.read (text : String) : IdText :=
  match text.toList.splitOn '-' with
  | [a, b, c, d, e] =>
      if a.length = 8 ∧ b.length = 4 ∧ c.length = 4 ∧ d.length = 4 ∧ e.length = 12 then
        match readHex (a ++ b ++ c ++ d ++ e) 0 0 with
        | some (id, casing) => .spelled id casing
        | none => .malformed text
      else .malformed text
  | _ => .malformed text

/-- The `i`-th hexadecimal digit from the right, in the case the bit says. -/
def hexChar (id casing i : ℕ) : Char :=
  let c := Nat.digitChar (id / 16 ^ i % 16)
  if casing.testBit i then c.toUpper else c

/-- The string itself. -/
def IdText.render : IdText → String
  | .spelled id casing =>
      let digits := (List.range 32).reverse.map (hexChar id casing)
      String.ofList (digits.take 8 ++ '-' :: (digits.drop 8).take 4 ++ '-' :: (digits.drop 12).take 4
        ++ '-' :: (digits.drop 16).take 4 ++ '-' :: digits.drop 20)
  | .malformed text => text

instance : ToString IdText := ⟨IdText.render⟩

/-- A UUID is never written as the empty string. -/
theorem Uuid.render_ne_empty (id : Uuid) : (Uuid.text id).render ≠ "" := by
  intro h
  have hlist := congrArg String.toList h
  simp [Uuid.text, IdText.render] at hlist

/-! ## Orders -/

/-- `OSStatus` (`ServiceOrder.ts`). -/
inductive OSStatus where
  | received
  | diagnosis
  | waitingApproval
  | approved
  | paid
  | execution
  | finished
  | delivered
  | rejected
  | cancelled
deriving DecidableEq, Repr

/-- The name of a status in the code and in its messages. -/
def OSStatus.name : OSStatus → String
  | .received => "RECEIVED"
  | .diagnosis => "DIAGNOSIS"
  | .waitingApproval => "WAITING_APPROVAL"
  | .approved => "APPROVED"
  | .paid => "PAID"
  | .execution => "EXECUTION"
  | .finished => "FINISHED"
  | .delivered => "DELIVERED"
  | .rejected => "REJECTED"
  | .cancelled => "CANCELLED"

/-- An amount of a `DECIMAL(10,2)` column, in cents. -/
abbrev Money := ℤ

/-- `OSService`: one service line of an order. -/
structure OSService where
  serviceId : IdText
deriving DecidableEq, Repr

/-- `OSItem`: one item line of an order. -/
structure OSItem where
  itemId : IdText
  quantity : ℤ
deriving DecidableEq, Repr

/-- `ServiceOrder`. Times are milliseconds. -/
structure ServiceOrder where
  id : IdText
  customerId : IdText
  vehicleId : IdText
  status : OSStatus
  budgetTotal : Option Money
  services : List OSService
  items : List OSItem
  createdAt : ℕ
  startedAt : Option ℕ
  finishedAt : Option ℕ
  deliveredAt : Option ℕ
  version : ℕ
deriving DecidableEq, Repr

/-- A row of `service_order_status_history` (`ServiceOrderStatusChange`);
`fromStatus` is absent for the opening. -/
structure StatusChange where
  fromStatus : Option OSStatus
  toStatus : OSStatus
  changedAt : ℕ
deriving DecidableEq, Repr

/-! ## Catalog and registry -/

/-- `Item`. -/
structure Item where
  id : IdText
  name : String
  price : Money
  stockQuantity : ℤ
  reservedQuantity : ℤ
deriving DecidableEq, Repr

/-- `getAvailableQuantity`. -/
def getAvailableQuantity (item : Item) : ℤ := item.stockQuantity - item.reservedQuantity

/-- `ItemWithAvailable`. -/
structure ItemWithAvailable extends Item where
  availableQuantity : ℤ
deriving DecidableEq, Repr

/-- `Service`. -/
structure Service where
  id : IdText
  name : String
  price : Money
  estimatedMinutes : ℤ
deriving DecidableEq, Repr

/-- `TaxType`. -/
inductive TaxType where
  | cpf
  | cnpj
deriving DecidableEq, Repr

/-- `Customer`. -/
structure Customer where
  id : IdText
  name : String
  taxId : String
  taxType : TaxType
  email : String
  phone : String
  createdAt : ℕ
  updatedAt : ℕ
  deletedAt : Option ℕ
deriving DecidableEq, Repr

/-- `Vehicle`. -/
structure Vehicle where
  id : IdText
  customerId : IdText
  plate : String
  brand : String
  model : String
  year : ℤ
deriving DecidableEq, Repr

/-! ## Errors -/

/-- The subclasses of `AppError` (`AppError.ts`), with what they are given. -/
inductive AppError where
  | notFound (resource : String)
  | validation (message : String)
  | unauthorized (message : String)
  | forbidden (message : String)
  | conflict (message : String)
deriving DecidableEq, Repr

def AppError.message : AppError → String
  | .notFound resource => s!"{resource} not found"
  | .validation message => message
  | .unauthorized message => message
  | .forbidden message => message
  | .conflict message => message

def AppError.statusCode : AppError → ℕ
  | .notFound _ => 404
  | .validation _ => 400
  | .unauthorized _ => 401
  | .forbidden _ => 403
  | .conflict _ => 409

/-- Why the database refuses a statement. -/
inductive DbError where
  | malformedUuid
  | invalidText
  | unique (fields : List String)
  | foreignKey
  | check
  | outOfRange
  | recordNotFound
deriving DecidableEq, Repr

/-- What a unit of work can throw: an error of the application, or one of the
database that nothing translated. -/
inductive Failure where
  | app (error : AppError)
  | db (error : DbError)
deriving DecidableEq, Repr

/-! ## The state machine of an order -/

/-- `VALID_TRANSITIONS` (`serviceOrderStateMachine.ts`). -/
def validTransitions : OSStatus → List OSStatus
  | .received => [.diagnosis, .cancelled]
  | .diagnosis => [.waitingApproval]
  | .waitingApproval => [.approved, .rejected, .cancelled]
  | .approved => [.paid, .cancelled]
  | .paid => [.execution]
  | .execution => [.finished]
  | .finished => [.delivered]
  | .delivered => []
  | .rejected => []
  | .cancelled => []

def canTransition (fromStatus toStatus : OSStatus) : Bool :=
  (validTransitions fromStatus).contains toStatus

/-- `assertTransition`: the error it throws, if any. -/
def assertTransition (fromStatus toStatus : OSStatus) : Except Failure Unit :=
  if canTransition fromStatus toStatus then .ok ()
  else .error (.app (.validation
    s!"Cannot transition from {fromStatus.name} to {toStatus.name}"))

end CarRepairShop
