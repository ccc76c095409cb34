import CarRepairShop.Lifecycle
import CarRepairShop.StockSpecs

/-! # What each operation commits

The specification of every operation at its commit: `Committed R G op result
tx db` says what the transaction `tx` of a unit of work that returned `result`
does to the committed tables `db` it is about to change, when `R` bounds what
the others did while it ran and `G` was true of its own steps.

Nothing here is about interleavings any more. Each clause speaks of the tables
just before the commit, the last writes, and (through `Was`) of what had been
read before.
-/

namespace CarRepairShop

open Lib Txn

/-! ## Tables a transaction leaves alone -/

/-- No order is written, and no message stored or recorded. -/
structure Quiet (ws : List Write) : Prop where
  orders : ∀ o, lastOrder ws o = none
  stored : stored ws = []
  processed : ∀ m, lastProcessed ws m = none

/-- The only thing left of items is `x` of item `i`. -/
structure OnlyItem (i : Uuid) (x : Option ItemRow) (ws : List Write) : Prop where
  item : lastItem ws i = some x
  others : ∀ j, j ≠ i → lastItem ws j = none

/-- Writes of an order leave the items as they are. -/
theorem OnlyItem.append {i : Uuid} {x : Option ItemRow} {ws ws' : List Write}
    (h : OnlyItem i x ws) (hno : ∀ j, lastItem ws' j = none) : OnlyItem i x (ws ++ ws') where
  item := by
    rw [lastItem, lastOf_append]
    rw [show lastOf (Write.item? i) ws' = none from hno i]
    exact h.item
  others := by
    intro j hj
    rw [lastItem, lastOf_append]
    rw [show lastOf (Write.item? j) ws' = none from hno j]
    exact h.others j hj

theorem OnlyItem.one {row : ItemRow} (hc : row.Checks) :
    OnlyItem row.id (some row) [.putItem row hc] where
  item := (lastItem_snoc [] hc row.id).trans (if_pos rfl)
  others := by
    intro j hj
    exact (lastItem_snoc [] hc j).trans (if_neg fun h => hj h.symm)

section Clauses

variable (R : List Write → Db → Db → Prop) (G : ShopTx → Stmt → Db → Prop)

/-- Item `i` was in the catalogue. -/
def ItemThere (db : Db) (i : Uuid) : Prop := Was R (fun d => (d.items.find? i).isSome = true) db

/-- Service `s` was in the catalogue. -/
def ServiceThere (db : Db) (s : Uuid) : Prop :=
  Was R (fun d => (d.services.find? s).isSome = true) db

/-! ## Orders -/

/-- An update of order `o` that took it from the committed row `r₀` to `r₁`. -/
structure OrderCommit (o : Uuid) (data : ServiceOrderChanges) (expectedVersion : Option ℕ)
    (r₀ r₁ : OrderRow) (tx : ShopTx) (db : Db) : Prop where
  found : db.orders.find? o = some r₀
  order : lastOrder tx.writes o = some r₁
  others : ∀ o', o' ≠ o → lastOrder tx.writes o' = none
  revision : Revision data r₀ r₁
  claims : claims tx.trace = [⟨o, expectedVersion, 1⟩]
  expected : ∀ v, expectedVersion = some v → r₀.version = v

/-- The opening of an order. -/
structure OrderOpened (input : CreateServiceOrderInput) (o : Uuid) (row : OrderRow)
    (message : OutboxRow) (tx : ShopTx) (db : Db) : Prop where
  isNew : db.orders.find? o = none
  order : lastOrder tx.writes o = some row
  others : ∀ o', o' ≠ o → lastOrder tx.writes o' = none
  status : row.status = .received
  version : row.version = 0
  budgetTotal : row.budgetTotal = none
  services : row.services.map some = input.services.map IdText.stored?
  items : row.items.map (fun x => (some x.itemId, x.quantity)) =
    input.items.map (fun x => (x.itemId.stored?, x.quantity))
  history : ∃ t, row.history = [{ fromStatus := none, toStatus := .received, changedAt := t }]
  shift : Shift tx.writes db (lineUnits row.items) (fun _ => 0)
  stored : stored tx.writes = [message]
  carries : Carries message o { destination := .executionCommands, type := .enqueueDiagnosis
                                serviceOrderId := o.text, payload := .empty }
  processed : ∀ m, lastProcessed tx.writes m = none
  claims : claims tx.trace = []
  customerThere : Was R (fun d => (d.customers.find? row.customerId).isSome = true) db
  servicesThere : ∀ s ∈ row.services, ServiceThere R db s
  itemsThere : ∀ x ∈ row.items, ItemThere R db x.itemId

/-! ## Line editors -/

/-- The lines of an entity that was read with item lines `lines`. -/
def entityItems (lines : List ItemLine) : List OSItem :=
  lines.map fun l => ⟨l.itemId.text, l.quantity⟩

/-- The lines of an entity that was read with service lines `ids`. -/
def entityServices (ids : List Uuid) : List OSService := ids.map fun s => ⟨s.text⟩

/-- What every line editor has in common: it read the lines `ids` and `lines`
of order `o` in `DIAGNOSIS`, and later claimed whatever version was there. -/
structure Edited (o : Uuid) (ids : List Uuid) (lines : List ItemLine) (data : ServiceOrderChanges)
    (r₀ r₁ : OrderRow) (itemWrites : List Write) (tx : ShopTx) (db : Db) : Prop where
  commit : OrderCommit o data none r₀ r₁ tx db
  readStatus : Was R (fun d => ∃ r, d.orders.find? o = some r ∧ r.status = .diagnosis) db
  readServices : Was R (fun d => ∃ r, d.orders.find? o = some r ∧ r.services = ids) db
  readItems : Was R (fun d => ∃ r, d.orders.find? o = some r ∧ r.items = lines) db
  servicesRead : serviceLinesRead o tx.trace = some ids
  itemsRead : itemLinesRead o tx.trace = some lines
  claimed : Was R (fun d => d.orders.find? o = some r₀ ∧ ∃ tx' : ShopTx,
    (∀ o, lastOrder tx'.writes o = none) ∧ serviceLinesRead o tx'.trace = some ids ∧
      itemLinesRead o tx'.trace = some lines ∧
      G tx' (.claimVersion o none) (postgres.view tx' d)) db
  writes : ∃ ws, tx.writes = itemWrites ++ ws ∧ OrderWrites o r₁ ws
  itemWrites : ItemWrites itemWrites ∧ itemWrites.length ≤ 1
  servicesThere : data.services.isSome = true → ∀ s ∈ r₁.services, ServiceThere R db s
  itemsThere : data.items.isSome = true → ∀ x ∈ r₁.items, ItemThere R db x.itemId

/-- `AddItemToOS`: the units are reserved relative to the committed counter. -/
structure ItemAdded (o : Uuid) (itemId : IdText) (quantity : ℤ) (i : Uuid) (ids : List Uuid)
    (lines : List ItemLine) (r₀ r₁ : OrderRow) (itemWrites : List Write) (tx : ShopTx)
    (db : Db) : Prop where
  item : itemId.column? = some i
  edited : Edited R G o ids lines
    { items := some (addedLines (entityItems lines) itemId quantity) } r₀ r₁ itemWrites tx db
  shift : Shift tx.writes db (unitsAt i quantity) (fun _ => 0)
  available : ∃ row, db.items.find? i = some row ∧
    row.stockQuantity - row.reservedQuantity ≥ quantity

/-- The counter write of `RemoveItemFromOS`: what was read before, less the
quantity of the line, whatever the counter is by now. -/
structure CounterSet (i : Uuid) (quantity : ℤ) (readRow row : ItemRow) (tx : ShopTx) (db : Db) :
    Prop where
  read : itemRowRead i tx.trace = some (some readRow)
  readBefore : Was R (fun d => d.items.find? i = some readRow) db
  found : db.items.find? i = some row
  only : OnlyItem i
    (some { row with reservedQuantity := readRow.reservedQuantity - quantity }) tx.writes
  written : Was R (fun d => d.items.find? i = some row ∧ ∃ tx' : ShopTx, tx'.writes = [] ∧
    itemRowRead i tx'.trace = some (some readRow) ∧
    G tx' (.updateItem i { reservedQuantity := some (readRow.reservedQuantity - quantity) })
      (postgres.view tx' d)) db

/-- `RemoveItemFromOS`. -/
structure ItemRemoved (o : Uuid) (itemId : IdText) (line : ItemLine) (ids : List Uuid)
    (lines : List ItemLine) (r₀ r₁ : OrderRow) (itemWrites : List Write) (tx : ShopTx)
    (db : Db) : Prop where
  item : itemId = line.itemId.text
  inOrder : line ∈ lines
  edited : Edited R G o ids lines
    { items := some ((entityItems lines).filter fun l => l.itemId ≠ itemId) } r₀ r₁ itemWrites
    tx db
  counter : (itemWrites = [] ∧ Was R (fun d => d.items.find? line.itemId = none) db) ∨
    ∃ readRow row, CounterSet R G line.itemId line.quantity readRow row tx db

/-- `AddServiceToOS`. -/
structure ServiceAdded (o : Uuid) (serviceId : IdText) (ids : List Uuid)
    (lines : List ItemLine) (r₀ r₁ : OrderRow) (tx : ShopTx) (db : Db) : Prop where
  named : ∃ s, serviceId.column? = some s
  isNew : (entityServices ids).any (fun s => s.serviceId = serviceId) = false
  edited : Edited R G o ids lines
    { services := some (entityServices ids ++ [⟨serviceId⟩]) } r₀ r₁ [] tx db

/-- `RemoveServiceFromOS`. -/
structure ServiceRemoved (o : Uuid) (serviceId : IdText) (ids : List Uuid)
    (lines : List ItemLine) (r₀ r₁ : OrderRow) (tx : ShopTx) (db : Db) : Prop where
  there : (entityServices ids).any (fun s => s.serviceId = serviceId) = true
  edited : Edited R G o ids lines
    { services := some ((entityServices ids).filter fun s => s.serviceId ≠ serviceId) } r₀ r₁ []
    tx db

/-! ## Messages -/

/-- What the lines of a budget are about: a service once, or an item in a
quantity. -/
def BudgetLine.subject (line : BudgetLine) : BudgetLineKind × IdText × ℤ :=
  (line.kind, line.referenceId, line.quantity)

/-- The subjects of the budget of an order: every service once, every item at
the quantity ordered. -/
def OrderRow.budget (r : OrderRow) : List (BudgetLineKind × IdText × ℤ) :=
  r.services.map (fun s => (.service, s.text, 1)) ++
    r.items.map fun l => (.item, l.itemId.text, l.quantity)

/-- The payload of each command about the order `r`, sent for `reason`. -/
def CommandPayload (r : OrderRow) (reason : Option CompensationReason) :
    SagaCommandType → Payload → Prop
  | .enqueueDiagnosis, payload => payload = .empty
  | .generateBudget, payload => ∃ command, payload = .generateBudget command ∧
      command.lines.map BudgetLine.subject = r.budget
  | .requestPayment, payload => payload = .empty
  | .enqueueRepair, payload => ∃ command, payload = .enqueueRepair command ∧
      command.tasks.map (·.serviceId) = r.services.map Uuid.text
  | .cancelExecution, payload => ∃ why, reason = some why ∧ payload = .reason why
  | .cancelBudget, payload => ∃ why, reason = some why ∧ payload = .reason why

/-- The stored row `message` is the command `type` about the order `r`. -/
structure IsCommand (r : OrderRow) (reason : Option CompensationReason) (message : OutboxRow)
    (type : SagaCommandType) : Prop where
  order : message.serviceOrderId = r.id
  isType : message.type = type
  destination : message.destination = queueOf type
  payload : CommandPayload r reason type message.payload
  unpublished : message.publishedAt = none

/-- A reaction carried out on order `o`, with the version that was read: all
of it, in one transaction that also records the message `m`. -/
structure Performed (reaction : Reaction) (o m : Uuid) (data : ServiceOrderChanges)
    (r₀ r₁ : OrderRow) (tx : ShopTx) (db : Db) : Prop where
  commit : OrderCommit o data (some r₀.version) r₀ r₁ tx db
  noServices : data.services = none
  noItems : data.items = none
  status : data.status = reaction.status
  shift : Shift tx.writes db (fun i => reaction.reserved * lineUnits r₀.items i)
    (fun i => reaction.stocked * lineUnits r₀.items i)
  stored : List.Forall₂ (IsCommand r₀ reaction.reason) (stored tx.writes) reaction.commands
  recorded : ∀ m', (lastProcessed tx.writes m').isSome = true ↔ m' = m
  claimed : Was R (fun d => d.orders.find? o = some r₀ ∧ ∃ tx' : ShopTx,
    (∀ o, lastOrder tx'.writes o = none) ∧
      G tx' (.claimVersion o (some r₀.version)) (postgres.view tx' d)) db

/-- The message was recorded, and nothing else written. -/
structure OnlyRecorded (m : Uuid) (tx : ShopTx) : Prop where
  writes : ∃ row : ProcessedRow, row.messageId = m ∧ tx.writes = [.putProcessed row]
  claims : claims tx.trace = []

/-- How the handling of a message ends: `expected` are the statuses it is due
in, and `Effect` says what happens when it is. -/
inductive Processed (messageId orderId : IdText) (expected : ServiceOrderSaga.Expected)
    (Effect : Uuid → Uuid → ShopTx → Db → Prop) :
    SagaReplyOutcome → ShopTx → Db → Prop where
  | duplicate {tx : ShopTx} {db : Db} (m : Uuid) (hm : messageId.stored? = some m)
      (recorded : ∃ r, db.processed.find? m = some r) (writes : tx.writes = [])
      (claims : claims tx.trace = []) :
      Processed messageId orderId expected Effect .duplicate tx db
  | ignored {tx : ShopTx} {db : Db} (m : Uuid) (hm : messageId.stored? = some m)
      (isNew : db.processed.find? m = none) (only : OnlyRecorded m tx)
      (why : ∀ o, orderId.column? = some o →
        Was R (fun d => ∀ r, d.orders.find? o = some r → expected.admits r.status = false) db) :
      Processed messageId orderId expected Effect .ignored tx db
  | applied {tx : ShopTx} {db : Db} (m o : Uuid) (hm : messageId.stored? = some m)
      (isNew : db.processed.find? m = none) (ho : orderId.column? = some o)
      (status : Was R (fun d => ∃ r, d.orders.find? o = some r ∧
        expected.admits r.status = true) db)
      (effect : Effect m o tx db) : Processed messageId orderId expected Effect .applied tx db

/-- The effect of a reply that is due. -/
def ReplyApplied (reply : SagaReply) (m o : Uuid) (tx : ShopTx) (db : Db) : Prop :=
  match replyReaction reply.type with
  | none => OnlyRecorded m tx
  | some reaction => ∃ data r₀ r₁, Performed R G reaction o m data r₀ r₁ tx db ∧
      r₀.status ∈ ServiceOrderSaga.expectedStatus reply.type ∧
      (reply.type = .budgetGenerated → ∃ total,
        reply.payload.lookup "total" = some (.num (.finite total)) ∧
        data.budgetTotal = some total) ∧
      (reply.type ≠ .budgetGenerated → data.budgetTotal = none) ∧
      (reply.type = .diagnosisCompleted → Was R (fun d => ∃ row,
        d.customers.find? r₀.customerId = some row ∧ row.deletedAt = none) db)

/-- The effect of a dead command that is due. -/
def FailureApplied (command : FailedSagaCommand) (m o : Uuid) (tx : ShopTx) (db : Db) : Prop :=
  match failedCommandReaction command.type with
  | none => OnlyRecorded m tx
  | some reaction => ∃ data r₀ r₁, Performed R G reaction o m data r₀ r₁ tx db ∧
      (ServiceOrderSaga.failedCommand command.type).1.admits r₀.status = true ∧
      data.budgetTotal = none

/-- The commit gives order `o`, which was there, another status. -/
def StatusMoved (o : Uuid) (tx : ShopTx) (db : Db) : Prop :=
  ∃ r₀ r₁, db.orders.find? o = some r₀ ∧ lastOrder tx.writes o = some r₁ ∧ r₁.status ≠ r₀.status

theorem not_statusMoved {o : Uuid} {tx : ShopTx} {db : Db} (h : lastOrder tx.writes o = none) :
    ¬ StatusMoved o tx db := by
  rintro ⟨r₀, r₁, -, hlast, -⟩
  rw [h] at hlast
  cases hlast

/-- An update gives its own order another status, when it sets one. -/
theorem OrderCommit.statusMoved_iff {o o' : Uuid} {data : ServiceOrderChanges} {expected : Option ℕ}
    {r₀ r₁ : OrderRow} {tx : ShopTx} {db : Db} (h : OrderCommit o data expected r₀ r₁ tx db) :
    StatusMoved o' tx db ↔ o' = o ∧ data.status.getD r₀.status ≠ r₀.status := by
  have hstatus := h.revision.status
  constructor
  · rintro ⟨a, b, ha, hb, hne⟩
    -- an update writes no order but its own
    by_cases ho : o' = o
    · subst ho
      obtain rfl : r₀ = a := Option.some.inj (h.found.symm.trans ha)
      obtain rfl : r₁ = b := Option.some.inj (h.order.symm.trans hb)
      exact ⟨rfl, by rw [← hstatus]; exact hne⟩
    · rw [h.others o' ho] at hb
      cases hb
  · rintro ⟨rfl, hne⟩
    exact ⟨r₀, r₁, h.found, h.order, by rw [hstatus]; exact hne⟩

/-! ## All operations -/

/-- What a unit of work commits. -/
def Committed (op : Op) (result : Outcome) (tx : ShopTx) (db : Db) : Prop :=
  match op with
  | .createServiceOrder input _ => ∃ o row message, OrderOpened R input o row message tx db
  | .addItemToOS osId itemId quantity => ∃ o i ids lines r₀ r₁ ws, osId.column? = some o ∧
      ItemAdded R G o itemId quantity i ids lines r₀ r₁ ws tx db
  | .removeItemFromOS osId itemId => ∃ o line ids lines r₀ r₁ ws, osId.column? = some o ∧
      ItemRemoved R G o itemId line ids lines r₀ r₁ ws tx db
  | .addServiceToOS osId serviceId => ∃ o ids lines r₀ r₁, osId.column? = some o ∧
      ServiceAdded R G o serviceId ids lines r₀ r₁ tx db
  | .removeServiceFromOS osId serviceId => ∃ o ids lines r₀ r₁, osId.column? = some o ∧
      ServiceRemoved R G o serviceId ids lines r₀ r₁ tx db
  | .deliverOS osId => ∃ o r₀ r₁ data, osId.column? = some o ∧
      OrderCommit o data (some r₀.version) r₀ r₁ tx db ∧ data.services = none ∧
      data.items = none ∧ data.status = some .delivered ∧ data.budgetTotal = none ∧
      canTransition r₀.status .delivered = true ∧
      stored tx.writes = [] ∧ (∀ m, lastProcessed tx.writes m = none) ∧
      ∀ i, lastItem tx.writes i = none
  | .handle reply _ => ∃ res, result = .saga res ∧
      Processed R reply.messageId reply.serviceOrderId
        (.oneOf (ServiceOrderSaga.expectedStatus reply.type)) (ReplyApplied R G reply) res.outcome
        tx db
  | .handleFailedCommand command _ => ∃ res, result = .saga res ∧
      Processed R command.messageId command.serviceOrderId
        (ServiceOrderSaga.failedCommand command.type).1 (FailureApplied R G command) res.outcome
        tx db
  | .createItem .. => Quiet tx.writes ∧ claims tx.trace = [] ∧ ∃ i row,
      db.items.find? i = none ∧ OnlyItem i (some row) tx.writes ∧ row.reservedQuantity = 0
  | .updateItem .. => Quiet tx.writes ∧ claims tx.trace = [] ∧ ∃ i row row',
      db.items.find? i = some row ∧ OnlyItem i (some row') tx.writes ∧
      row'.reservedQuantity = row.reservedQuantity
  | .deleteItem _ => Quiet tx.writes ∧ claims tx.trace = [] ∧ ((∀ i, lastItem tx.writes i = none) ∨
      ∃ i, (db.items.find? i).isSome = true ∧ OnlyItem i none tx.writes ∧
        Was R (fun d => ∀ row ∈ d.orders.rows, ∀ l ∈ row.items, l.itemId ≠ i) db)
  | _ => RegistryWrites tx.writes ∧ claims tx.trace = [] ∧
      ∀ s, lastService tx.writes s = some none →
        Was R (fun d => ∀ row ∈ d.orders.rows, s ∉ row.services) db

end Clauses

end CarRepairShop
