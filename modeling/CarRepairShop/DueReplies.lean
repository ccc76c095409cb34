import Mathlib.Algebra.Order.BigOperators.Group.List
import CarRepairShop.Progress
import CarRepairShop.ForeignKeys
import CarRepairShop.Stock

/-! # Due replies

When a reply finds its order in a status it expects, does the orchestrator
apply it? The errors it could throw are excluded one by one by what holds after
every serial run: the ledger (`LedgerInvariant`) has the units to release and
to consume, the foreign keys (`ForeignKeys`) have the services and items of the
lines, and the status is one the state machine leads on from.

Two errors are left. The budget is not made for a customer who has been
deleted, since deleting one is an update that no foreign key stops; and the
version of an order is an `INTEGER` column. `due_reply_applied_iff` says that
there is no other.
-/

namespace CarRepairShop

open Lib Txn Prog

/-! ## Loops over the lines of an order -/

section Loops

variable {v : Db}

/-- A loop that reads: each round leaves the tables, and `P` relates what it
was given to what it found. -/
theorem readEach_succeeds {α β : Type} {f : α → Work β} {P : α → β → Prop} {xs : List α}
    (hf : ∀ x ∈ xs, (f x).Succeeds postgres (fun y v' => P x y ∧ v' = v) v) :
    (each f xs).Succeeds postgres (fun ys v' => (∀ x ∈ xs, ∃ y ∈ ys, P x y) ∧ v' = v) v := by
  refine Succeeds.each (I := fun done out v' => (∀ x ∈ done, ∃ y ∈ out, P x y) ∧ v' = v) ?_ ?_
  · simp
  · rintro done x rest out v' hxs ⟨hdone, rfl⟩
    have hmem : x ∈ xs := by simp [hxs]
    refine (hf x hmem).mono ?_
    rintro y v'' ⟨hy, rfl⟩
    refine ⟨?_, rfl⟩
    intro x' hx'
    rcases List.mem_append.1 hx' with hold | hlast
    · rcases hdone x' hold with ⟨y', hy', hP⟩
      exact ⟨y', List.mem_append_left _ hy', hP⟩
    · rw [List.mem_singleton.1 hlast]
      exact ⟨y, by simp, hy⟩

/-- The units of the lines are reserved. -/
def UnitsReserved (v : Db) (lines : List ItemLine) : Prop :=
  ∀ l ∈ lines, ∃ row, v.items.find? l.itemId = some row ∧ l.quantity ≤ row.reservedQuantity

/-- Moving the item of one line leaves the units of the other lines: they are
of other items. -/
theorem UnitsReserved.moved {l : ItemLine} {lines : List ItemLine} {dr ds : ℤ} {v₁ : Db}
    (h : UnitsReserved v (l :: lines)) (hother : l.itemId ∉ lines.map (·.itemId))
    (hmoved : MovedOne v l.itemId dr ds v₁) : UnitsReserved v₁ lines := by
  intro l' hl'
  have hne : l'.itemId ≠ l.itemId := by
    intro heq
    apply hother
    rw [← heq]
    exact List.mem_map_of_mem hl'
  rcases h l' (List.mem_cons_of_mem _ hl') with ⟨row, hrow, hunits⟩
  refine ⟨row, ?_, hunits⟩
  rw [hmoved.items, hrow, Option.map_some, if_neg hne]

/-- A loop that takes the units of each line off its item. -/
theorem takeEach_succeeds {f : OSItem → Work Unit} (ds : ℤ → ℤ)
    (hf : ∀ (v : Db) (l : ItemLine) (row : ItemRow), v.items.find? l.itemId = some row →
      0 < l.quantity → l.quantity ≤ row.reservedQuantity →
      (f ⟨l.itemId.text, l.quantity⟩).Succeeds postgres
        (fun _ v' => MovedOne v l.itemId (-l.quantity) (ds l.quantity) v') v)
    {lines : List ItemLine} (hnodup : (lines.map (·.itemId)).Nodup)
    (hpositive : ∀ l ∈ lines, 0 < l.quantity) (hreserved : UnitsReserved v lines) :
    (each f (entityItems lines)).Succeeds postgres (fun _ v' => v' = { v with items := v'.items })
      v := by
  induction lines generalizing v with
  | nil => rfl
  | cons l lines ih =>
      rw [List.map_cons, List.nodup_cons] at hnodup
      rcases hreserved l List.mem_cons_self with ⟨row, hrow, hunits⟩
      refine (hf v l row hrow (hpositive l List.mem_cons_self) hunits).seq ?_
      intro _ v₁ hmoved
      have hrest := hreserved.moved hnodup.1 hmoved
      refine (ih hnodup.2 (fun l' hl' => hpositive l' (List.mem_cons_of_mem _ hl')) hrest).seq ?_
      intro _ v₂ hv₂
      show v₂ = _
      rw [hv₂, hmoved.rest]

end Loops

namespace ServiceOrderSaga

section Effects

variable {v : Db} {o : Uuid} {row : OrderRow}

/-! ## Writing the order -/

/-- An order can be saved while its version can grow. -/
theorem save_succeeds {changes : ServiceOrderChanges} (hrow : v.orders.find? o = some row)
    (hroom : (row.version : ℤ) < maxInteger) (hservices : changes.services = none)
    (hitems : changes.items = none)
    (hbudget : ∀ total ∈ changes.budgetTotal, 0 ≤ total ∧ toDecimal total ≤ maxDecimal) :
    (save row.entity changes).Succeeds postgres (fun _ _ => True) v := by
  have hchecks : row.Checks := Table.check_of_find? (α := OrderRow) hrow
  have hcol : row.entity.id.column? = some o := by
    rw [← order_id hrow]
    rfl
  -- the row the update leaves, whatever time it is written at
  let after : OrderRow :=
    { changes.toOrderScalar.apply { row with version := row.version + 1 } with
      history := row.history ++ statusChange row.status changes.status 0 }
  have hrev : Revision changes row after := by
    constructor
    · rfl
    · intro _
      rfl
    · intro l hl
      rw [hservices] at hl
      cases hl
    · intro _
      rfl
    · intro l hl
      rw [hitems] at hl
      cases hl
    · exact ⟨0, rfl⟩
  have hafterBudget : ∀ t ∈ after.budgetTotal, 0 ≤ t ∧ t ≤ maxDecimal := by
    intro t ht
    have hor : (changes.budgetTotal.map toDecimal).or row.budgetTotal = some t := ht
    -- a new total was checked by the caller, an old one by the table
    rcases Option.or_eq_some_iff.1 hor with hnew | ⟨-, hold⟩
    · rcases Option.map_eq_some_iff.1 hnew with ⟨total, htotal, rfl⟩
      rcases hbudget total htotal with ⟨hnonneg, hfits⟩
      exact ⟨toDecimal_nonneg hnonneg, hfits⟩
    · exact ⟨hchecks.budgetNonNegative t hold, hchecks.budgetFits t hold⟩
  have hafter : after.Checks := by
    refine ⟨hchecks.oneLinePerService, hchecks.oneLinePerItem, hchecks.quantityPositive,
      hchecks.quantityFits, ?_, ?_, ?_⟩
    · intro t ht
      exact (hafterBudget t ht).1
    · intro t ht
      exact (hafterBudget t ht).2
    · show ((row.version + 1 : ℕ) : ℤ) ≤ maxInteger
      push_cast
      omega
  have hupdate := ServiceOrderRepository.update_succeeds hcol hrow
    (Or.inr rfl) hrev hafter (by simp [hservices]) (by simp [hitems])
  refine hupdate.seq ?_
  intro updated v' hsome
  rcases Option.isSome_iff_exists.1 hsome with ⟨order, rfl⟩
  trivial

/-- A legal move of an order. -/
theorem moveTo_succeeds {status : OSStatus} {changes : ServiceOrderChanges}
    (hrow : v.orders.find? o = some row) (hroom : (row.version : ℤ) < maxInteger)
    (hlegal : canTransition row.status status = true) (hservices : changes.services = none)
    (hitems : changes.items = none) (hbudget : changes.budgetTotal = none) :
    (moveTo row.entity status changes).Succeeds postgres (fun _ _ => True) v := by
  have hassert : assertTransition row.entity.status status = .ok () := if_pos hlegal
  unfold moveTo
  rw [hassert]
  refine save_succeeds hrow hroom hservices hitems ?_
  simp [hbudget]

/-! ## Moving the units -/

theorem releaseLine_succeeds {l : ItemLine} {item : ItemRow}
    (hitem : v.items.find? l.itemId = some item) (hpositive : 0 < l.quantity)
    (hunits : l.quantity ≤ item.reservedQuantity) :
    (releaseLine ⟨l.itemId.text, l.quantity⟩).Succeeds postgres
      (fun _ v' => MovedOne v l.itemId (-l.quantity) 0 v') v := by
  have hchecks : item.Checks := Table.check_of_find? (α := ItemRow) hitem
  -- the checks of the item after the release: only the reserved units fall
  have hafter : (item.shift (-l.quantity) 0).Checks := by
    constructor <;> simp only [ItemRow.shift]
    · exact hchecks.nameFits
    · have hstock := hchecks.stockNonNegative
      omega
    · omega
    · have hwithin := hchecks.reservedWithinStock
      omega
    · exact hchecks.priceNonNegative
    · have hfits := hchecks.stockFits
      omega
    · exact hchecks.priceFits
  unfold releaseLine
  refine (ItemRepository.release_succeeds rfl hitem hunits hafter).seq ?_
  rintro released v' ⟨rfl, hmoved⟩
  exact hmoved

theorem consumeLine_succeeds {l : ItemLine} {item : ItemRow}
    (hitem : v.items.find? l.itemId = some item) (hpositive : 0 < l.quantity)
    (hunits : l.quantity ≤ item.reservedQuantity) :
    (consumeLine ⟨l.itemId.text, l.quantity⟩).Succeeds postgres
      (fun _ v' => MovedOne v l.itemId (-l.quantity) (-l.quantity) v') v := by
  have hchecks : item.Checks := Table.check_of_find? (α := ItemRow) hitem
  have hwithin := hchecks.reservedWithinStock
  -- both counters fall by the line, so reserved stays within stock
  have hafter : (item.shift (-l.quantity) (-l.quantity)).Checks := by
    constructor <;> simp only [ItemRow.shift]
    · exact hchecks.nameFits
    · omega
    · omega
    · omega
    · exact hchecks.priceNonNegative
    · have hfits := hchecks.stockFits
      omega
    · exact hchecks.priceFits
  unfold consumeLine
  refine (ItemRepository.consume_succeeds rfl hitem hunits (hunits.trans hwithin) hafter).seq ?_
  rintro consumed v' ⟨rfl, hmoved⟩
  exact hmoved

theorem releaseReservations_succeeds (hrow : v.orders.find? o = some row)
    (hreserved : UnitsReserved v row.items) :
    (releaseReservations row.entity).Succeeds postgres (fun _ v' => v' = { v with items := v'.items })
      v := by
  have hchecks : row.Checks := Table.check_of_find? (α := OrderRow) hrow
  unfold releaseReservations
  refine (takeEach_succeeds (fun _ => 0) (fun v l item hitem => releaseLine_succeeds hitem)
    hchecks.oneLinePerItem hchecks.quantityPositive hreserved).seq ?_
  intro _ v' hv'
  exact hv'

/-! ## Building the commands -/

/-- Lines can be built when each of them can. -/
theorem mapM_succeeds {α β : Type} {f : α → Except Failure β} {xs : List α}
    (h : ∀ x ∈ xs, ∃ y, f x = .ok y) : ∃ ys, xs.mapM f = .ok ys := by
  induction xs with
  | nil => exact ⟨[], rfl⟩
  | cons x xs ih =>
      rcases h x List.mem_cons_self with ⟨y, hy⟩
      rcases ih fun x' hx' => h x' (List.mem_cons_of_mem _ hx') with ⟨ys, hys⟩
      refine ⟨y :: ys, ?_⟩
      rw [List.mapM_cons, hy, hys]
      rfl

theorem serviceLine_there {services : List Service} {line : OSService}
    (h : ∃ service ∈ services, service.id = line.serviceId) :
    ∃ budgetLine, serviceLine services line = .ok budgetLine := by
  unfold serviceLine
  cases hfind : services.find? (fun candidate => candidate.id = line.serviceId) with
  | none =>
      rcases h with ⟨service, hmem, hid⟩
      have hno := List.find?_eq_none.1 hfind service hmem
      simp [hid] at hno
  | some service => exact ⟨_, rfl⟩

theorem itemLine_there {items : List Item} {line : OSItem}
    (h : ∃ item ∈ items, item.id = line.itemId) :
    ∃ budgetLine, itemLine items line = .ok budgetLine := by
  unfold itemLine
  cases hfind : items.find? (fun candidate => candidate.id = line.itemId) with
  | none =>
      rcases h with ⟨item, hmem, hid⟩
      have hno := List.find?_eq_none.1 hfind item hmem
      simp [hid] at hno
  | some item => exact ⟨_, rfl⟩

/-- The budget of an order whose services and items were found. -/
theorem buildBudgetLines_there {order : ServiceOrder} {services : List Service} {items : List Item}
    (hservices : ∀ line ∈ order.services, ∃ service ∈ services, service.id = line.serviceId)
    (hitems : ∀ line ∈ order.items, ∃ item ∈ items, item.id = line.itemId) :
    ∃ lines, buildBudgetLines order services items = .ok lines := by
  rcases mapM_succeeds fun line hline => serviceLine_there (hservices line hline)
    with ⟨serviceLines, hs⟩
  rcases mapM_succeeds fun line hline => itemLine_there (hitems line hline) with ⟨itemLines, hi⟩
  refine ⟨serviceLines ++ itemLines, ?_⟩
  unfold buildBudgetLines
  rw [hs, hi]
  rfl

/-- A service of an order is found in the catalogue. -/
theorem findService_succeeds {ids : List Uuid}
    (hthere : ∀ s ∈ ids, (v.services.find? s).isSome = true) {line : OSService}
    (hline : line ∈ entityServices ids) :
    (ServiceRepository.findById line.serviceId).Succeeds postgres
      (fun found v' => (∃ service, found = some service ∧ service.id = line.serviceId) ∧ v' = v)
      v := by
  rcases List.mem_map.1 hline with ⟨s, hs, rfl⟩
  rcases Option.isSome_iff_exists.1 (hthere s hs) with ⟨service, hservice⟩
  have hid : service.id = s := Table.key_of_find? (α := ServiceRow) hservice
  refine (ServiceRepository.findById_succeeds rfl).mono ?_
  rintro found v' ⟨rfl, rfl⟩
  refine ⟨⟨service.toEntity, ?_, ?_⟩, rfl⟩
  · rw [hservice]
    rfl
  · rw [ServiceRow.toEntity, hid]

/-- An item of an order is found in the catalogue. -/
theorem findItem_succeeds {lines : List ItemLine}
    (hthere : ∀ l ∈ lines, (v.items.find? l.itemId).isSome = true) {line : OSItem}
    (hline : line ∈ entityItems lines) :
    (ItemRepository.findById line.itemId).Succeeds postgres
      (fun found v' => (∃ item, found = some item ∧ item.id = line.itemId) ∧ v' = v) v := by
  rcases List.mem_map.1 hline with ⟨l, hl, rfl⟩
  rcases Option.isSome_iff_exists.1 (hthere l hl) with ⟨item, hitem⟩
  have hid : item.id = l.itemId := item_id hitem
  refine (ItemRepository.findById_succeeds rfl).mono ?_
  rintro found v' ⟨rfl, rfl⟩
  refine ⟨⟨item.toEntity, ?_, ?_⟩, rfl⟩
  · rw [hitem]
    rfl
  · rw [ItemRow.toEntity, hid]

theorem budgetCommandFor_succeeds (hkeys : row.KeysThere v)
    (hactive : ∀ c, v.customers.find? row.customerId = some c → c.deletedAt = none) :
    (budgetCommandFor row.entity).Succeeds postgres (fun _ v' => v' = v) v := by
  rcases Option.isSome_iff_exists.1 hkeys.customer with ⟨customer, hcustomer⟩
  unfold budgetCommandFor
  refine (CustomerRepository.findById_succeeds rfl hcustomer (hactive customer hcustomer)).seq ?_
  rintro found v₁ ⟨rfl, rfl⟩
  refine (readEach_succeeds fun line hline => findService_succeeds hkeys.services hline).seq ?_
  rintro catalogServices v₂ ⟨hservices, rfl⟩
  refine (readEach_succeeds fun line hline => findItem_succeeds hkeys.items hline).seq ?_
  rintro catalogItems v₃ ⟨hitems, rfl⟩
  -- the lines only look up what was found just now
  have hlines : ∃ lines, buildBudgetLines row.entity (catalogServices.filterMap id)
      (catalogItems.filterMap id) = .ok lines := by
    apply buildBudgetLines_there
    · intro line hline
      rcases hservices line hline with ⟨found, hmem, service, rfl, hid⟩
      exact ⟨service, by simpa using hmem, hid⟩
    · intro line hline
      rcases hitems line hline with ⟨found, hmem, item, rfl, hid⟩
      exact ⟨item, by simpa using hmem, hid⟩
  rcases hlines with ⟨lines, hlines⟩
  rw [hlines]
  rfl

theorem repairCommandFor_succeeds
    (hservices : ∀ s ∈ row.services, (v.services.find? s).isSome = true) :
    (repairCommandFor row.entity).Succeeds postgres (fun _ v' => v' = v) v := by
  unfold repairCommandFor
  refine (readEach_succeeds (P := fun _ _ => True) ?_).seq ?_
  · intro line hline
    unfold repairTask
    refine (findService_succeeds hservices hline).seq ?_
    rintro found v' ⟨⟨service, rfl, -⟩, rfl⟩
    exact ⟨trivial, rfl⟩
  · rintro tasks v' ⟨-, rfl⟩
    rfl

/-! ## The effects -/

/-- What holds of an order and its tables after any serial run. -/
structure Backed (v : Db) (o : Uuid) (row : OrderRow) : Prop where
  found : v.orders.find? o = some row
  keys : row.KeysThere v
  reserved : row.status.active = true → UnitsReserved v row.items

/-- Moving an order whose items were moved before. -/
theorem moveTo_after {status : OSStatus} {v' : Db} (h : Backed v o row)
    (hitems : v' = { v with items := v'.items }) (hroom : (row.version : ℤ) < maxInteger)
    (hlegal : canTransition row.status status = true) :
    (moveTo row.entity status).Succeeds postgres (fun _ _ => True) v' := by
  refine moveTo_succeeds (o := o) ?_ hroom hlegal rfl rfl rfl
  rw [hitems]
  exact h.found

theorem diagnosisStarted_succeeds (h : Backed v o row) (hroom : (row.version : ℤ) < maxInteger)
    (hstatus : row.status = .received) :
    (diagnosisStarted row.entity).Succeeds postgres (fun _ _ => True) v :=
  moveTo_after h rfl hroom (by rw [hstatus]; rfl)

theorem diagnosisCompleted_succeeds (traceparent : Option String) (h : Backed v o row)
    (hroom : (row.version : ℤ) < maxInteger) (hstatus : row.status = .diagnosis)
    (hactive : ∀ c, v.customers.find? row.customerId = some c → c.deletedAt = none) :
    (diagnosisCompleted traceparent row.entity).Succeeds postgres (fun _ _ => True) v := by
  unfold diagnosisCompleted
  refine (budgetCommandFor_succeeds h.keys hactive).seq ?_
  rintro command v₁ rfl
  refine (moveTo_after h rfl hroom (by rw [hstatus]; rfl)).seq ?_
  intro updated v₂ _
  exact (Outbox.add_succeeds traceparent rfl).seq fun _ _ _ => trivial

theorem budgetGenerated_succeeds {reply : SagaReply} {total : ℚ} (h : Backed v o row)
    (hroom : (row.version : ℤ) < maxInteger)
    (htotal : reply.payload.lookup "total" = some (.num (.finite total))) (hnonneg : 0 ≤ total)
    (hfits : toDecimal total ≤ maxDecimal) :
    (budgetGenerated row.entity reply).Succeeds postgres (fun _ _ => True) v := by
  unfold budgetGenerated
  simp only [htotal]
  refine save_succeeds h.found hroom rfl rfl ?_
  intro t ht
  have heq : total = t := Option.some.inj ht
  rw [← heq]
  exact ⟨hnonneg, hfits⟩

theorem budgetApproved_succeeds (traceparent : Option String) (h : Backed v o row)
    (hroom : (row.version : ℤ) < maxInteger) (hstatus : row.status = .waitingApproval) :
    (budgetApproved traceparent row.entity).Succeeds postgres (fun _ _ => True) v := by
  unfold budgetApproved
  refine (moveTo_after h rfl hroom (by rw [hstatus]; rfl)).seq ?_
  intro updated v₁ _
  exact (Outbox.add_succeeds traceparent rfl).seq fun _ _ _ => trivial

theorem budgetRejected_succeeds (traceparent : Option String) (h : Backed v o row)
    (hroom : (row.version : ℤ) < maxInteger) (hstatus : row.status = .waitingApproval) :
    (budgetRejected traceparent row.entity).Succeeds postgres (fun _ _ => True) v := by
  have hreserved := h.reserved (by rw [hstatus]; rfl)
  unfold budgetRejected
  refine (releaseReservations_succeeds h.found hreserved).seq ?_
  intro _ v₁ hv₁
  refine (moveTo_after h hv₁ hroom (by rw [hstatus]; rfl)).seq ?_
  intro updated v₂ _
  exact (Outbox.add_succeeds traceparent rfl).seq fun _ _ _ => trivial

theorem paymentConfirmed_succeeds (traceparent : Option String) (h : Backed v o row)
    (hroom : (row.version : ℤ) < maxInteger) (hstatus : row.status = .approved) :
    (paymentConfirmed traceparent row.entity).Succeeds postgres (fun _ _ => True) v := by
  have hreserved := h.reserved (by rw [hstatus]; rfl)
  have hchecks : row.Checks := Table.check_of_find? (α := OrderRow) h.found
  unfold paymentConfirmed
  refine (takeEach_succeeds (fun q => -q) (fun v l item hitem => consumeLine_succeeds hitem)
    hchecks.oneLinePerItem hchecks.quantityPositive hreserved).seq ?_
  intro _ v₁ hv₁
  have hservices : ∀ s ∈ row.services, (v₁.services.find? s).isSome = true := by
    rw [hv₁]
    exact h.keys.services
  refine (repairCommandFor_succeeds hservices).seq ?_
  rintro command v₂ rfl
  refine (moveTo_after h hv₁ hroom (by rw [hstatus]; rfl)).seq ?_
  intro updated v₃ _
  exact (Outbox.add_succeeds traceparent rfl).seq fun _ _ _ => trivial

theorem paymentFailed_succeeds (traceparent : Option String) (h : Backed v o row)
    (hroom : (row.version : ℤ) < maxInteger) (hstatus : row.status = .approved) :
    (paymentFailed traceparent row.entity).Succeeds postgres (fun _ _ => True) v := by
  have hreserved := h.reserved (by rw [hstatus]; rfl)
  unfold paymentFailed
  refine (releaseReservations_succeeds h.found hreserved).seq ?_
  intro _ v₁ hv₁
  refine (moveTo_after h hv₁ hroom (by rw [hstatus]; rfl)).seq ?_
  intro updated v₂ _
  refine (Outbox.add_succeeds traceparent rfl).seq ?_
  intro _ v₃ _
  exact (Outbox.add_succeeds traceparent rfl).seq fun _ _ _ => trivial

theorem repairStarted_succeeds (h : Backed v o row) (hroom : (row.version : ℤ) < maxInteger)
    (hstatus : row.status = .paid) :
    (repairStarted row.entity).Succeeds postgres (fun _ _ => True) v := by
  intro startedAt
  exact moveTo_succeeds h.found hroom (by rw [hstatus]; rfl) rfl rfl rfl

theorem repairCompleted_succeeds (h : Backed v o row) (hroom : (row.version : ℤ) < maxInteger)
    (hstatus : row.status = .execution) :
    (repairCompleted row.entity).Succeeds postgres (fun _ _ => True) v := by
  intro finishedAt
  exact moveTo_succeeds h.found hroom (by rw [hstatus]; rfl) rfl rfl rfl

/-- The replies that only confirm a compensation; they write nothing to the order. -/
def confirms : SagaReplyType → Bool
  | .executionCancelled | .budgetCancelled => true
  | _ => false

/-- What a due reply can still run into: a deleted customer, when it is the one
that asks for the budget, and the end of the `INTEGER` column of the version. -/
structure Unblocked (type : SagaReplyType) (v : Db) (row : OrderRow) : Prop where
  customer : type = .diagnosisCompleted →
    ∀ c, v.customers.find? row.customerId = some c → c.deletedAt = none
  version : confirms type = false → (row.version : ℤ) < maxInteger

/-- A `BudgetGenerated` comes with a total that the column can hold. -/
def TotalFits (reply : SagaReply) : Prop :=
  reply.type = .budgetGenerated → ∃ total,
    reply.payload.lookup "total" = some (.num (.finite total)) ∧ 0 ≤ total ∧
      toDecimal total ≤ maxDecimal

/-- The effect of a due reply that nothing blocks. -/
theorem apply_succeeds (traceparent : Option String) {reply : SagaReply} (h : Backed v o row)
    (hdue : row.status ∈ expectedStatus reply.type) (hfree : Unblocked reply.type v row)
    (htotal : TotalFits reply) :
    (apply traceparent row.entity reply).Succeeds postgres (fun _ _ => True) v := by
  unfold apply
  cases htype : reply.type <;> rw [htype] at hdue hfree
  case diagnosisStarted =>
    exact diagnosisStarted_succeeds h (hfree.version rfl) (List.mem_singleton.1 hdue)
  case diagnosisCompleted =>
    exact diagnosisCompleted_succeeds traceparent h (hfree.version rfl)
      (List.mem_singleton.1 hdue) (hfree.customer rfl)
  case budgetGenerated =>
    rcases htotal htype with ⟨total, hlookup, hnonneg, hfits⟩
    exact budgetGenerated_succeeds h (hfree.version rfl) hlookup hnonneg hfits
  case budgetApproved =>
    exact budgetApproved_succeeds traceparent h (hfree.version rfl) (List.mem_singleton.1 hdue)
  case budgetRejected =>
    exact budgetRejected_succeeds traceparent h (hfree.version rfl) (List.mem_singleton.1 hdue)
  case paymentConfirmed =>
    exact paymentConfirmed_succeeds traceparent h (hfree.version rfl) (List.mem_singleton.1 hdue)
  case paymentFailed =>
    exact paymentFailed_succeeds traceparent h (hfree.version rfl) (List.mem_singleton.1 hdue)
  case repairStarted =>
    exact repairStarted_succeeds h (hfree.version rfl) (List.mem_singleton.1 hdue)
  case repairCompleted =>
    exact repairCompleted_succeeds h (hfree.version rfl) (List.mem_singleton.1 hdue)
  case executionCancelled => trivial
  case budgetCancelled => trivial

/-- A fresh due reply that nothing blocks is applied. -/
theorem handle_succeeds (traceparent : Option String) {reply : SagaReply} {m : Uuid}
    (h : Backed v o row) (ho : reply.serviceOrderId.column? = some o)
    (hm : reply.messageId.stored? = some m) (hfresh : v.processed.find? m = none)
    (hdue : row.status ∈ expectedStatus reply.type) (hfree : Unblocked reply.type v row)
    (htotal : TotalFits reply) :
    (handle reply traceparent).Succeeds postgres (fun result _ => result.outcome = .applied) v := by
  unfold handle process
  refine (ProcessedMessages.markProcessed_succeeds reply.type.name hm hfresh).seq ?_
  rintro marked v₁ ⟨rfl, hv₁⟩
  -- recording the message leaves the other tables
  have hbacked : Backed v₁ o row := by
    rw [hv₁]
    exact { h with keys := { h.keys with } }
  have hstill : Unblocked reply.type v₁ row := by
    rw [hv₁]
    exact { hfree with }
  refine (ServiceOrderRepository.findById_succeeds ho hbacked.found).seq ?_
  rintro order v₂ ⟨rfl, rfl⟩
  have hadmits : (Expected.oneOf (expectedStatus reply.type)).admits row.entity.status = true := by
    have hstatus : row.entity.status = row.status := rfl
    simpa [Expected.admits, hstatus] using hdue
  simp only [hadmits, Bool.not_true, Bool.false_eq_true, if_false]
  unfold replyEffect
  refine Succeeds.seq (P := fun _ _ => True) ?_ ?_
  · exact (apply_succeeds traceparent hbacked hdue hstill htotal).seq fun _ _ _ => trivial
  · intro applied v₃ _
    rfl

end Effects

end ServiceOrderSaga

/-! ## Every serial run -/

section Reachable

variable {db : Db}

/-- A line has no more units than the order holds of its item. -/
theorem quantity_le_lineUnits {lines : List ItemLine} (hpositive : ∀ l ∈ lines, 0 < l.quantity)
    {l : ItemLine} (hl : l ∈ lines) : l.quantity ≤ lineUnits lines l.itemId := by
  have hnonneg : ∀ x ∈ lines.map (fun x => if x.itemId = l.itemId then x.quantity else 0), 0 ≤ x := by
    intro x hx
    rcases List.mem_map.1 hx with ⟨line, hline, rfl⟩
    have hline := hpositive line hline
    split <;> omega
  have hmem : l.quantity ∈ lines.map (fun x => if x.itemId = l.itemId then x.quantity else 0) :=
    List.mem_map.2 ⟨l, hl, if_pos rfl⟩
  exact List.single_le_sum hnonneg _ hmem

/-- An order holds no more than all orders together. -/
theorem heldBy_le_held {row : OrderRow} (hrow : row ∈ db.orders.rows) (i : Uuid) :
    heldBy i row ≤ db.held i := by
  have hnonneg : ∀ x ∈ db.orders.rows.map (heldBy i), 0 ≤ x := by
    intro x hx
    rcases List.mem_map.1 hx with ⟨r, hr, rfl⟩
    unfold heldBy
    split
    · apply List.sum_nonneg
      intro y hy
      rcases List.mem_map.1 hy with ⟨line, hline, rfl⟩
      have hpositive := (db.orders.checked r hr).quantityPositive line hline
      split <;> omega
    · exact le_rfl
  exact List.single_le_sum hnonneg _ (List.mem_map_of_mem hrow)

/-- What an order needs is there after any serial run. -/
theorem LedgerInvariant.backed (h : LedgerInvariant db) (hkeys : ForeignKeys db) {o : Uuid}
    {row : OrderRow} (hrow : db.orders.find? o = some row) : ServiceOrderSaga.Backed db o row where
  found := hrow
  keys := hkeys.orders o row hrow
  reserved := by
    intro hactive l hl
    have hchecks : row.Checks := Table.check_of_find? (α := OrderRow) hrow
    rcases Option.isSome_iff_exists.1 ((hkeys.orders o row hrow).items l hl) with ⟨item, hitem⟩
    refine ⟨item, hitem, ?_⟩
    calc l.quantity ≤ lineUnits row.items l.itemId :=
          quantity_le_lineUnits hchecks.quantityPositive hl
      _ = heldBy l.itemId row := by rw [heldBy, if_pos hactive]
      _ ≤ db.held l.itemId := heldBy_le_held (Table.mem_of_find? hrow) l.itemId
      _ = item.reservedQuantity := (h.reserved l.itemId item hitem).symm

end Reachable

theorem ServiceOrderSaga.confirms_of_no_reaction {type : SagaReplyType}
    (h : replyReaction type = none) : confirms type = true := by
  cases type <;> first | rfl | cases h

/-- A reply that was applied was not blocked. -/
theorem ServiceOrderSaga.unblocked_of_applied {w w' : World} {now : ℕ} {reply : SagaReply}
    {traceparent : Option String} {result : SagaReplyResult} {o : Uuid} {row : OrderRow}
    (hrow : w.db.orders.find? o = some row) (ho : reply.serviceOrderId.column? = some o)
    (hrun : w.attempt now (program (.handle reply traceparent)) = .ok (.saga result, w'))
    (happlied : result.outcome = .applied) : Unblocked reply.type w.db row := by
  rcases World.attempt_committed hrun with ⟨tx, nextId, ⟨res, hres, hprocessed⟩, -⟩
  cases hres
  rw [happlied] at hprocessed
  cases hprocessed with
  | applied m o' hm hnew ho' hstatus heffect =>
      have heq : o' = o := Option.some.inj (ho'.symm.trans ho)
      subst heq
      unfold ReplyApplied at heffect
      cases hreaction : replyReaction reply.type with
      | none =>
          -- a reply without a reaction needs neither
          constructor
          · intro htype
            rw [htype] at hreaction
            cases hreaction
          · intro hwrites
            rw [confirms_of_no_reaction hreaction] at hwrites
            cases hwrites
      | some reaction =>
          rw [hreaction] at heffect
          rcases heffect with ⟨data, r₀, r₁, hperformed, -, -, -, hcustomer⟩
          have hsame : r₀ = row := Option.some.inj (hperformed.commit.found.symm.trans hrow)
          subst hsame
          constructor
          · intro htype c hc
            rcases was_alone.mp (hcustomer htype) with ⟨c', hc', hactive⟩
            rw [hc, Option.some.injEq] at hc'
            rw [hc']
            exact hactive
          · intro _
            have hfits := (checks_of_lastOrder hperformed.commit.order).1.versionFits
            have hversion : r₁.version = r₀.version + 1 :=
              congrArg OrderColumns.version hperformed.commit.revision.columns
            rw [hversion] at hfits
            push_cast at hfits
            omega

/-- After any sequence of operations run one at a time: a fresh reply that is
due for its order is applied exactly if it is not blocked. -/
theorem due_reply_applied_iff (ops : List (ℕ × Op)) {o m : Uuid} {row : OrderRow}
    {reply : SagaReply} (hrow : (World.performAll {} ops).db.orders.find? o = some row)
    (ho : reply.serviceOrderId.column? = some o) (hm : reply.messageId.stored? = some m)
    (hfresh : (World.performAll {} ops).db.processed.find? m = none)
    (hdue : row.status ∈ ServiceOrderSaga.expectedStatus reply.type)
    (htotal : ServiceOrderSaga.TotalFits reply) (traceparent : Option String) (now : ℕ) :
    (∃ result w', (World.performAll {} ops).attempt now (program (.handle reply traceparent)) =
        .ok (.saga result, w') ∧ result.outcome = .applied) ↔
      ServiceOrderSaga.Unblocked reply.type (World.performAll {} ops).db row := by
  have hledger : LedgerInvariant (World.performAll {} ops).db :=
    World.performAll_induction (fun _ _ _ _ h hc => h.commit hc) ops .start
  have hkeys : ForeignKeys (World.performAll {} ops).db := World.performAll_foreignKeys .start ops
  constructor
  · rintro ⟨result, w', hrun, happlied⟩
    exact ServiceOrderSaga.unblocked_of_applied hrow ho hrun happlied
  · intro hfree
    generalize World.performAll {} ops = w at *
    have hhandle := ServiceOrderSaga.handle_succeeds traceparent (hledger.backed hkeys hrow) ho hm
      hfresh hdue hfree htotal
    have hprogram : (program (.handle reply traceparent)).Succeeds postgres
        (fun out _ => ∃ result, out = .saga result ∧ result.outcome = .applied)
        (postgres.view {} w.db) :=
      hhandle.seq fun result _ happlied => ⟨result, rfl, happlied⟩
    rcases hprogram.run now w.nextId with ⟨fin, hrun, result, hvalue, happlied⟩
    refine ⟨result, ⟨postgres.applyAll w.db fin.tx.writes, fin.nextId⟩, ?_, happlied⟩
    unfold World.attempt
    rw [hrun, ← hvalue]

/-! ## A customer who stays and one who leaves -/

/-- The first order, of customer 0, is in diagnosis. -/
def firstDiagnosis : List (ℕ × Op) :=
  [(0, .createCustomer ⟨"Ana", "529.982.247-25", .cpf, "ana@mail", "11987654321"⟩),
   (1, .createVehicle ⟨Uuid.text 0, "ABC-1234", "VW", "Gol", 2020⟩),
   (2, .createItem "Oil" 30 10),
   (3, .createService "Oil change" 80 30),
   (4, .createServiceOrder ⟨Uuid.text 0, Uuid.text 1, [Uuid.text 3], [⟨Uuid.text 2, 2⟩]⟩ none),
   (5, .handle ⟨Uuid.text 60, .diagnosisStarted, Uuid.text 4, []⟩ none)]

/-- The diagnosis of order 4 is completed. -/
def diagnosisDone : SagaReply := ⟨Uuid.text 61, .diagnosisCompleted, Uuid.text 4, []⟩

theorem completed_diagnosis_applied :
    ∃ result w', (World.performAll {} firstDiagnosis).attempt 6
        (program (.handle diagnosisDone none)) = .ok (.saga result, w') ∧
      result.outcome = .applied := by
  have hstate : ∃ row ∈ (World.performAll {} firstDiagnosis).db.orders.find? 4,
      row.status = .diagnosis ∧ row.version = 1 ∧
      ((World.performAll {} firstDiagnosis).db.customers.find? row.customerId).map
        (fun c => c.deletedAt) = some none := by
    decide +kernel
  have hfresh : (World.performAll {} firstDiagnosis).db.processed.find? 61 = none := by
    decide +kernel
  rcases hstate with ⟨row, hrow, hstatus, hversion, hcustomer⟩
  refine (due_reply_applied_iff firstDiagnosis hrow rfl rfl hfresh ?_ ?_ none 6).2 ?_
  · rw [hstatus]
    decide
  · intro htype
    cases htype
  · constructor
    · intro _ c hc
      simpa [hc] using hcustomer
    · intro _
      rw [hversion]
      decide

/-- The same order, after its customer was deleted. -/
def customerLeft : World :=
  World.performAll {} (firstDiagnosis ++ [(6, .deleteCustomer (Uuid.text 0))])

/-- The reply is due and fresh, and the orchestrator throws. -/
theorem deleted_customer_blocks_diagnosis :
    ∃ row, customerLeft.db.orders.find? 4 = some row ∧
      row.status ∈ ServiceOrderSaga.expectedStatus diagnosisDone.type ∧
      customerLeft.db.processed.find? 61 = none ∧
      customerLeft.attempt 7 (program (.handle diagnosisDone none))
        = .error (.app (.notFound s!"Customer {Uuid.text 0}")) := by
  have hstate : ∃ row ∈ customerLeft.db.orders.find? 4,
      row.status ∈ ServiceOrderSaga.expectedStatus diagnosisDone.type := by
    decide +kernel
  have hfresh : customerLeft.db.processed.find? 61 = none := by
    decide +kernel
  have hfails : (customerLeft.attempt 7 (program (.handle diagnosisDone none))).map (fun _ => ())
      = .error (.app (.notFound s!"Customer {Uuid.text 0}")) := by
    decide +kernel
  rcases hstate with ⟨row, hrow, hstatus⟩
  refine ⟨row, hrow, hstatus, hfresh, ?_⟩
  generalize customerLeft.attempt _ _ = attempt at hfails ⊢
  cases attempt with
  | ok _ => cases hfails
  | error failure =>
      cases hfails
      rfl

end CarRepairShop
