import CarRepairShop.MessageDeeds

/-! # The effects of a message in two states

The repositories and the effects of the orchestrator in two states that are
`Alike`: each ends both times the same way and with the same deed. The counters
of the items may differ, since other orders hold units of the same items; that
the conditions of `release` and `consume` still answer the same is due to the
ledger, by which the units of an order that is under way are reserved
(`BothReserved`). The order itself may have been written at other times; no effect
reads those (`apply_timeless`).
-/

namespace CarRepairShop

open Lib Txn Prog

/-! ## The repositories -/

section Repositories

variable {o m : Option Uuid} {key : Uuid} {v v' : Db}

/-- Orders that differ in times. -/
def SameOrder (order order' : ServiceOrder) : Prop := order.timeless = order'.timeless

theorem SameOrder.status {order order' : ServiceOrder} (h : SameOrder order order') :
    order.status = order'.status := by
  have hstatus := congrArg ServiceOrder.status h
  exact hstatus

/-- The lines of an order are the same in states that are alike. -/
theorem ServiceOrderRepository.includeRelations_synced
    (halike : Alike (some key) m v.picture v'.picture) {row row' : OrderColumns}
    (hrow : SameColumns key row row') :
    Synced (some key) m SameOrder (includeRelations row) (includeRelations row') v v' := by
  rcases hrow with ⟨hid, ht⟩
  have hid' : row'.id = key := by
    rw [← hid]
    exact (congrArg OrderColumns.id ht).symm
  unfold includeRelations
  refine synced_sql halike (findServiceLines_inStep halike hid hid') ?_
  rintro services _ u u' rfl _ halike
  refine synced_sql halike (findItemLines_inStep halike hid hid') ?_
  rintro items _ w w' rfl _ _
  refine .pure ?_
  show (row.toEntity services items).timeless = (row'.toEntity services items).timeless
  rw [OrderColumns.timeless_toEntity, OrderColumns.timeless_toEntity, ht]

theorem ServiceOrderRepository.recordChange_synced
    (halike : Alike (some key) m v.picture v'.picture) (previous : OSStatus)
    (status : Option OSStatus) :
    Synced (some key) m (fun _ _ => True) (recordChange key previous status)
      (recordChange key previous status) v v' := by
  unfold recordChange
  cases status with
  | none => exact .pure trivial
  | some toStatus =>
      dsimp only
      split
      · exact .pure trivial
      · refine Relates.clock ?_
        intro t t'
        exact synced_sql halike (insertHistory_inStep halike rfl) fun _ _ _ _ _ _ _ => .pure trivial

/-- An update of the scalar columns, with the version that is expected. -/
theorem ServiceOrderRepository.update_synced (halike : Alike (some key) m v.picture v'.picture)
    {id : IdText} (hid : id.column? = some key) {data data' : OrderScalar}
    (hdata : data.timeless = data'.timeless) (expected : Option ℕ) :
    Synced (some key) m (Option.Rel SameOrder) (update id { toOrderScalar := data } expected)
      (update id { toOrderScalar := data' } expected) v v' := by
  unfold update
  rw [hid]
  refine synced_sql halike (claimVersion_inStep halike expected) ?_
  rintro claimed _ v₁ v₁' rfl _ halike
  split
  · refine synced_sql halike (countOrders_inStep halike) ?_
    rintro existing _ v₂ v₂' rfl _ _
    split
    · exact .pure .none
    · exact .throw _ _ _
  · refine synced_sql halike (findStatusOrThrow_inStep halike) ?_
    rintro previous _ v₂ v₂' rfl _ halike
    refine synced_sql halike (updateOrder_inStep halike hdata) ?_
    intro row row' v₃ v₃' hrow _ halike
    refine (includeRelations_synced halike hrow).seq halike ?_
    intro order order' v₄ v₄' horder _ halike
    have hstatus := congrArg OrderScalar.status hdata
    change data.status = data'.status at hstatus
    simp only [← hstatus]
    refine (recordChange_synced halike previous data.status).seq halike ?_
    intro _ _ v₅ v₅' _ _ _
    exact .pure (.some horder)

/-- The registry and the labels of the catalogue are the same in states that are alike; the
counters of the items need not be. -/
theorem CustomerRepository.findById_synced (halike : Alike o m v.picture v'.picture) (id : IdText) :
    Synced o m Eq (findById id) (findById id) v v' := by
  unfold findById
  cases id.column? with
  | none => exact .pure rfl
  | some c =>
      refine synced_sql halike (findActiveCustomer_inStep halike c) ?_
      rintro found _ u u' rfl _ _
      exact .pure rfl

theorem ServiceRepository.findById_synced (halike : Alike o m v.picture v'.picture) (id : IdText) :
    Synced o m Eq (findById id) (findById id) v v' := by
  unfold findById
  cases id.column? with
  | none => exact .pure rfl
  | some s =>
      refine synced_sql halike (findService_inStep halike s) ?_
      rintro found _ u u' rfl _ _
      exact .pure rfl

/-- An item without its counters. -/
def Item.label (item : Item) : Item := { item with stockQuantity := 0, reservedQuantity := 0 }

/-- Items that were found, or not, and differ in counters. -/
def SameLabel (found found' : Option Item) : Prop :=
  found.map Item.label = found'.map Item.label

theorem ItemRepository.findById_synced (halike : Alike o m v.picture v'.picture) (id : IdText) :
    Synced o m SameLabel (findById id) (findById id) v v' := by
  unfold findById
  cases id.column? with
  | none => exact .pure rfl
  | some i =>
      refine synced_sql halike (findItem_inStep halike i) ?_
      intro found found' u u' hfound _ _
      refine .pure ?_
      have hlabel : ∀ x : Option ItemRow, (x.map ItemRow.toEntity).map Item.label =
          (x.map ItemRow.label).map ItemRow.toEntity := by
        intro x
        rw [Option.map_map, Option.map_map]
        rfl
      unfold SameLabel
      rw [hlabel, hlabel, hfound]

theorem Outbox.add_synced (halike : Alike o m v.picture v'.picture) (traceparent : Option String)
    (message : OutgoingMessage) :
    Synced o m (fun _ _ => True) (Outbox.add traceparent message) (Outbox.add traceparent message)
      v v' := by
  unfold Outbox.add
  cases message.serviceOrderId.stored? with
  | none => exact .throw _ _ _
  | some key =>
      refine Relates.draw ?_
      intro n n'
      refine Relates.clock ?_
      intro t t'
      exact synced_sql halike (insertOutbox_inStep rfl) fun _ _ _ _ _ _ _ => .pure trivial

end Repositories

namespace ServiceOrderSaga

/-! ## Moving the units -/

section Loops

variable {o m : Option Uuid} {v v' : Db}

/-- One statement that counts the rows it changed, where both counts are right. -/
theorem takeLine_relates {s : Stmt} {t : s.Resp → Bool} {failure : Failure} {P P' : Db → Prop}
    (h : (sql s >>= fun r => if t r then .pure () else .throw failure).Succeeds postgres
      (fun (_ : Unit) u => P u) v)
    (h' : (sql s >>= fun r => if t r then .pure () else .throw failure).Succeeds postgres
      (fun (_ : Unit) u => P' u) v') :
    (sql s >>= fun r => if t r then .pure () else .throw failure).Relates postgres
      (fun (_ : Unit) u (_ : Unit) u' => P u ∧ P' u')
      (sql s >>= fun r => if t r then .pure () else .throw failure) v v' := by
  rcases h with ⟨r, ws, hexec, hrest⟩
  rcases h' with ⟨r', ws', hexec', hrest'⟩
  refine .answered hexec hexec' ?_
  change Succeeds postgres _ (if t r then .pure () else .throw failure) _ at hrest
  change Succeeds postgres _ (if t r' then .pure () else .throw failure) _ at hrest'
  change Relates postgres _ (if t r then .pure () else .throw failure)
    (if t r' then .pure () else .throw failure) _ _
  cases htest : t r <;> cases htest' : t r' <;> simp only [htest, htest'] at hrest hrest' ⊢
  case true.true => exact .pure ⟨hrest, hrest'⟩
  all_goals first | exact hrest.elim | exact hrest'.elim

/-- The loops over the lines of an order take the same units off both times,
when they are reserved both times. -/
theorem takeEach_synced {f : OSItem → Work Unit} (ds : ℤ → ℤ)
    (hf : ∀ (v v' : Db) (l : ItemLine) (row row' : ItemRow),
      v.items.find? l.itemId = some row → v'.items.find? l.itemId = some row' →
      0 < l.quantity → l.quantity ≤ row.reservedQuantity → l.quantity ≤ row'.reservedQuantity →
      (f ⟨l.itemId.text, l.quantity⟩).Relates postgres
        (fun _ u _ u' => MovedOne v l.itemId (-l.quantity) (ds l.quantity) u ∧
          MovedOne v' l.itemId (-l.quantity) (ds l.quantity) u')
        (f ⟨l.itemId.text, l.quantity⟩) v v')
    {lines : List ItemLine} (hnodup : (lines.map (·.itemId)).Nodup)
    (hpositive : ∀ l ∈ lines, 0 < l.quantity) (hreserved : UnitsReserved v lines)
    (hreserved' : UnitsReserved v' lines) :
    Synced o m (fun _ _ => True) (each f (entityItems lines)) (each f (entityItems lines)) v
      v' := by
  induction lines generalizing v v' with
  | nil => exact .pure trivial
  | cons l lines ih =>
      rw [List.map_cons, List.nodup_cons] at hnodup
      have hrestPositive : ∀ l' ∈ lines, 0 < l'.quantity :=
        fun l' hl' => hpositive l' (List.mem_cons_of_mem _ hl')
      rcases hreserved l List.mem_cons_self with ⟨row, hrow, hunits⟩
      rcases hreserved' l List.mem_cons_self with ⟨row', hrow', hunits'⟩
      refine Relates.seq
        (hf v v' l row row' hrow hrow' (hpositive l List.mem_cons_self) hunits hunits') ?_
      intro _ u _ u' ⟨hmoved, hmoved'⟩
      have hline : Together o m v v' u u' := ⟨_, does_moved hmoved, does_moved hmoved'⟩
      have hrest := ih hnodup.2 hrestPositive (hreserved.moved hnodup.1 hmoved)
        (hreserved'.moved hnodup.1 hmoved')
      refine Relates.seq hrest ?_
      intro _ w _ w' ⟨_, hlines⟩
      exact .pure ⟨trivial, hline.trans hlines⟩

/-- One line is released on both sides, since both sides have its units reserved. -/
theorem releaseLine_relates {l : ItemLine} {item item' : ItemRow}
    (hitem : v.items.find? l.itemId = some item) (hitem' : v'.items.find? l.itemId = some item')
    (hpositive : 0 < l.quantity) (hunits : l.quantity ≤ item.reservedQuantity)
    (hunits' : l.quantity ≤ item'.reservedQuantity) :
    (releaseLine ⟨l.itemId.text, l.quantity⟩).Relates postgres
      (fun _ u _ u' => MovedOne v l.itemId (-l.quantity) 0 u ∧
        MovedOne v' l.itemId (-l.quantity) 0 u') (releaseLine ⟨l.itemId.text, l.quantity⟩) v v' :=
  takeLine_relates (s := .releaseItem l.itemId l.quantity) (t := fun n => decide (n = 1))
    (releaseLine_succeeds hitem hpositive hunits) (releaseLine_succeeds hitem' hpositive hunits')

theorem consumeLine_relates {l : ItemLine} {item item' : ItemRow}
    (hitem : v.items.find? l.itemId = some item) (hitem' : v'.items.find? l.itemId = some item')
    (hpositive : 0 < l.quantity) (hunits : l.quantity ≤ item.reservedQuantity)
    (hunits' : l.quantity ≤ item'.reservedQuantity) :
    (consumeLine ⟨l.itemId.text, l.quantity⟩).Relates postgres
      (fun _ u _ u' => MovedOne v l.itemId (-l.quantity) (-l.quantity) u ∧
        MovedOne v' l.itemId (-l.quantity) (-l.quantity) u')
      (consumeLine ⟨l.itemId.text, l.quantity⟩) v v' :=
  takeLine_relates (s := .consumeItem l.itemId l.quantity) (t := fun n => decide (n = 1))
    (consumeLine_succeeds hitem hpositive hunits) (consumeLine_succeeds hitem' hpositive hunits')

end Loops

/-! ## Building the commands -/

section Commands

variable {o m : Option Uuid} {v v' : Db}

/-- A budget line has the name and the price of its item, not its counters. -/
theorem itemLine_labels (items : List Item) (line : OSItem) :
    itemLine (items.map Item.label) line = itemLine items line := by
  unfold itemLine
  rw [List.find?_map]
  have hsame : (fun candidate : Item => decide (candidate.id = line.itemId)) ∘ Item.label =
      fun candidate => decide (candidate.id = line.itemId) := rfl
  rw [hsame]
  cases items.find? (fun candidate => decide (candidate.id = line.itemId)) <;> rfl

/-- A budget is made of the labels of the items, whatever units are in stock. -/
theorem buildBudgetLines_labels (order : ServiceOrder) (services : List Service)
    {items items' : List Item} (h : items.map Item.label = items'.map Item.label) :
    buildBudgetLines order services items = buildBudgetLines order services items' := by
  have hline : itemLine items = itemLine items' := by
    funext line
    rw [← itemLine_labels items, h, itemLine_labels]
  unfold buildBudgetLines
  rw [hline]

/-- The items that were found, when each of them is found both times. -/
theorem labels_of_found {found found' : List (Option Item)}
    (h : List.Forall₂ SameLabel found found') :
    (found.filterMap id).map Item.label = (found'.filterMap id).map Item.label := by
  induction h with
  | nil => rfl
  | @cons x x' xs xs' hx _ ih =>
      unfold SameLabel at hx
      cases x <;> cases x' <;> simp_all

theorem budgetCommandFor_synced (halike : Alike o m v.picture v'.picture) (order : ServiceOrder) :
    Synced o m Eq (budgetCommandFor order) (budgetCommandFor order) v v' := by
  unfold budgetCommandFor
  refine (CustomerRepository.findById_synced halike order.customerId).seq halike ?_
  rintro customer _ v₁ v₁' rfl _ halike
  cases customer with
  | none => exact .throw _ _ _
  | some customer =>
      refine Synced.seq
        (.each (fun line u u' h => ServiceRepository.findById_synced h line.serviceId)
          order.services halike) halike ?_
      intro catalogServices services' v₂ v₂' hservices _ halike
      refine Synced.seq (.each (fun line u u' h => ItemRepository.findById_synced h line.itemId)
        order.items halike) halike ?_
      intro catalogItems items' v₃ v₃' hitems _ halike
      have hsame : catalogServices = services' := by simpa using hservices
      have hlines := buildBudgetLines_labels order (catalogServices.filterMap id)
        (labels_of_found hitems)
      rw [← hsame, ← hlines]
      refine (synced_ofExcept _).seq halike ?_
      rintro lines _ v₄ v₄' rfl _ _
      exact .pure rfl

theorem repairTask_synced (halike : Alike o m v.picture v'.picture) (line : OSService) :
    Synced o m Eq (repairTask line) (repairTask line) v v' := by
  unfold repairTask
  refine (ServiceRepository.findById_synced halike line.serviceId).seq halike ?_
  rintro service _ u u' rfl _ _
  cases service with
  | none => exact .throw _ _ _
  | some service => exact .pure rfl

theorem repairCommandFor_synced (halike : Alike o m v.picture v'.picture) (order : ServiceOrder) :
    Synced o m Eq (repairCommandFor order) (repairCommandFor order) v v' := by
  unfold repairCommandFor
  refine Synced.seq (.each (fun line u u' h => repairTask_synced h line) order.services halike)
    halike ?_
  intro tasks tasks' u u' htasks _ _
  have hsame : tasks = tasks' := by simpa using htasks
  rw [hsame]
  exact .pure rfl

end Commands

/-! ## The effects -/

section Effects

variable {key : Uuid} {m : Option Uuid} {v v' : Db} {row : OrderRow} (traceparent : Option String)

/-- Saving one order with changes that differ in times. -/
theorem save_synced (halike : Alike (some key) m v.picture v'.picture) {order : ServiceOrder}
    (hid : order.id.column? = some key) {data data' : OrderScalar}
    (hdata : data.timeless = data'.timeless) :
    Synced (some key) m SameOrder (save order { toOrderScalar := data })
      (save order { toOrderScalar := data' }) v v' := by
  unfold save
  refine (ServiceOrderRepository.update_synced halike hid hdata (some order.version)).seq halike ?_
  intro updated updated' u u' hupdated _ _
  cases hupdated with
  | none => exact .throw _ _ _
  | some horder => exact .pure horder

/-- The order moves to the same status, at times of its own. -/
theorem moveTo_synced (halike : Alike (some key) m v.picture v'.picture) {order : ServiceOrder}
    (hid : order.id.column? = some key) (status : OSStatus) {data data' : OrderScalar}
    (hdata : data.timeless = data'.timeless) :
    Synced (some key) m SameOrder (moveTo order status { toOrderScalar := data })
      (moveTo order status { toOrderScalar := data' }) v v' := by
  unfold moveTo
  refine (synced_ofExcept _).seq halike ?_
  rintro _ _ u u' rfl _ halike
  refine save_synced halike hid ?_
  exact congrArg (fun x : OrderScalar => { x with status := some status }) hdata

/-- Storing one message and handing back an order. -/
theorem addThen_synced (halike : Alike (some key) m v.picture v'.picture)
    (message : OutgoingMessage) {updated updated' : ServiceOrder} (h : SameOrder updated updated') :
    Synced (some key) m SameOrder
      (Outbox.add traceparent message >>= fun _ => Prog.pure updated)
      (Outbox.add traceparent message >>= fun _ => Prog.pure updated') v v' :=
  (Outbox.add_synced halike traceparent message).seq halike fun _ _ _ _ _ _ _ => .pure h

/-- What the effects need of an order and of two states: it is the order the states
are alike for, and the units of its lines are reserved in both. -/
structure BothReserved (key : Uuid) (m : Option Uuid) (row : OrderRow) (v v' : Db) : Prop where
  column : row.entity.id.column? = some key
  checks : row.Checks
  left : row.status.active = true → UnitsReserved v row.items
  right : row.status.active = true → UnitsReserved v' row.items
  alike : Alike (some key) m v.picture v'.picture

/-- Rows that differ in times are reserved for in the same way. -/
theorem bothReserved_of_backed {row' : OrderRow} (hl : Backed v key row) (hr : Backed v' key row')
    (ht : row.timeless = row'.timeless) (halike : Alike (some key) m v.picture v'.picture) :
    BothReserved key m row v v' where
  column := by
    rw [← order_id hl.found]
    rfl
  checks := Table.check_of_find? (α := OrderRow) hl.found
  left := hl.reserved
  right := by
    rw [OrderRow.status_of_timeless ht, OrderRow.items_of_timeless ht]
    exact hr.reserved
  alike := halike

/-- All lines are released on both sides, one after another. -/
theorem releaseReservations_synced (h : BothReserved key m row v v')
    (hactive : row.status.active = true) :
    Synced (some key) m (fun _ _ => True) (releaseReservations row.entity)
      (releaseReservations row.entity) v v' := by
  unfold releaseReservations
  refine Synced.seq (takeEach_synced (fun _ => 0)
    (fun v v' l item item' => releaseLine_relates) h.checks.oneLinePerItem h.checks.quantityPositive
    (h.left hactive) (h.right hactive)) h.alike ?_
  intro _ _ u u' _ _ _
  exact .pure trivial

/-- Releasing the units of an order and moving it. -/
theorem releaseThenMove_synced (h : BothReserved key m row v v') (hactive : row.status.active = true)
    (status : OSStatus) {f : ServiceOrder → Work ServiceOrder}
    (hf : ∀ updated updated' u u', SameOrder updated updated' →
      Alike (some key) m u.picture u'.picture →
        Synced (some key) m SameOrder (f updated) (f updated') u u') :
    Synced (some key) m SameOrder
      (releaseReservations row.entity >>= fun _ => moveTo row.entity status >>= f)
      (releaseReservations row.entity >>= fun _ => moveTo row.entity status >>= f) v v' := by
  refine (releaseReservations_synced h hactive).seq h.alike ?_
  intro _ _ u u' _ _ halike
  refine (moveTo_synced halike h.column status rfl).seq halike ?_
  intro updated updated' w w' hupdated _ halike
  exact hf updated updated' w w' hupdated halike

/-- The handlers of the replies, one by one: each does the same deed on both sides. -/
theorem diagnosisCompleted_synced (h : BothReserved key m row v v') :
    Synced (some key) m SameOrder (diagnosisCompleted traceparent row.entity)
      (diagnosisCompleted traceparent row.entity) v v' := by
  unfold diagnosisCompleted
  refine (budgetCommandFor_synced h.alike row.entity).seq h.alike ?_
  rintro command _ u u' rfl _ halike
  refine (moveTo_synced halike h.column .waitingApproval rfl).seq halike ?_
  intro updated updated' w w' hupdated _ halike
  exact addThen_synced traceparent halike _ hupdated

theorem budgetGenerated_synced (h : BothReserved key m row v v') (reply : SagaReply) :
    Synced (some key) m SameOrder (budgetGenerated row.entity reply)
      (budgetGenerated row.entity reply) v v' := by
  unfold budgetGenerated
  split
  · exact save_synced h.alike h.column rfl
  · exact .throw _ _ _

theorem budgetApproved_synced (h : BothReserved key m row v v') :
    Synced (some key) m SameOrder (budgetApproved traceparent row.entity)
      (budgetApproved traceparent row.entity) v v' := by
  unfold budgetApproved
  refine (moveTo_synced h.alike h.column .approved rfl).seq h.alike ?_
  intro updated updated' u u' hupdated _ halike
  exact addThen_synced traceparent halike _ hupdated

theorem budgetRejected_synced (h : BothReserved key m row v v') (hactive : row.status.active = true) :
    Synced (some key) m SameOrder (budgetRejected traceparent row.entity)
      (budgetRejected traceparent row.entity) v v' := by
  unfold budgetRejected
  refine releaseThenMove_synced h hactive .rejected ?_
  intro updated updated' u u' hupdated halike
  exact addThen_synced traceparent halike _ hupdated

theorem paymentConfirmed_synced (h : BothReserved key m row v v')
    (hactive : row.status.active = true) :
    Synced (some key) m SameOrder (paymentConfirmed traceparent row.entity)
      (paymentConfirmed traceparent row.entity) v v' := by
  unfold paymentConfirmed
  refine Synced.seq (takeEach_synced (fun q => -q)
    (fun v v' l item item' => consumeLine_relates) h.checks.oneLinePerItem h.checks.quantityPositive
    (h.left hactive) (h.right hactive)) h.alike ?_
  intro _ _ v₁ v₁' _ _ halike
  refine (repairCommandFor_synced halike row.entity).seq halike ?_
  rintro command _ v₂ v₂' rfl _ halike
  refine (moveTo_synced halike h.column .paid rfl).seq halike ?_
  intro updated updated' v₃ v₃' hupdated _ halike
  exact addThen_synced traceparent halike _ hupdated

theorem paymentFailed_synced (h : BothReserved key m row v v') (hactive : row.status.active = true) :
    Synced (some key) m SameOrder (paymentFailed traceparent row.entity)
      (paymentFailed traceparent row.entity) v v' := by
  unfold paymentFailed
  refine releaseThenMove_synced h hactive .cancelled ?_
  intro updated updated' u u' hupdated halike
  refine (Outbox.add_synced halike traceparent _).seq halike ?_
  intro _ _ w w' _ _ halike
  exact addThen_synced traceparent halike _ hupdated

theorem cancelStep_synced (halike : Alike (some key) m v.picture v'.picture) (order : ServiceOrder)
    (cancel : List CancelTarget) (target : CancelTarget) :
    Synced (some key) m (fun _ _ => True) (cancelStep traceparent order cancel target)
      (cancelStep traceparent order cancel target) v v' := by
  unfold cancelStep
  split
  · cases target with
    | execution => exact Outbox.add_synced halike traceparent _
    | budget => exact Outbox.add_synced halike traceparent _
  · exact .pure trivial

/-- So do the compensations. -/
theorem stepFailed_synced (h : BothReserved key m row v v') (hactive : row.status.active = true)
    (cancel : List CancelTarget) :
    Synced (some key) m SameOrder (stepFailed traceparent row.entity cancel)
      (stepFailed traceparent row.entity cancel) v v' := by
  unfold stepFailed
  refine releaseThenMove_synced h hactive .cancelled ?_
  intro updated updated' u u' hupdated halike
  refine (cancelStep_synced traceparent halike row.entity cancel .execution).seq halike ?_
  intro _ _ w w' _ _ halike
  refine (cancelStep_synced traceparent halike row.entity cancel .budget).seq halike ?_
  intro _ _ x x' _ _ _
  exact .pure hupdated

/-- Every reply that is due does the same on both sides. -/
theorem apply_synced (h : BothReserved key m row v v') {reply : SagaReply}
    (hdue : row.status ∈ expectedStatus reply.type) :
    Synced (some key) m SameOrder (apply traceparent row.entity reply)
      (apply traceparent row.entity reply) v v' := by
  unfold apply
  cases htype : reply.type <;> rw [htype] at hdue
  case diagnosisStarted => exact moveTo_synced h.alike h.column .diagnosis rfl
  case diagnosisCompleted => exact diagnosisCompleted_synced traceparent h
  case budgetGenerated => exact budgetGenerated_synced h reply
  case budgetApproved => exact budgetApproved_synced traceparent h
  case budgetRejected =>
    have hactive : row.status.active = true := by rw [List.mem_singleton.1 hdue]; rfl
    exact budgetRejected_synced traceparent h hactive
  case paymentConfirmed =>
    have hactive : row.status.active = true := by rw [List.mem_singleton.1 hdue]; rfl
    exact paymentConfirmed_synced traceparent h hactive
  case paymentFailed =>
    have hactive : row.status.active = true := by rw [List.mem_singleton.1 hdue]; rfl
    exact paymentFailed_synced traceparent h hactive
  case repairStarted =>
    refine Relates.clock ?_
    intro t t'
    exact moveTo_synced h.alike h.column .execution rfl
  case repairCompleted =>
    refine Relates.clock ?_
    intro t t'
    exact moveTo_synced h.alike h.column .finished rfl
  case executionCancelled => exact .pure rfl
  case budgetCancelled => exact .pure rfl

/-- What effects of two runs have in common. -/
structure SameEffect (applied applied' : Effect) : Prop where
  order : SameOrder applied.serviceOrder applied'.serviceOrder
  compensation : applied.compensation = applied'.compensation
  stuck : applied.stuck = applied'.stuck

/-- What a reply does about an order does not depend on the times of the order. -/
theorem apply_timeless {reply : SagaReply} (hc : confirms reply.type = false) (order : ServiceOrder) :
    apply traceparent order reply = apply traceparent order.timeless reply := by
  unfold apply
  cases htype : reply.type <;> rw [htype] at hc <;> first | rfl | cases hc

theorem stepFailed_timeless (order : ServiceOrder) (cancel : List CancelTarget) :
    stepFailed traceparent order cancel = stepFailed traceparent order.timeless cancel := rfl

section Retimed

variable {row' : OrderRow} (h : BothReserved key m row v v') (ht : row.timeless = row'.timeless)

include ht in
theorem entity_of_timeless : row.entity.timeless = row'.entity.timeless :=
  congrArg OrderRow.entity ht

include h ht

theorem replyEffect_synced {reply : SagaReply} (hdue : row.status ∈ expectedStatus reply.type) :
    Synced (some key) m SameEffect (replyEffect traceparent row.entity reply)
      (replyEffect traceparent row'.entity reply) v v' := by
  have happly : Synced (some key) m SameOrder (apply traceparent row.entity reply)
      (apply traceparent row'.entity reply) v v' := by
    cases hc : confirms reply.type with
    | false =>
        rw [apply_timeless traceparent hc row'.entity, ← entity_of_timeless ht,
          ← apply_timeless traceparent hc row.entity]
        exact apply_synced traceparent h hdue
    | true =>
        -- a confirmation hands the order back as it found it
        unfold apply
        cases htype : reply.type
        case executionCancelled => exact .pure (entity_of_timeless ht)
        case budgetCancelled => exact .pure (entity_of_timeless ht)
        all_goals
          rw [htype] at hc
          cases hc
  unfold replyEffect
  refine happly.seq h.alike ?_
  intro order order' u u' horder _ _
  exact .pure ⟨horder, rfl, rfl⟩

/-- So does every dead command that is due. -/
theorem failedCommandEffect_synced {type : SagaCommandType}
    (hdue : (failedCommand type).1.admits row.status = true) :
    Synced (some key) m SameEffect
      (failedCommandEffect traceparent row.entity (failedCommand type).2)
      (failedCommandEffect traceparent row'.entity (failedCommand type).2) v v' := by
  unfold failedCommandEffect
  cases hrule : (failedCommand type).2 with
  | report => exact .pure ⟨entity_of_timeless ht, rfl, rfl⟩
  | cancel cancel =>
      -- the commands that are undone belong to orders that are under way
      have hactive : row.status.active = true := by
        revert hrule hdue
        cases type <;> cases row.status <;> simp [failedCommand, Expected.admits, OSStatus.active]
      dsimp only
      rw [stepFailed_timeless traceparent row'.entity, ← entity_of_timeless ht,
        ← stepFailed_timeless traceparent row.entity]
      refine (stepFailed_synced traceparent h hactive cancel).seq h.alike ?_
      intro order order' u u' horder _ _
      exact .pure ⟨horder, rfl, rfl⟩

end Retimed

end Effects

end ServiceOrderSaga

end CarRepairShop
