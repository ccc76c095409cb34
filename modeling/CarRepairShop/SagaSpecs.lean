import CarRepairShop.EditorSpecs

/-! # The saga keeps its specification

Every effect of the orchestrator runs through the same stages: the message is
recorded and the order read (`Due`), the parts reserved for the order may be
released or consumed (`Ready`), the order is written with the version that was
read and the commands are stored one by one (`Performed`). Each stage is an
assertion that the others cannot invalidate while the transaction holds its
locks.
-/

namespace CarRepairShop

open Lib Txn Prog

section Saga

variable {R : List Write → Db → Db → Prop} {G : ShopTx → Stmt → Db → Prop}

/-- The message is recorded and order `o` was read as `order`. -/
structure Due (o : Uuid) (order : ServiceOrder) (record : ProcessedRow) (tx : ShopTx) (db : Db) :
    Prop where
  writes : tx.writes = [.putProcessed record]
  claims : claims tx.trace = []
  id : order.id = o.text
  seen : Seen o order db

/-- The message is recorded, order `o` was read as `order`, and each unit of
its lines has moved the counters by `cr` reserved and `cs` stocked units. -/
structure Ready (o : Uuid) (order : ServiceOrder) (record : ProcessedRow) (cr cs : ℤ) (tx : ShopTx)
    (db : Db) : Prop where
  writes : ∃ wi, tx.writes = [.putProcessed record] ++ wi ∧ ItemWrites wi
  claims : claims tx.trace = []
  id : order.id = o.text
  seen : Seen o order db
  shift : Shift tx.writes db (fun i => cr * unitsOf order.items i)
    (fun i => cs * unitsOf order.items i)

variable {o : Uuid} {order : ServiceOrder} {record : ProcessedRow} {cr cs : ℤ} {tx tx' : ShopTx}
variable {db db' : Db}

theorem Due.ready (h : Due o order record tx db) : Ready o order record 0 0 tx db where
  writes := ⟨[], by simpa using h.writes, ItemWrites.nil⟩
  claims := h.claims
  id := h.id
  seen := h.seen
  shift := by
    rw [h.writes]
    exact (Shift.none (fun _ => rfl) db).congr (fun i => by simp) (fun i => by simp)

/-- Whatever the others commit meanwhile, the order and the record stay as this unit of work
left them. -/
theorem Ready.stable (hR : ShopInterference R) (h : Ready o order record cr cs tx db)
    (hdb : R tx.writes db db') : Ready o order record cr cs tx db' where
  writes := h.writes
  claims := h.claims
  id := h.id
  seen := h.seen.stable (hR.rely _ _ _ hdb)
  shift := h.shift.stable (hR.rely _ _ _ hdb)

/-- Reading keeps the order ready. -/
theorem Ready.read (hR : ShopInterference R) (h : Ready o order record cr cs tx db)
    (hc : Continues tx tx' [] []) (hdb : R tx.writes db db') :
    Ready o order record cr cs tx' db' := by
  have hs := h.stable hR hdb
  have hwrites : tx'.writes = tx.writes := by rw [hc.writes, List.append_nil]
  rcases hc.trace with ⟨t, ht, hcs⟩
  refine ⟨?_, ?_, hs.id, hs.seen, ?_⟩
  · rw [hwrites]
    exact hs.writes
  · rw [ht, claims_append, hs.claims, hcs]
    rfl
  · rw [hwrites]
    exact hs.shift

theorem Ready.noOrders (h : Ready o order record cr cs tx db) (o' : Uuid) :
    lastOrder tx.writes o' = none := by
  rcases h.writes with ⟨wi, hwrites, hwi⟩
  rw [hwrites, lastOrder, lastOf_append]
  rw [show lastOf (Write.order? o') wi = none from hwi.order o']
  rfl

/-! ## Releasing and consuming -/

/-- A loop that moves the counters of each line moves them by all lines. -/
theorem moveLines_ensures (hR : ShopInterference R) {f : OSItem → Work Unit}
    (hf : ∀ (line : OSItem) (tx : ShopTx) (db : Db) (dr ds : Uuid → ℤ), Shift tx.writes db dr ds →
      (f line).Ensures postgres R G (fun _ tx' db' => ∃ i wi, line.itemId.column? = some i ∧
        Continues tx tx' wi [] ∧ ItemWrites wi ∧
        Shift tx'.writes db' (fun j => dr j + unitsAt i (cr * line.quantity) j)
          (fun j => ds j + unitsAt i (cs * line.quantity) j)) tx db)
    (h : Ready o order record 0 0 tx db) :
    (each f order.items).Ensures postgres R G
      (fun _ tx' db' => Ready o order record cr cs tx' db') tx db := by
  have hmoves : (each f order.items).Ensures postgres R G
      (fun _ tx' db' => ∃ wi, Continues tx tx' wi [] ∧ ItemWrites wi ∧
        Shift tx'.writes db' (fun i => cr * unitsOf order.items i)
          (fun i => cs * unitsOf order.items i)) tx db := by
    -- the lines done so far are the invariant of the loop
    refine Ensures.each hR.toInterference (I := fun done _ tx' db' =>
      ∃ wi, Continues tx tx' wi [] ∧ ItemWrites wi ∧
        Shift tx'.writes db' (fun i => cr * unitsOf done i)
          (fun i => cs * unitsOf done i)) ?_ ?_ order.items ?_
    · rintro done out tx' d d' ⟨wi, hc, hwi, hshift⟩ hR'
      exact ⟨wi, hc, hwi, hshift.stable (hR.rely _ _ _ hR')⟩
    · rintro done out line tx' d ⟨wi, hc, hwi, hshift⟩
      refine (hf line tx' d _ _ hshift).post ?_
      rintro - tx'' d' ⟨i, wi', hi, hc', hwi', hshift'⟩
      refine ⟨wi ++ wi', by simpa using hc.trans hc', hwi.append hwi', ?_⟩
      -- one more line adds its units to those of the lines done
      have hunits : ∀ (c : ℤ) (j : Uuid), c * unitsOf done j + unitsAt i (c * line.quantity) j
          = c * unitsOf (done ++ [line]) j := by
        intro c j
        rw [unitsOf_append, unitsOf_singleton hi, mul_add]
        congr 1
        unfold unitsAt
        split <;> simp
      exact hshift'.congr (hunits cr) (hunits cs)
    · refine ⟨[], Continues.refl tx, ItemWrites.nil, ?_⟩
      exact h.shift.congr (fun i => by simp) (fun i => by simp)
  refine (hmoves.since hR.toInterference).post ?_
  rintro - tx' d' ⟨⟨wi, hc, hwi, hshift⟩, hsince⟩
  have hs := h.stable hR hsince
  rcases hs.writes with ⟨wi₀, hwrites, hwi₀⟩
  rcases hc.trace with ⟨t, ht, hcs⟩
  refine ⟨⟨wi₀ ++ wi, ?_, hwi₀.append hwi⟩, ?_, hs.id, hs.seen, hshift⟩
  · rw [hc.writes, hwrites, List.append_assoc]
  · rw [ht, claims_append, hs.claims, hcs]
    rfl

/-- A release takes the units of every line off the counters, once. -/
theorem ServiceOrderSaga.releaseReservations_ensures (hR : ShopInterference R)
    (h : Ready o order record 0 0 tx db) :
    (ServiceOrderSaga.releaseReservations order).Ensures postgres R G
      (fun _ tx' db' => Ready o order record (-1) 0 tx' db') tx db := by
  unfold ServiceOrderSaga.releaseReservations
  have hmoves : (each ServiceOrderSaga.releaseLine order.items).Ensures postgres R G
      (fun _ tx' db' => Ready o order record (-1) 0 tx' db') tx db := by
    refine moveLines_ensures hR ?_ h
    intro line tx₁ d₁ dr ds hshift
    unfold ServiceOrderSaga.releaseLine
    refine Ensures.seq hR.toInterference
      (ItemRepository.release_ensures hR line.itemId line.quantity hshift) ?_
    rintro released tx₂ d₂ hres -
    cases released with
    -- a line that cannot be released throws
    | false => trivial
    | true =>
        rcases hres rfl with ⟨i, wi, hi, hmoved⟩
        intro d₃ h₃
        refine ⟨i, wi, hi, hmoved.continues, hmoved.writes, ?_⟩
        simpa using hmoved.shift.stable (hR.rely _ _ _ h₃)
  refine Ensures.seq hR.toInterference hmoves ?_
  rintro - tx₁ d₁ hready -
  intro d₂ h₂
  exact hready.stable hR h₂

/-- A payment takes them off the counters and off the stock. -/
theorem ServiceOrderSaga.consumeLines_ensures (hR : ShopInterference R)
    (h : Ready o order record 0 0 tx db) :
    (each ServiceOrderSaga.consumeLine order.items).Ensures postgres R G
      (fun _ tx' db' => Ready o order record (-1) (-1) tx' db') tx db := by
  refine moveLines_ensures hR ?_ h
  intro line tx₁ d₁ dr ds hshift
  unfold ServiceOrderSaga.consumeLine
  refine Ensures.seq hR.toInterference
    (ItemRepository.consume_ensures hR line.itemId line.quantity hshift) ?_
  rintro consumed tx₂ d₂ hres -
  cases consumed with
  -- a line that cannot be consumed throws
  | false => trivial
  | true =>
      rcases hres rfl with ⟨i, wi, hi, hmoved⟩
      intro d₃ h₃
      refine ⟨i, wi, hi, hmoved.continues, hmoved.writes, ?_⟩
      simpa using hmoved.shift.stable (hR.rely _ _ _ h₃)

/-! ## Writing the order -/

/-- An order written with the version that was read was the order that was
read. -/
theorem Seen.claimed (h : Seen o order db) {r : OrderRow} (hr : db.orders.find? o = some r)
    (hv : r.version = order.version) : r.entity = order := by
  rcases h with ⟨r', hr', -, heq⟩
  rw [hr] at hr'
  cases hr'
  exact heq hv

/-- The save claims the version the order was read with. -/
theorem ServiceOrderSaga.save_ensures (hR : ShopInterference R) (data : ServiceOrderChanges)
    (hs : data.services = none) (hi : data.items = none) (reason : Option CompensationReason)
    (h : Ready o order record cr cs tx db) :
    (ServiceOrderSaga.save order data).Ensures postgres R G
      (fun result tx' db' => ∃ r₀ r₁, r₀.entity = order ∧ Performed R G
        { status := data.status, reserved := cr, stocked := cs, commands := [], reason } o
        record.messageId data r₀ r₁ tx' db' ∧
        result.status = data.status.getD order.status) tx db := by
  have hid : order.id.column? = some o := by
    rw [h.id]
    rfl
  have hthere : ∃ r, db.orders.find? o = some r := by
    rcases h.seen with ⟨r, hr, -⟩
    exact ⟨r, hr⟩
  unfold ServiceOrderSaga.save
  refine Ensures.seq hR.toInterference (ServiceOrderRepository.update_ensures hR hid data
    (some order.version) h.noOrders hthere) ?_
  rintro updated tx₁ d₁ ⟨r₀, r₁, wo, hu, saved, rfl, hsaved⟩ h₁
  intro d₂ h₂
  -- the claim compared versions, so the row written over is the row read
  have hversion : r₀.version = order.version := hu.expected order.version rfl
  have hready := h.stable hR h₁
  have hent := hready.seen.claimed hu.found hversion
  have hw := hu.rewrote
  rcases h.writes with ⟨wi, hwrites, hwi⟩
  have hwrites₁ : tx₁.writes = [.putProcessed record] ++ wi ++ wo := by
    rw [hw.continues.writes, hwrites]
  rcases hw.continues.trace with ⟨t, ht, hcs⟩
  have hitems : order.items = entityItems r₀.items := by
    rw [← hent]
    rfl
  have hresult : saved.status = data.status.getD order.status := by
    rw [hsaved, hu.revision.status, ← hent]
    rfl
  refine ⟨r₀, r₁, hent, ⟨⟨?_, ?_, ?_, hu.revision, ?_, ?_⟩, hs, hi, rfl, ?_, ?_, ?_, ?_⟩, hresult⟩
  · rw [hw.held hR h₂]
    exact hu.found
  · rw [hwrites₁, lastOrder, lastOf_append]
    rw [show lastOf (Write.order? o) wo = some r₁ from hw.writes.last]
    rfl
  · intro o' ho'
    rw [hwrites₁]
    simp only [lastOrder, lastOf_append]
    rw [show lastOf (Write.order? o') wo = none from hw.writes.other ho',
      show lastOf (Write.order? o') wi = none from hwi.order o']
    rfl
  · rw [ht, claims_append, h.claims, hcs, hversion]
    rfl
  · intro v hv
    exact Option.some.inj hv
  -- the counters moved by the lines of the row read, which are those of the row claimed
  · have hmoved : Shift tx.writes d₂ (fun i => cr * unitsOf order.items i)
        (fun i => cs * unitsOf order.items i) := by
      refine hready.shift.stable ?_
      rw [hw.continues.writes] at h₂
      exact (hR.rely _ _ _ h₂).held
    rw [hw.continues.writes]
    refine (hmoved.append hw.writes.item).congr (fun i => ?_) (fun i => ?_)
    · rw [hitems, entityItems, unitsOf_text]
    · rw [hitems, entityItems, unitsOf_text]
  · rw [hwrites₁, stored_append, stored_append, hwi.stored, hw.writes.stored]
    exact List.Forall₂.nil
  · intro m'
    rw [hwrites₁]
    simp only [lastProcessed, lastOf_append]
    rw [show lastOf (Write.processed? m') wo = none from hw.writes.processed m',
      show lastOf (Write.processed? m') wi = none from hwi.processed m']
    by_cases hm : record.messageId = m'
    · simp [Write.processed?, hm]
    · simp [Write.processed?, hm, Ne.symm hm]
  · refine (hu.claimed.stable hR.toInterference h₂).imp ?_
    rintro d ⟨hd, hg⟩
    rw [← hversion] at hg
    exact ⟨hd, tx, h.noOrders, hg⟩

theorem ServiceOrderSaga.moveTo_ensures (hR : ShopInterference R) (status : OSStatus)
    {data : ServiceOrderChanges} (hs : data.services = none) (hi : data.items = none)
    (reason : Option CompensationReason) (h : Ready o order record cr cs tx db) :
    (ServiceOrderSaga.moveTo order status data).Ensures postgres R G
      (fun result tx' db' => ∃ r₀ r₁, r₀.entity = order ∧ canTransition order.status status = true ∧
        Performed R G
          { status := some status, reserved := cr, stocked := cs, commands := [], reason } o
          record.messageId { data with status := some status } r₀ r₁ tx' db' ∧
        result.status = status) tx db := by
  unfold ServiceOrderSaga.moveTo
  refine Ensures.seq hR.toInterference (ofExcept_ensures _) ?_
  rintro u tx₁ d₁ ⟨hlegal, rfl⟩ h₁
  refine (ServiceOrderSaga.save_ensures hR { data with status := some status } hs hi
    reason (h.stable hR h₁)).post ?_
  rintro result tx₂ d₂ ⟨r₀, r₁, hent, hperf, hres⟩
  exact ⟨r₀, r₁, hent, assertTransition_ok hlegal, hperf, hres⟩

/-! ## Storing the commands -/

theorem Performed.stable (hR : ShopInterference R) {reaction : Reaction} {m : Uuid}
    {data : ServiceOrderChanges} {r₀ r₁ : OrderRow}
    (h : Performed R G reaction o m data r₀ r₁ tx db) (hdb : R tx.writes db db') :
    Performed R G reaction o m data r₀ r₁ tx db' where
  commit :=
    { h.commit with
      found := by
        rw [(hR.rely _ _ _ hdb).orderHeld o r₁ h.commit.order]
        exact h.commit.found }
  noServices := h.noServices
  noItems := h.noItems
  status := h.status
  shift := h.shift.stable (hR.rely _ _ _ hdb)
  stored := h.stored
  recorded := h.recorded
  claimed := h.claimed.stable hR.toInterference hdb

/-- One more command. -/
theorem addCommand_ensures (hR : ShopInterference R) (traceparent : Option String)
    {reaction : Reaction} {m : Uuid} {data : ServiceOrderChanges} {r₀ r₁ : OrderRow}
    (type : SagaCommandType) {payload : Payload} (hid : order.id = o.text)
    (hpayload : CommandPayload r₀ reaction.reason type payload)
    (h : Performed R G reaction o m data r₀ r₁ tx db) :
    (Outbox.add traceparent
      { destination := queueOf type, type, serviceOrderId := order.id, payload }).Ensures postgres
      R G (fun _ tx' db' => Performed R G
        { reaction with commands := reaction.commands ++ [type] } o m data r₀ r₁ tx' db') tx db := by
  refine ((Outbox.add_ensures traceparent _).since hR.toInterference).post ?_
  rintro - tx' d' ⟨⟨o', message, ho', hcarries, hc⟩, hsince⟩
  have hs := h.stable hR hsince
  -- the message is about the order whose id was read
  have hoo : o' = o := by
    have heq : order.id.stored? = some o' := ho'
    rw [hid] at heq
    exact (Option.some.inj heq).symm
  subst hoo
  rcases hc.trace with ⟨t, ht, hcs⟩
  have hrow : r₀.id = o' := order_id hs.commit.found
  -- an outbox row changes no other table
  have hlast : ∀ {α : Type} (f : Write → Option α), f (.addOutbox message) = none →
      lastOf f tx'.writes = lastOf f tx.writes := by
    intro α f hf
    rw [hc.writes, lastOf_append]
    simp [hf]
  refine ⟨⟨hs.commit.found, ?_, ?_, hs.commit.revision, ?_, hs.commit.expected⟩, hs.noServices,
    hs.noItems, hs.status, ?_, ?_, ?_, hs.claimed⟩
  · rw [lastOrder, hlast _ rfl]
    exact hs.commit.order
  · intro o'' ho''
    rw [lastOrder, hlast _ rfl]
    exact hs.commit.others o'' ho''
  · rw [ht, claims_append, hs.commit.claims, hcs]
    rfl
  · rw [hc.writes]
    exact hs.shift.append fun i => rfl
  · rw [hc.writes, stored_append]
    refine List.rel_append hs.stored (List.Forall₂.cons ?_ List.Forall₂.nil)
    refine ⟨by rw [hcarries.order, hrow], hcarries.type, hcarries.destination, ?_,
      hcarries.unpublished⟩
    rw [hcarries.payload]
    exact hpayload
  · intro m'
    rw [lastProcessed, hlast _ rfl]
    exact hs.recorded m'

/-! ## What the commands say -/

/-- Lines built one by one are about what each was built from. -/
theorem mapM_subjects {α : Type} {f : α → Except Failure BudgetLine}
    {subject : α → BudgetLineKind × IdText × ℤ}
    (hf : ∀ x line, f x = .ok line → line.subject = subject x) (l : List α) :
    ∀ {out : List BudgetLine}, l.mapM f = .ok out → out.map BudgetLine.subject = l.map subject := by
  induction l with
  | nil =>
      intro out h
      cases h
      rfl
  | cons x l ih =>
      intro out h
      rw [List.mapM_cons] at h
      rcases bind_ok h with ⟨line, hx, hrest⟩
      rcases bind_ok hrest with ⟨rest, hl, heq⟩
      cases heq
      rw [List.map_cons, List.map_cons, ih hl, hf x line hx]

/-- A line of the budget names what it is about, and how much of it. -/
theorem serviceLine_subject {services : List Service} {s : OSService} {line : BudgetLine}
    (h : serviceLine services s = .ok line) : line.subject = (.service, s.serviceId, 1) := by
  unfold serviceLine at h
  split at h
  · cases h
  · next service hfind =>
    cases h
    have hkey := List.find?_some hfind
    simp only [decide_eq_true_eq] at hkey
    rw [BudgetLine.subject, hkey]

theorem itemLine_subject {items : List Item} {l : OSItem} {line : BudgetLine}
    (h : itemLine items l = .ok line) : line.subject = (.item, l.itemId, l.quantity) := by
  unfold itemLine at h
  split at h
  · cases h
  · next item hfind =>
    cases h
    have hkey := List.find?_some hfind
    simp only [decide_eq_true_eq] at hkey
    rw [BudgetLine.subject, hkey]

/-- The budget lines of an entity are about its services and items. -/
theorem buildBudgetLines_subjects {services : List Service} {items : List Item}
    {lines : List BudgetLine} (h : buildBudgetLines order services items = .ok lines) :
    lines.map BudgetLine.subject =
      order.services.map (fun s => (BudgetLineKind.service, s.serviceId, (1 : ℤ))) ++
        order.items.map fun l => (BudgetLineKind.item, l.itemId, l.quantity) := by
  unfold buildBudgetLines at h
  rcases bind_ok h with ⟨serviceLines, hs, hrest⟩
  rcases bind_ok hrest with ⟨itemLines, hi, heq⟩
  cases heq
  rw [List.map_append, mapM_subjects (fun _ _ => serviceLine_subject) _ hs,
    mapM_subjects (fun _ _ => itemLine_subject) _ hi]

/-- A loop that only reads. -/
theorem readEach_ensures (hR : ShopInterference R) {α β : Type} {f : α → Work β}
    (hf : ∀ (x : α) (tx : ShopTx) (db : Db), (f x).Ensures postgres R G
      (fun _ tx' _ => Continues tx tx' [] []) tx db) (xs : List α) {tx : ShopTx} {db : Db} :
    (each f xs).Ensures postgres R G (fun _ tx' _ => Continues tx tx' [] []) tx db := by
  refine Ensures.each hR.toInterference (I := fun _ _ tx' _ => Continues tx tx' [] []) ?_ ?_ xs
    (Continues.refl tx)
  · intro done out tx' d d' h _
    exact h
  · intro done out x tx' d h
    refine (hf x tx' d).post ?_
    intro y tx'' d' h'
    simpa using h.trans h'

/-- The budget has one line for each line of the order, in order. -/
theorem ServiceOrderSaga.budgetCommandFor_ensures (hR : ShopInterference R) {tx : ShopTx}
    {db : Db} (order : ServiceOrder) :
    (ServiceOrderSaga.budgetCommandFor order).Ensures postgres R G
      (fun command tx' db' => Continues tx tx' [] [] ∧
        command.lines.map BudgetLine.subject =
          order.services.map (fun s => (BudgetLineKind.service, s.serviceId, (1 : ℤ))) ++
            order.items.map (fun l => (BudgetLineKind.item, l.itemId, l.quantity)) ∧
        ∃ c, order.customerId.column? = some c ∧
          Was R (fun d => ∃ row, (postgres.view tx d).customers.find? c = some row ∧
            row.deletedAt = none) db') tx db := by
  unfold ServiceOrderSaga.budgetCommandFor
  refine Ensures.seq hR.toInterference
    (CustomerRepository.findById_ensures hR order.customerId) ?_
  rintro customer tx₁ d₁ ⟨hc₁, hcust⟩ -
  cases customer with
  | none => trivial
  | some customer =>
      rcases hcust customer rfl with ⟨c, hc, hactive⟩
      refine Ensures.seq hR.toInterference (readEach_ensures hR (fun s tx db =>
        (ServiceRepository.findById_ensures s.serviceId).post fun _ _ _ h => h.1) order.services) ?_
      rintro catalogServices tx₂ d₂ hc₂ h₂
      refine Ensures.seq hR.toInterference (readEach_ensures hR (fun i tx db =>
        (ItemRepository.findById_ensures hR i.itemId).post fun _ _ _ h => h.1) order.items) ?_
      rintro catalogItems tx₃ d₃ hc₃ h₃
      refine Ensures.seq hR.toInterference (ofExcept_ensures _) ?_
      rintro lines tx₄ d₄ ⟨hlines, rfl⟩ h₄
      intro d₅ h₅
      refine ⟨by simpa using (hc₁.trans hc₂).trans hc₃, buildBudgetLines_subjects hlines, c, hc, ?_⟩
      have hlate := (hactive.stable hR.toInterference h₂).stable hR.toInterference h₃
      exact (hlate.stable hR.toInterference h₄).stable hR.toInterference h₅

theorem ServiceOrderSaga.repairCommandFor_ensures (hR : ShopInterference R) {tx : ShopTx}
    {db : Db} (order : ServiceOrder) :
    (ServiceOrderSaga.repairCommandFor order).Ensures postgres R G
      (fun command tx' _ => Continues tx tx' [] [] ∧
        command.tasks.map (·.serviceId) = order.services.map (·.serviceId)) tx db := by
  unfold ServiceOrderSaga.repairCommandFor
  refine Ensures.map hR.toInterference ?_
  refine Ensures.each hR.toInterference (I := fun done out tx' _ =>
    Continues tx tx' [] [] ∧ out.map RepairTask.serviceId = done.map OSService.serviceId) ?_ ?_
    order.services
    ⟨Continues.refl tx, rfl⟩
  · intro done out tx' d d' h _
    exact h
  · rintro done out line tx' d ⟨hc, hmap⟩
    unfold ServiceOrderSaga.repairTask
    refine Ensures.seq hR.toInterference (ServiceRepository.findById_ensures line.serviceId) ?_
    rintro service tx₁ d₁ ⟨hc₁, -⟩ -
    cases service with
    | none => trivial
    | some service =>
        intro d₂ _
        refine ⟨by simpa using hc.trans hc₁, ?_⟩
        rw [List.map_append, List.map_append, hmap]
        rfl

/-! ## The effects -/

/-- The entity of a row lists what the budget of the row is about. -/
theorem OrderRow.entity_budget (r : OrderRow) :
    r.entity.services.map (fun s => (BudgetLineKind.service, s.serviceId, (1 : ℤ))) ++
      r.entity.items.map (fun l => (BudgetLineKind.item, l.itemId, l.quantity)) = r.budget := by
  simp [OrderRow.entity, OrderColumns.toEntity, OrderRow.budget, Function.comp_def]

theorem OrderRow.entity_tasks (r : OrderRow) :
    r.entity.services.map (·.serviceId) = r.services.map Uuid.text := by
  simp [OrderRow.entity, OrderColumns.toEntity, Function.comp_def]

/-- A reaction carried out on the row that was read. -/
def Reacted (R : List Write → Db → Db → Prop) (G : ShopTx → Stmt → Db → Prop)
    (reaction : Reaction) (o : Uuid) (order : ServiceOrder) (record : ProcessedRow)
    (budgetTotal : Option ℚ) (tx : ShopTx) (db : Db) : Prop :=
  ∃ data r₀ r₁, r₀.entity = order ∧ data.budgetTotal = budgetTotal ∧
    Performed R G reaction o record.messageId data r₀ r₁ tx db

/-- A status change with no command and no move of stock. -/
theorem ServiceOrderSaga.moveOnly_ensures (hR : ShopInterference R) (status : OSStatus)
    (data : ServiceOrderChanges) (hs : data.services = none) (hi : data.items = none)
    (hb : data.budgetTotal = none) (h : Due o order record tx db) :
    (ServiceOrderSaga.moveTo order status data).Ensures postgres R G
      (fun result tx' db' => Reacted R G { status := some status } o order record none tx' db' ∧
        result.status = status) tx db := by
  refine (ServiceOrderSaga.moveTo_ensures hR status hs hi none h.ready).post ?_
  rintro result tx' db' ⟨r₀, r₁, hent, -, hperf, hres⟩
  exact ⟨⟨{ data with status := some status }, r₀, r₁, hent, hb, hperf⟩, hres⟩

/-- A status change after the lines moved the counters, with one command. -/
theorem ServiceOrderSaga.moveAndSend_ensures (hR : ShopInterference R)
    (traceparent : Option String) (status : OSStatus) (reason : Option CompensationReason)
    (type : SagaCommandType) (payload : Payload)
    (hpayload : ∀ r : OrderRow, r.entity = order → CommandPayload r reason type payload)
    (h : Ready o order record cr cs tx db) :
    (ServiceOrderSaga.moveTo order status >>= fun updated =>
      Outbox.add traceparent { destination := queueOf type, type, serviceOrderId := order.id, payload }
        >>= fun _ => (Prog.pure updated : Work ServiceOrder)).Ensures postgres R G
      (fun result tx' db' => Reacted R G
        { status := some status, reserved := cr, stocked := cs, commands := [type], reason } o
        order record none tx' db' ∧ result.status = status) tx db := by
  refine Ensures.seq hR.toInterference
    (ServiceOrderSaga.moveTo_ensures hR status rfl rfl reason h) ?_
  rintro updated tx₁ d₁ ⟨r₀, r₁, hent, -, hperf, hres⟩ -
  refine Ensures.seq hR.toInterference
    (addCommand_ensures hR traceparent type h.id (hpayload r₀ hent) hperf) ?_
  rintro - tx₂ d₂ hperf₂ -
  intro d₃ h₃
  exact ⟨⟨_, r₀, r₁, hent, rfl, hperf₂.stable hR h₃⟩, hres⟩

theorem ServiceOrderSaga.diagnosisCompleted_ensures (hR : ShopInterference R)
    (traceparent : Option String) (h : Due o order record tx db) :
    (ServiceOrderSaga.diagnosisCompleted traceparent order).Ensures postgres R G
      (fun result tx' db' => (Reacted R G
          { status := some .waitingApproval, commands := [.generateBudget] } o order record none
          tx' db' ∧ result.status = .waitingApproval) ∧
        ∃ c, order.customerId.column? = some c ∧ Was R (fun d => ∃ row,
          d.customers.find? c = some row ∧ row.deletedAt = none) db') tx db := by
  unfold ServiceOrderSaga.diagnosisCompleted
  refine Ensures.seq hR.toInterference (ServiceOrderSaga.budgetCommandFor_ensures hR order) ?_
  rintro command tx₁ d₁ ⟨hc₁, hlines, c, hc, hactive⟩ h₁
  have hready := h.ready.read hR hc₁ h₁
  refine ((ServiceOrderSaga.moveAndSend_ensures hR traceparent .waitingApproval none
    .generateBudget (.generateBudget command) ?_ hready).since hR.toInterference).post ?_
  · rintro r rfl
    exact ⟨command, rfl, by rw [hlines, r.entity_budget]⟩
  · rintro result tx₂ d₂ ⟨hreact, h₂⟩
    refine ⟨hreact, c, hc, (hactive.stable hR.toInterference h₂).imp ?_⟩
    rintro d ⟨row, hrow, hnone⟩
    refine ⟨row, ?_, hnone⟩
    rw [Engine.view, applyAll_customers, h.writes] at hrow
    exact hrow

theorem ServiceOrderSaga.budgetGenerated_ensures (hR : ShopInterference R) (reply : SagaReply)
    (h : Due o order record tx db) :
    (ServiceOrderSaga.budgetGenerated order reply).Ensures postgres R G
      (fun result tx' db' => ∃ total,
        reply.payload.lookup "total" = some (.num (.finite total)) ∧
        Reacted R G {} o order record (some total) tx' db' ∧
        result.status = order.status) tx db := by
  unfold ServiceOrderSaga.budgetGenerated
  split
  · next total htotal =>
    refine (ServiceOrderSaga.save_ensures hR { budgetTotal := some total } rfl rfl none
      h.ready).post ?_
    rintro result tx' db' ⟨r₀, r₁, hent, hperf, hres⟩
    exact ⟨total, htotal, ⟨_, r₀, r₁, hent, rfl, hperf⟩, hres⟩
  · trivial

theorem ServiceOrderSaga.budgetRejected_ensures (hR : ShopInterference R)
    (traceparent : Option String) (h : Due o order record tx db) :
    (ServiceOrderSaga.budgetRejected traceparent order).Ensures postgres R G
      (fun result tx' db' => Reacted R G
        { status := some .rejected, reserved := -1, commands := [.cancelExecution]
          reason := some .budgetRejected } o order record none tx' db' ∧
        result.status = .rejected) tx db := by
  unfold ServiceOrderSaga.budgetRejected
  refine Ensures.seq hR.toInterference
    (ServiceOrderSaga.releaseReservations_ensures hR h.ready) ?_
  rintro - tx₁ d₁ hready -
  exact ServiceOrderSaga.moveAndSend_ensures hR traceparent .rejected (some .budgetRejected)
    .cancelExecution (.reason .budgetRejected) (fun _ _ => ⟨_, rfl, rfl⟩) hready

theorem ServiceOrderSaga.paymentConfirmed_ensures (hR : ShopInterference R)
    (traceparent : Option String) (h : Due o order record tx db) :
    (ServiceOrderSaga.paymentConfirmed traceparent order).Ensures postgres R G
      (fun result tx' db' => Reacted R G
        { status := some .paid, reserved := -1, stocked := -1, commands := [.enqueueRepair] } o
        order record none tx' db' ∧ result.status = .paid) tx db := by
  unfold ServiceOrderSaga.paymentConfirmed
  refine Ensures.seq hR.toInterference (ServiceOrderSaga.consumeLines_ensures hR h.ready) ?_
  rintro - tx₁ d₁ hready -
  refine Ensures.seq hR.toInterference (ServiceOrderSaga.repairCommandFor_ensures hR order) ?_
  rintro command tx₂ d₂ ⟨hc₂, htasks⟩ h₂
  refine ServiceOrderSaga.moveAndSend_ensures hR traceparent .paid none .enqueueRepair
    (.enqueueRepair command) ?_ (hready.read hR hc₂ h₂)
  rintro r rfl
  exact ⟨command, rfl, by rw [htasks, r.entity_tasks]⟩

theorem ServiceOrderSaga.paymentFailed_ensures (hR : ShopInterference R)
    (traceparent : Option String) (h : Due o order record tx db) :
    (ServiceOrderSaga.paymentFailed traceparent order).Ensures postgres R G
      (fun result tx' db' => Reacted R G
        { status := some .cancelled, reserved := -1, commands := [.cancelExecution, .cancelBudget]
          reason := some .paymentFailed } o order record none tx' db' ∧
        result.status = .cancelled) tx db := by
  unfold ServiceOrderSaga.paymentFailed
  refine Ensures.seq hR.toInterference
    (ServiceOrderSaga.releaseReservations_ensures hR h.ready) ?_
  rintro - tx₁ d₁ hready -
  refine Ensures.seq hR.toInterference
    (ServiceOrderSaga.moveTo_ensures hR .cancelled rfl rfl (some .paymentFailed) hready) ?_
  rintro updated tx₂ d₂ ⟨r₀, r₁, hent, -, hperf, hres⟩ -
  refine Ensures.seq hR.toInterference (addCommand_ensures hR traceparent .cancelExecution
    h.id ⟨_, rfl, rfl⟩ hperf) ?_
  rintro - tx₃ d₃ hperf₃ -
  refine Ensures.seq hR.toInterference (addCommand_ensures hR traceparent .cancelBudget
    h.id ⟨_, rfl, rfl⟩ hperf₃) ?_
  rintro - tx₄ d₄ hperf₄ -
  intro d₅ h₅
  exact ⟨⟨_, r₀, r₁, hent, rfl, hperf₄.stable hR h₅⟩, hres⟩

/-- The command that undoes each step. -/
def ServiceOrderSaga.CancelTarget.command : ServiceOrderSaga.CancelTarget → SagaCommandType
  | .execution => .cancelExecution
  | .budget => .cancelBudget

theorem ServiceOrderSaga.cancelStep_ensures (hR : ShopInterference R)
    (traceparent : Option String) (cancel : List ServiceOrderSaga.CancelTarget)
    (target : ServiceOrderSaga.CancelTarget) {reaction : Reaction} {m : Uuid}
    {data : ServiceOrderChanges} {r₀ r₁ : OrderRow} (hid : order.id = o.text)
    (hreason : reaction.reason = some .stepFailed)
    (h : Performed R G reaction o m data r₀ r₁ tx db) :
    (ServiceOrderSaga.cancelStep traceparent order cancel target).Ensures postgres R G
      (fun _ tx' db' => Performed R G { reaction with
        commands := reaction.commands ++ if cancel.contains target then [target.command] else [] }
        o m data r₀ r₁ tx' db') tx db := by
  unfold ServiceOrderSaga.cancelStep
  by_cases hc : cancel.contains target = true
  · rw [if_pos hc, if_pos hc]
    cases target with
    | execution =>
        exact addCommand_ensures hR traceparent .cancelExecution hid ⟨_, hreason, rfl⟩ h
    | budget =>
        exact addCommand_ensures hR traceparent .cancelBudget hid ⟨_, hreason, rfl⟩ h
  · rw [if_neg hc, if_neg hc]
    intro db' h'
    simpa using h.stable hR h'

/-- A compensation releases, moves the order and tells the services named. -/
theorem ServiceOrderSaga.stepFailed_ensures (hR : ShopInterference R) (traceparent : Option String)
    (cancel : List ServiceOrderSaga.CancelTarget) (h : Due o order record tx db) :
    (ServiceOrderSaga.stepFailed traceparent order cancel).Ensures postgres R G
      (fun result tx' db' => Reacted R G
        { status := some .cancelled, reserved := -1
          commands := (if cancel.contains .execution then [.cancelExecution] else []) ++
            if cancel.contains .budget then [.cancelBudget] else []
          reason := some .stepFailed } o order record none tx' db' ∧
        result.status = .cancelled) tx db := by
  unfold ServiceOrderSaga.stepFailed
  refine Ensures.seq hR.toInterference
    (ServiceOrderSaga.releaseReservations_ensures hR h.ready) ?_
  rintro - tx₁ d₁ hready -
  refine Ensures.seq hR.toInterference
    (ServiceOrderSaga.moveTo_ensures hR .cancelled rfl rfl (some .stepFailed) hready) ?_
  rintro updated tx₂ d₂ ⟨r₀, r₁, hent, -, hperf, hres⟩ -
  refine Ensures.seq hR.toInterference
    (ServiceOrderSaga.cancelStep_ensures hR traceparent cancel .execution h.id rfl hperf) ?_
  rintro - tx₃ d₃ hperf₃ -
  refine Ensures.seq hR.toInterference
    (ServiceOrderSaga.cancelStep_ensures hR traceparent cancel .budget h.id rfl hperf₃) ?_
  rintro - tx₄ d₄ hperf₄ -
  intro d₅ h₅
  exact ⟨⟨_, r₀, r₁, hent, rfl, hperf₄.stable hR h₅⟩, hres⟩

/-! ## The algorithm every message follows -/

theorem OnlyRecorded.orders {m : Uuid} (h : OnlyRecorded m tx) (o : Uuid) :
    lastOrder tx.writes o = none := by
  obtain ⟨row, -, hwrites⟩ := h.writes
  rw [hwrites]
  rfl

/-- A message that writes no order leaves the flag down. -/
theorem flag_down {orderId : IdText} (h : ∀ o, lastOrder tx.writes o = none) (o : Uuid) :
    StatusMoved o tx db ↔ false = true ∧ orderId.column? = some o := by
  constructor
  · intro hmoved
    exact absurd hmoved (not_statusMoved (h o))
  · rintro ⟨hfalse, -⟩
    cases hfalse

/-- A reaction changes the status of its own order, exactly when it returns
the order with another status than was read. -/
theorem Reacted.moved {reaction : Reaction} {budgetTotal : Option ℚ} {result : ServiceOrder}
    (h : Reacted R G reaction o order record budgetTotal tx db)
    (hres : result.status = reaction.status.getD order.status) (o' : Uuid) :
    StatusMoved o' tx db ↔ o' = o ∧ result.status ≠ order.status := by
  obtain ⟨data, r₀, r₁, hent, -, hperf⟩ := h
  have hread : order.status = r₀.status := by
    rw [← hent]
    rfl
  rw [hperf.commit.statusMoved_iff, hperf.status, hres, hread]

/-- An order handed back as it was read, with nothing written. -/
theorem OnlyRecorded.kept {m : Uuid} {status : OSStatus} (h : OnlyRecorded m tx) (o' : Uuid) :
    StatusMoved o' tx db ↔ o' = o ∧ status ≠ status :=
  ⟨fun hmoved => absurd hmoved (not_statusMoved (h.orders o')), fun hne => absurd rfl hne.2⟩

/-- A unit of work that handles a message, for any effect: the message is
recorded at most once, and the effect runs only on a recorded message whose
order was read in an expected status. -/
theorem ServiceOrderSaga.process_ensures (hR : ShopInterference R)
    (message : ServiceOrderSaga.SagaMessage) (expected : ServiceOrderSaga.Expected)
    {effect : ServiceOrder → Work ServiceOrderSaga.Effect}
    {Effect : Uuid → Uuid → ShopTx → Db → Prop}
    (heffect : ∀ o order record tx db, Due o order record tx db →
      expected.admits order.status = true →
      (effect order).Ensures postgres R G (fun applied tx' db' => Effect record.messageId o tx' db' ∧
        ∀ o', StatusMoved o' tx' db' ↔ o' = o ∧ applied.serviceOrder.status ≠ order.status) tx db)
    {db : Db} :
    (ServiceOrderSaga.process message expected effect).Ensures postgres R G
      (fun res tx db' => Processed R message.messageId message.serviceOrderId expected Effect
          res.outcome tx db' ∧
        ∀ o, StatusMoved o tx db' ↔ res.statusChanged = true ∧
          message.serviceOrderId.column? = some o) {} db := by
  unfold ServiceOrderSaga.process
  refine Ensures.seq hR.toInterference
    (ProcessedMessages.markProcessed_ensures hR message.messageId message.type) ?_
  rintro marked tx₁ d₁ ⟨m, hm, hold, hnew⟩ -
  cases marked with
  | false =>
      -- recorded before: records are never deleted, so it still is
      rcases hold rfl with ⟨hc, r, hr⟩
      intro db' h'
      refine ⟨.duplicate m hm ⟨r, (hR.rely _ _ _ h').recordStays m r hr⟩ hc.start.1 hc.start.2,
        flag_down fun o => ?_⟩
      rw [hc.start.1]
      rfl
  | true =>
      rcases hnew rfl with ⟨hnone, record, hrecord, hc₁⟩
      rcases hc₁.start with ⟨hwrites₁, hclaims₁⟩
      -- the new record is locked, so no other transaction commits the same id
      have hheld : ∀ {d d'}, R tx₁.writes d d' → d.processed.find? m = none →
          d'.processed.find? m = none := by
        intro d d' hdd hd
        rw [(hR.rely _ _ _ hdd).recordHeld m record (by
          rw [hwrites₁]
          simp [Write.processed?, hrecord])]
        exact hd
      have hno₁ : ∀ o, lastOrder tx₁.writes o = none := by
        intro o
        rw [hwrites₁]
        rfl
      refine Ensures.seq hR.toInterference
        (ServiceOrderRepository.findById_ensures hR message.serviceOrderId hno₁) ?_
      rintro found tx₂ d₂ ⟨hc₂, hfound⟩ h₂
      rcases (hc₁.trans hc₂).start with ⟨hwrites₂, hclaims₂⟩
      have honly : OnlyRecorded m tx₂ := ⟨⟨record, hrecord, hwrites₂⟩, hclaims₂⟩
      have hback : ∀ {d}, R tx₂.writes d₂ d → R tx₁.writes d₂ d := by
        intro d hd
        rw [hc₂.writes] at hd
        exact hR.held _ _ _ _ hd
      cases found with
      | none =>
          intro db' h'
          -- there was no such order when it was read
          refine ⟨.ignored m hm (hheld (hback h') (hheld h₂ hnone)) honly ?_,
            flag_down honly.orders⟩
          intro o ho
          refine ((hfound o ho).stable hR.toInterference h').imp ?_
          intro d hd r hr
          rw [hd] at hr
          cases hr
      | some order =>
          rcases hfound with ⟨o, ho, hf⟩
          dsimp only
          split
          · -- a stale message: recorded, and nothing else
            next hadmits =>
            intro db' h'
            refine ⟨.ignored m hm (hheld (hback h') (hheld h₂ hnone)) honly ?_,
              flag_down honly.orders⟩
            intro o' ho'
            rw [ho] at ho'
            cases ho'
            refine (hf.status.stable hR.toInterference h').imp ?_
            rintro d ⟨r, hr, hstatus⟩ r' hr'
            rw [hr] at hr'
            cases hr'
            rw [hstatus]
            simpa using hadmits
          · next hadmits =>
            have hadmits : expected.admits order.status = true := by simpa using hadmits
            -- the message is due: what it does from here on is the effect's
            have hdue : Due o order record tx₂ d₂ := ⟨hwrites₂, hclaims₂, hf.id, hf.seen⟩
            refine Ensures.map hR.toInterference
              (((heffect o order record tx₂ d₂ hdue hadmits).since hR.toInterference).post ?_)
            rintro applied tx₃ d₃ ⟨⟨heff, hmoved⟩, h₃⟩
            rw [hrecord] at heff
            refine ⟨.applied m o hm (hheld (hback h₃) (hheld h₂ hnone)) ho ?_ heff, ?_⟩
            swap
            · intro o'
              rw [decide_eq_true_eq, hmoved, ho, Option.some.injEq, eq_comm (a := o), and_comm]
            refine (hf.status.stable hR.toInterference h₃).imp ?_
            rintro d ⟨r, hr, hstatus⟩
            exact ⟨r, hr, by rw [hstatus]; exact hadmits⟩

/-! ## Replies and dead commands -/

/-- The order of a reaction carried out was due the message. -/
theorem Reacted.status {reaction : Reaction} {budgetTotal : Option ℚ}
    (h : Reacted R G reaction o order record budgetTotal tx db) :
    ∃ data r₀ r₁, Performed R G reaction o record.messageId data r₀ r₁ tx db ∧
      r₀.status = order.status ∧ r₀.customerId.text = order.customerId ∧
      data.budgetTotal = budgetTotal := by
  rcases h with ⟨data, r₀, r₁, hent, hb, hperf⟩
  refine ⟨data, r₀, r₁, hperf, ?_, ?_, hb⟩
  · rw [← hent]
    rfl
  · rw [← hent]
    rfl

theorem Due.onlyRecorded (h : Due o order record tx db) : OnlyRecorded record.messageId tx :=
  ⟨⟨record, rfl, h.writes⟩, h.claims⟩

/-- A reply of another type than the two that read or bring data. -/
theorem replyApplied_of_reacted {reply : SagaReply} {reaction : Reaction}
    (hreaction : replyReaction reply.type = some reaction)
    (hstatus : order.status ∈ ServiceOrderSaga.expectedStatus reply.type)
    (hbudget : reply.type ≠ .budgetGenerated) (hdiagnosis : reply.type ≠ .diagnosisCompleted)
    (h : Reacted R G reaction o order record none tx db) :
    ReplyApplied R G reply record.messageId o tx db := by
  rcases h.status with ⟨data, r₀, r₁, hperf, hs, -, hb⟩
  unfold ReplyApplied
  rw [hreaction]
  refine ⟨data, r₀, r₁, hperf, ?_, fun h => absurd h hbudget, fun _ => hb,
    fun h => absurd h hdiagnosis⟩
  rw [hs]
  exact hstatus

theorem ServiceOrderSaga.apply_ensures (hR : ShopInterference R) (reply : SagaReply)
    (traceparent : Option String) (h : Due o order record tx db)
    (hstatus : order.status ∈ ServiceOrderSaga.expectedStatus reply.type) :
    (ServiceOrderSaga.apply traceparent order reply).Ensures postgres R G
      (fun result tx' db' => ReplyApplied R G reply record.messageId o tx' db' ∧
        ∀ o', StatusMoved o' tx' db' ↔ o' = o ∧ result.status ≠ order.status) tx db := by
  unfold ServiceOrderSaga.apply
  cases htype : reply.type with
  | diagnosisStarted =>
      refine (ServiceOrderSaga.moveOnly_ensures hR .diagnosis {} rfl rfl rfl h).post ?_
      rintro result tx' db' ⟨hreact, hres⟩
      exact ⟨replyApplied_of_reacted (by rw [htype]; rfl) hstatus (by rw [htype]; decide)
        (by rw [htype]; decide) hreact, hreact.moved hres⟩
  | diagnosisCompleted =>
      refine (ServiceOrderSaga.diagnosisCompleted_ensures hR traceparent h).post ?_
      rintro result tx' db' ⟨⟨hreact, hres⟩, c, hc, hactive⟩
      refine ⟨?_, hreact.moved hres⟩
      rcases hreact.status with ⟨data, r₀, r₁, hperf, hs, hcust, hb⟩
      -- the customer read is the one of the row that was claimed
      have hcc : c = r₀.customerId := by
        rw [← hcust] at hc
        exact (Option.some.inj hc).symm
      unfold ReplyApplied
      rw [htype]
      refine ⟨data, r₀, r₁, hperf, ?_, by simp, fun _ => hb, fun _ => ?_⟩
      · rw [hs, ← htype]
        exact hstatus
      · rw [← hcc]
        exact hactive
  | budgetGenerated =>
      refine (ServiceOrderSaga.budgetGenerated_ensures hR reply h).post ?_
      rintro result tx' db' ⟨total, htotal, hreact, hres⟩
      refine ⟨?_, hreact.moved hres⟩
      rcases hreact.status with ⟨data, r₀, r₁, hperf, hs, -, hb⟩
      unfold ReplyApplied
      rw [htype]
      refine ⟨data, r₀, r₁, hperf, ?_, fun _ => ⟨total, htotal, hb⟩, by simp, by simp⟩
      rw [hs, ← htype]
      exact hstatus
  | budgetApproved =>
      refine (ServiceOrderSaga.moveAndSend_ensures hR traceparent .approved none .requestPayment
        .empty (fun _ _ => rfl) h.ready).post ?_
      rintro result tx' db' ⟨hreact, hres⟩
      exact ⟨replyApplied_of_reacted (by rw [htype]; rfl) hstatus (by rw [htype]; decide)
        (by rw [htype]; decide) hreact, hreact.moved hres⟩
  | budgetRejected =>
      refine (ServiceOrderSaga.budgetRejected_ensures hR traceparent h).post ?_
      rintro result tx' db' ⟨hreact, hres⟩
      exact ⟨replyApplied_of_reacted (by rw [htype]; rfl) hstatus (by rw [htype]; decide)
        (by rw [htype]; decide) hreact, hreact.moved hres⟩
  | paymentConfirmed =>
      refine (ServiceOrderSaga.paymentConfirmed_ensures hR traceparent h).post ?_
      rintro result tx' db' ⟨hreact, hres⟩
      exact ⟨replyApplied_of_reacted (by rw [htype]; rfl) hstatus (by rw [htype]; decide)
        (by rw [htype]; decide) hreact, hreact.moved hres⟩
  | paymentFailed =>
      refine (ServiceOrderSaga.paymentFailed_ensures hR traceparent h).post ?_
      rintro result tx' db' ⟨hreact, hres⟩
      exact ⟨replyApplied_of_reacted (by rw [htype]; rfl) hstatus (by rw [htype]; decide)
        (by rw [htype]; decide) hreact, hreact.moved hres⟩
  | repairStarted =>
      intro startedAt
      refine (ServiceOrderSaga.moveOnly_ensures hR .execution { startedAt := some startedAt }
        rfl rfl rfl h).post ?_
      rintro result tx' db' ⟨hreact, hres⟩
      exact ⟨replyApplied_of_reacted (by rw [htype]; rfl) hstatus (by rw [htype]; decide)
        (by rw [htype]; decide) hreact, hreact.moved hres⟩
  | repairCompleted =>
      intro finishedAt
      refine (ServiceOrderSaga.moveOnly_ensures hR .finished
        { finishedAt := some finishedAt } rfl rfl rfl h).post ?_
      rintro result tx' db' ⟨hreact, hres⟩
      exact ⟨replyApplied_of_reacted (by rw [htype]; rfl) hstatus (by rw [htype]; decide)
        (by rw [htype]; decide) hreact, hreact.moved hres⟩
  | executionCancelled =>
      -- a confirmation writes nothing
      intro db' _
      refine ⟨?_, h.onlyRecorded.kept⟩
      unfold ReplyApplied
      rw [htype]
      exact h.onlyRecorded
  | budgetCancelled =>
      intro db' _
      refine ⟨?_, h.onlyRecorded.kept⟩
      unfold ReplyApplied
      rw [htype]
      exact h.onlyRecorded

/-- A reply is recorded, and has its reaction if the order is at its step. -/
theorem ServiceOrderSaga.handle_ensures (hR : ShopInterference R) (reply : SagaReply)
    (traceparent : Option String) {db : Db} :
    (ServiceOrderSaga.handle reply traceparent).Ensures postgres R G
      (fun res tx db' => Processed R reply.messageId reply.serviceOrderId
          (.oneOf (ServiceOrderSaga.expectedStatus reply.type)) (ReplyApplied R G reply) res.outcome
          tx db' ∧
        ∀ o, StatusMoved o tx db' ↔ res.statusChanged = true ∧
          reply.serviceOrderId.column? = some o) {} db := by
  unfold ServiceOrderSaga.handle
  refine ServiceOrderSaga.process_ensures hR _ _ ?_
  intro o order record tx db hdue hadmits
  have hstatus : order.status ∈ ServiceOrderSaga.expectedStatus reply.type := by
    simpa [ServiceOrderSaga.Expected.admits] using hadmits
  exact Ensures.map hR.toInterference
    (ServiceOrderSaga.apply_ensures hR reply traceparent hdue hstatus)

/-- The cancel list of a dead command gives the commands of its reaction. -/
theorem failedCommandReaction_of_cancel {type : SagaCommandType}
    {cancel : List ServiceOrderSaga.CancelTarget}
    (h : (ServiceOrderSaga.failedCommand type).2 = .cancel cancel) :
    failedCommandReaction type = some
      { status := some .cancelled, reserved := -1
        commands := (if cancel.contains .execution then [.cancelExecution] else []) ++
          if cancel.contains .budget then [.cancelBudget] else []
        reason := some .stepFailed } := by
  cases type <;> cases h <;> rfl

theorem ServiceOrderSaga.handleFailedCommand_ensures (hR : ShopInterference R)
    (command : FailedSagaCommand) (traceparent : Option String) {db : Db} :
    (ServiceOrderSaga.handleFailedCommand command traceparent).Ensures postgres R G
      (fun res tx db' => Processed R command.messageId command.serviceOrderId
          (ServiceOrderSaga.failedCommand command.type).1 (FailureApplied R G command) res.outcome
          tx db' ∧
        ∀ o, StatusMoved o tx db' ↔ res.statusChanged = true ∧
          command.serviceOrderId.column? = some o) {} db := by
  unfold ServiceOrderSaga.handleFailedCommand
  refine ServiceOrderSaga.process_ensures hR _ _ ?_
  intro o order record tx db hdue hadmits
  unfold ServiceOrderSaga.failedCommandEffect
  cases hrule : (ServiceOrderSaga.failedCommand command.type).2 with
  | report =>
      -- reported, and nothing undone
      intro db' _
      refine ⟨?_, hdue.onlyRecorded.kept⟩
      unfold FailureApplied
      have hnone : failedCommandReaction command.type = none := by
        cases htype : command.type <;> rw [htype] at hrule <;> first | rfl | cases hrule
      rw [hnone]
      exact hdue.onlyRecorded
  | cancel cancel =>
      refine Ensures.map hR.toInterference
        ((ServiceOrderSaga.stepFailed_ensures hR traceparent cancel hdue).post ?_)
      rintro result tx' db' ⟨hreact, hres⟩
      refine ⟨?_, hreact.moved hres⟩
      rcases hreact.status with ⟨data, r₀, r₁, hperf, hs, -, hb⟩
      unfold FailureApplied
      rw [failedCommandReaction_of_cancel hrule]
      refine ⟨data, r₀, r₁, hperf, ?_, hb⟩
      rw [hs]
      exact hadmits

end Saga

end CarRepairShop
