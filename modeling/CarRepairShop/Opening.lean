import CarRepairShop.Refusals

/-! # Opening an order

How `CreateServiceOrder` ends. It checks that the services and the items are there
and reserves the units; the rest is left to the constraints: the customer and the
vehicle, one line for each service and item, a positive quantity. A line that is
refused ends the call before any of them is met, so the order of the lines counts.
`refusals_are_answered_iff` puts all the calls together.
-/

namespace CarRepairShop

open Lib Txn Prog

/-! ## The lines of the input -/

/-- After the lines `done`, the line can be reserved, and the counter stays in its range. -/
def LineReserves (db : Db) (done : List OSItem) (line : OSItem) : Prop :=
  ∃ row, db.item? line.itemId = some row ∧
    line.quantity ≤ row.stockQuantity - (row.reservedQuantity + unitsOf done row.id) ∧
    0 ≤ row.reservedQuantity + unitsOf done row.id + line.quantity

/-- After the lines `done`, there is no such item, or not as many units of it as the line asks
for in a number that the statement takes. -/
def LineRefused (db : Db) (done : List OSItem) (line : OSItem) : Prop :=
  ∀ row, db.item? line.itemId = some row → line.quantity ≤ maxInteger ∧
    row.stockQuantity - (row.reservedQuantity + unitsOf done row.id) < line.quantity

/-- Every line can be reserved after those before it. -/
def LinesReserve (db : Db) (lines : List OSItem) : Prop :=
  ∀ done line rest, lines = done ++ line :: rest → LineReserves db done line

/-- The customer and the vehicle are there, in any spelling PostgreSQL reads, no service or item
comes twice, and the quantities are positive and fit their column. -/
structure OpensWell (db : Db) (input : CreateServiceOrderInput) : Prop where
  customer : (input.customerId.stored?.bind db.customers.find?).isSome = true
  vehicle : (input.vehicleId.stored?.bind db.vehicles.find?).isSome = true
  services : (input.services.map IdText.stored?).Nodup
  items : (input.items.map (·.itemId.stored?)).Nodup
  quantities : ∀ line ∈ input.items, 1 ≤ line.quantity ∧ line.quantity ≤ maxInteger

/-- A service is missing, or the first line that cannot be reserved is refused, or the order can
be stored. -/
def CreateFits (db : Db) (input : CreateServiceOrderInput) : Prop :=
  (∃ service ∈ input.services, db.service? service = none) ∨
  (∃ done line rest, input.items = done ++ line :: rest ∧ LinesReserve db done ∧
    LineRefused db done line) ∨
  OpensWell db input

section Lines

variable {db : Db}

theorem LineReserves.not_refused {done : List OSItem} {line : OSItem} (h : LineReserves db done line) :
    ¬LineRefused db done line := by
  obtain ⟨row, hrow, havailable, -⟩ := h
  intro hrefused
  have hshort := (hrefused row hrow).2
  omega

theorem linesReserve_nil : LinesReserve db [] := by
  intro done line rest h
  simp at h

theorem LinesReserve.snoc {lines : List OSItem} {line : OSItem} (h : LinesReserve db lines)
    (hline : LineReserves db lines line) : LinesReserve db (lines ++ [line]) := by
  intro done x rest heq
  obtain ⟨mid, rfl, hmid⟩ | ⟨mid, rfl, hmid⟩ := List.append_eq_append_iff.mp heq
  · cases mid with
    | nil =>
        obtain ⟨rfl, -⟩ := List.cons.inj hmid
        rw [List.append_nil]
        exact hline
    | cons y ys => simp at hmid
  · cases mid with
    | nil =>
        obtain ⟨rfl, -⟩ := List.cons.inj hmid
        rw [List.append_nil] at hline
        exact hline
    | cons y ys =>
        obtain ⟨rfl, -⟩ := List.cons.inj hmid
        exact h done x ys rfl

/-- Of two ways to split the lines where all before the split can be reserved, none goes on
past a line that cannot. -/
theorem LinesReserve.split_unique {done done' rest rest' : List OSItem} {line line' : OSItem}
    (heq : done ++ line :: rest = done' ++ line' :: rest') (hdone : LinesReserve db done)
    (hdone' : LinesReserve db done') (hstops : ¬LineReserves db done line)
    (hstops' : ¬LineReserves db done' line') : done = done' ∧ line = line' := by
  obtain ⟨mid, rfl, hmid⟩ | ⟨mid, rfl, hmid⟩ := List.append_eq_append_iff.mp heq
  · cases mid with
    | nil =>
        obtain ⟨rfl, -⟩ := List.cons.inj hmid
        exact ⟨(List.append_nil done).symm, rfl⟩
    | cons x xs =>
        obtain ⟨rfl, -⟩ := List.cons.inj hmid
        exact absurd (hdone' done line xs rfl) hstops
  · cases mid with
    | nil =>
        obtain ⟨rfl, -⟩ := List.cons.inj hmid
        exact ⟨List.append_nil done', rfl⟩
    | cons x xs =>
        obtain ⟨rfl, -⟩ := List.cons.inj hmid
        exact absurd (hdone done' line' xs rfl) hstops'

theorem LinesReserve.not_refused {lines done rest : List OSItem} {line : OSItem}
    (h : LinesReserve db lines) (heq : lines = done ++ line :: rest) : ¬LineRefused db done line :=
  (h done line rest heq).not_refused

/-- A line that takes the counter out of its range, or is out of range itself, is no refusal:
nothing that `CreateFits` names is the case. -/
theorem not_createFits {input : CreateServiceOrderInput} {done rest : List OSItem} {line : OSItem}
    (hservices : ∀ service ∈ input.services, db.service? service ≠ none)
    (hitems : input.items = done ++ line :: rest) (hdone : LinesReserve db done)
    {row : ItemRow} (hrow : db.item? line.itemId = some row)
    (hbad : maxInteger < line.quantity ∨
      line.quantity ≤ row.stockQuantity - (row.reservedQuantity + unitsOf done row.id) ∧
        row.reservedQuantity + unitsOf done row.id + line.quantity < 0)
    (hcounted : 0 ≤ row.reservedQuantity + unitsOf done row.id) : ¬CreateFits db input := by
  have hstock := (Db.item?_checks hrow).stockFits
  have hstops : ¬LineReserves db done line := by
    rintro ⟨row', hrow', havailable, hrange⟩
    rw [hrow, Option.some.injEq] at hrow'
    subst hrow'
    omega
  rintro (⟨service, hmem, hnone⟩ | ⟨done', line', rest', hitems', hdone', hrefused⟩ | hopens)
  · exact hservices service hmem hnone
  · have hstops' : ¬LineReserves db done' line' := fun h => h.not_refused hrefused
    obtain ⟨rfl, rfl⟩ :=
      hdone.split_unique (hitems.symm.trans hitems') hdone' hstops hstops'
    have hshort := hrefused row hrow
    omega
  · have hquantities := hopens.quantities
    rw [hitems] at hquantities
    have hline := hquantities line (by simp)
    omega

end Lines

section Opening

variable {v : Db}

/-- The tables with the units of the lines reserved. -/
structure ReservedUnits (v : Db) (lines : List OSItem) (v' : Db) : Prop where
  rest : v' = { v with items := v'.items }
  items : ∀ j, v'.items.find? j = (v.items.find? j).map fun row => row.shift (unitsOf lines j) 0

theorem reservedUnits_nil : ReservedUnits v [] v where
  rest := rfl
  items := by simp [ItemRow.shift]

theorem ReservedUnits.snoc {lines : List OSItem} {v' v'' : Db} {line : OSItem} {i : Uuid}
    (h : ReservedUnits v lines v') (hcol : line.itemId.column? = some i)
    (hmoved : MovedOne v' i line.quantity 0 v'') : ReservedUnits v (lines ++ [line]) v'' where
  rest := by rw [hmoved.rest, h.rest]
  items := by
    intro j
    rw [hmoved.items, h.items, Option.map_map, unitsOf_append, unitsOf_singleton hcol]
    congr 1
    funext row
    by_cases hj : j = i
    · simp [hj, unitsAt, ItemRow.shift_shift]
    · simp [hj, unitsAt]

theorem CreateServiceOrder.resolveServices_ends (services : List IdText) :
    (resolveServices services).Ends postgres
      (fun out v' => v' = v ∧ out = services.map OSService.mk ∧
        ∀ service ∈ services, v.service? service ≠ none)
      (fun failure => (∃ error, failure = .app error) ∧
        ∃ service ∈ services, v.service? service = none) v := by
  refine (Ends.each (I := fun done out v' => v' = v ∧ out = done.map OSService.mk ∧
    ∀ service ∈ done, v.service? service ≠ none) (by simp) ?_)
  rintro done service rest out v' hservices ⟨rfl, rfl, hdone⟩
  have hmem : service ∈ services := by simp [hservices]
  unfold resolveService ServiceRepository.findById
  cases hcol : service.column? with
  | none => exact ⟨⟨_, rfl⟩, service, hmem, by simp [Db.service?, hcol]⟩
  | some s =>
      refine ends_sql.mpr ?_
      cases hrow : v'.services.find? s with
      | none =>
          simp only [exec, hrow]
          exact ⟨⟨_, rfl⟩, service, hmem, by simp [Db.service?, hcol, hrow]⟩
      | some row =>
          simp only [exec, hrow]
          refine ⟨rfl, by simp, ?_⟩
          intro service' hservice'
          obtain hservice' | hservice' := List.mem_append.mp hservice'
          · exact hdone service' hservice'
          · rw [List.mem_singleton.mp hservice']
            simp [Db.service?, hcol, hrow]

/-- The loop over the items: all are reserved, or the first that cannot be ends it. -/
theorem CreateServiceOrder.reserveLines_ends {input : CreateServiceOrderInput}
    (hservices : ∀ service ∈ input.services, v.service? service ≠ none) :
    (each reserveLine input.items).Ends postgres
      (fun out v' => out = input.items ∧ ReservedUnits v input.items v' ∧
        LinesReserve v input.items)
      (RefusedIf (CreateFits v input)) v := by
  refine (Ends.each (I := fun done out v' => out = done ∧ ReservedUnits v done v' ∧
    LinesReserve v done) ⟨rfl, reservedUnits_nil, linesReserve_nil⟩ ?_)
  rintro done line rest out v' hitems ⟨rfl, hreserved, hlines⟩
  -- a refusal is what `CreateFits` allows
  have hrefuse : LineRefused v out line → CreateFits v input :=
    fun hrefused => .inr (.inl ⟨out, line, rest, hitems, hlines, hrefused⟩)
  unfold reserveLine ItemRepository.findById
  cases hcol : line.itemId.column? with
  | none =>
      refine hrefuse ?_
      intro row hrow
      simp [Db.item?, hcol] at hrow
  | some i =>
      refine ends_sql.mpr ?_
      simp only [exec, hreserved.items]
      cases hrow : v.items.find? i with
      | none =>
          refine hrefuse ?_
          intro row hrow'
          simp [Db.item?, hcol, hrow] at hrow'
      | some row =>
          have hid : row.id = i := item_id hrow
          subst hid
          have hfound : v.item? line.itemId = some row := by simp [Db.item?, hcol, hrow]
          have hview : v'.items.find? row.id = some (row.shift (unitsOf out row.id) 0) := by
            rw [hreserved.items, hrow]
            rfl
          simp only [Option.map_some]
          refine ((ItemRepository.reserve_ends line.quantity hcol hview).mono ?_ ?_).bind
          · rintro reserved v'' (⟨rfl, hinteger, hshort, -⟩ | ⟨rfl, havailable, hcounter, hmoved⟩)
            · refine hrefuse ?_
              intro row' hrow'
              rw [hfound, Option.some.injEq] at hrow'
              subst hrow'
              refine ⟨hinteger, ?_⟩
              simpa [ItemRow.shift] using hshort
            · refine ⟨rfl, hreserved.snoc hcol hmoved, hlines.snoc ⟨row, hfound, ?_, ?_⟩⟩
              · simpa [ItemRow.shift] using havailable
              · simpa [ItemRow.shift] using hcounter
          · rintro failure ⟨⟨error, rfl⟩, hbad⟩
            have hcounted := (Table.check_of_find? hview).reservedNonNegative
            refine not_createFits hservices hitems hlines hfound ?_ ?_
            · simpa [ItemRow.shift] using hbad
            · simpa [ItemRow.shift] using hcounted

/-- What `serviceOrders.create` does once it has drawn the id. -/
def ServiceOrderRepository.createAs (id : Uuid) (data : NewServiceOrder) : Work ServiceOrder := do
  let createdAt ← now
  let row : OrderColumns ← sql (.insertOrder id data.customerId data.vehicleId data.status data.budgetTotal
    createdAt)
  sql (.createServiceLines id data.services)
  sql (.createItemLines id data.items)
  let order ← includeRelations row
  let changedAt ← now
  sql (.insertHistory id { fromStatus := none, toStatus := row.status, changedAt })
  .pure order

theorem ServiceOrderRepository.create_eq (data : NewServiceOrder) :
    create data = fresh >>= fun id => createAs id data := rfl

/-- Values that all have a counterpart. -/
theorem exists_map_eq {α β γ : Type} {f : β → γ} {g : α → γ} {P : β → Prop} {xs : List α}
    (h : ∀ x ∈ xs, ∃ y, f y = g x ∧ P y) : ∃ ys : List β, ys.map f = xs.map g ∧ ∀ y ∈ ys, P y := by
  induction xs with
  | nil => exact ⟨[], rfl, by simp⟩
  | cons x xs ih =>
      obtain ⟨y, hy, hP⟩ := h x List.mem_cons_self
      obtain ⟨ys, hys, hall⟩ := ih fun x' hx' => h x' (List.mem_cons_of_mem _ hx')
      refine ⟨y :: ys, by rw [List.map_cons, List.map_cons, hy, hys], ?_⟩
      intro y' hy'
      obtain rfl | hy' := List.mem_cons.mp hy'
      · exact hP
      · exact hall y' hy'

theorem serviceIds_there {services : List IdText}
    (h : ∀ service ∈ services, v.service? service ≠ none) :
    ∃ ids : List Uuid, ids.map some = services.map IdText.stored? ∧
      ∀ s ∈ ids, (v.services.find? s).isSome = true := by
  refine exists_map_eq ?_
  intro service hservice
  obtain ⟨row, hrow⟩ := Option.ne_none_iff_exists'.mp (h service hservice)
  obtain ⟨s, hs, hfound⟩ := Option.bind_eq_some_iff.mp hrow
  exact ⟨s, (IdText.stored?_of_column? hs).symm, by rw [hfound]; rfl⟩

theorem LinesReserve.items_there {lines : List OSItem} (h : LinesReserve v lines) :
    ∃ new : List ItemLine, new.map (fun x => (some x.itemId, x.quantity)) =
        lines.map (fun x => (x.itemId.stored?, x.quantity)) ∧
      ∀ x ∈ new, (v.items.find? x.itemId).isSome = true := by
  refine exists_map_eq ?_
  intro line hline
  obtain ⟨done, rest, hlines⟩ := List.append_of_mem hline
  obtain ⟨row, hrow, -⟩ := h done line rest hlines
  obtain ⟨i, hi, hfound⟩ := Option.bind_eq_some_iff.mp hrow
  exact ⟨⟨i, line.quantity⟩, by simp [IdText.stored?_of_column? hi], by rw [hfound]; rfl⟩

/-- `OpensWell`, by the lines that are stored. -/
theorem opensWell_iff {input : CreateServiceOrderInput} {ids : List Uuid} {new : List ItemLine}
    (hids : ids.map some = input.services.map IdText.stored?)
    (hcols : new.map (fun x => (some x.itemId, x.quantity)) =
      input.items.map (fun x => (x.itemId.stored?, x.quantity))) :
    OpensWell v input ↔ (input.customerId.stored?.bind v.customers.find?).isSome = true ∧
      (input.vehicleId.stored?.bind v.vehicles.find?).isSome = true ∧ ids.Nodup ∧
        (new.map (·.itemId)).Nodup ∧ ∀ l ∈ new, 0 < l.quantity ∧ l.quantity ≤ maxInteger := by
  have hservices : (input.services.map IdText.stored?).Nodup ↔ ids.Nodup := by
    rw [← hids]
    exact List.nodup_map_iff (Option.some_injective _)
  have hitems : (input.items.map (·.itemId.stored?)).Nodup ↔ (new.map (·.itemId)).Nodup := by
    have hfst := congrArg (List.map Prod.fst) hcols
    simp only [List.map_map] at hfst
    rw [show input.items.map (·.itemId.stored?) = (new.map (·.itemId)).map some from by
      rw [List.map_map]
      exact hfst.symm]
    exact List.nodup_map_iff (Option.some_injective _)
  have hquantities : input.items.map (·.quantity) = new.map (·.quantity) := by
    have hsnd := congrArg (List.map Prod.snd) hcols
    simp only [List.map_map] at hsnd
    exact hsnd.symm
  have hall : (∀ l ∈ input.items, 1 ≤ l.quantity ∧ l.quantity ≤ maxInteger) ↔
      ∀ l ∈ new, 0 < l.quantity ∧ l.quantity ≤ maxInteger := by
    rw [← List.forall_mem_map (f := fun l : OSItem => l.quantity)
      (P := fun q => 1 ≤ q ∧ q ≤ maxInteger), hquantities, List.forall_mem_map]
    exact Iff.rfl
  constructor
  · intro h
    exact ⟨h.customer, h.vehicle, hservices.mp h.services, hitems.mp h.items, hall.mp h.quantities⟩
  · rintro ⟨hcustomer, hvehicle, hnodup, hnodup', hquantity⟩
    exact ⟨hcustomer, hvehicle, hservices.mpr hnodup, hitems.mpr hnodup', hall.mpr hquantity⟩

/-- The row of a new order before its lines are stored. -/
def openedRow (id customerId vehicleId : Uuid) (createdAt : ℕ) : OrderRow where
  id := id
  customerId := customerId
  vehicleId := vehicleId
  status := .received
  budgetTotal := none
  createdAt := createdAt
  startedAt := none
  finishedAt := none
  deliveredAt := none
  version := 0
  services := []
  items := []
  history := []

/-- The checks of a new row with its lines. -/
theorem openedRow_checks {id customerId vehicleId : Uuid} {createdAt : ℕ} {ids : List Uuid}
    {new : List ItemLine} {history : List StatusChange} :
    OrderRow.Checks { openedRow id customerId vehicleId createdAt with
        services := ids, items := new, history := history } ↔
      ids.Nodup ∧ (new.map (·.itemId)).Nodup ∧
        ∀ l ∈ new, 0 < l.quantity ∧ l.quantity ≤ maxInteger := by
  constructor
  · intro h
    exact ⟨h.oneLinePerService, h.oneLinePerItem,
      fun l hl => ⟨h.quantityPositive l hl, h.quantityFits l hl⟩⟩
  · rintro ⟨hids, hnew, hquantity⟩
    constructor
    · exact hids
    · exact hnew
    · exact fun l hl => (hquantity l hl).1
    · exact fun l hl => (hquantity l hl).2
    · intro total htotal
      cases htotal
    · intro total htotal
      cases htotal
    · show ((0 : ℕ) : ℤ) ≤ maxInteger
      decide

/-- A new order refers to a customer and a vehicle that are there. -/
theorem exec_insertOrder {n customer vehicle : Uuid} {customerId vehicleId : IdText}
    (hnew : v.orders.find? n = none) (hcustomer : customerId.stored? = some customer)
    (hvehicle : vehicleId.stored? = some vehicle)
    (hrow : (v.customers.find? customer).isSome = true)
    (hrow' : (v.vehicles.find? vehicle).isSome = true) (t : ℕ)
    (hc : (openedRow n customer vehicle t).Checks) :
    exec (.insertOrder n customerId vehicleId .received none t) v
      = .ok ((openedRow n customer vehicle t).toOrderColumns, [.putOrder _ hc]) := by
  have hthere : ¬((v.customers.find? customer).isNone = true ∨
      (v.vehicles.find? vehicle).isNone = true) := by
    simp only [Option.isNone_iff_eq_none, ← Option.not_isSome_iff_eq_none, hrow, hrow']
    simp
  have hstore : storeOrder (openedRow n customer vehicle t) = .ok [.putOrder _ hc] :=
    storeOrder_checked hc
  unfold openedRow at hstore ⊢
  simp only [exec, hcustomer, hvehicle, hnew, Option.isSome_none, Bool.false_eq_true, if_false,
    hthere, Option.map_none, hstore]
  rfl

/-- Without one of them the database refuses it. -/
theorem exec_insertOrder_refused {n : Uuid} {customerId vehicleId : IdText}
    (hnew : v.orders.find? n = none)
    (hmissing : ¬((customerId.stored?.bind v.customers.find?).isSome = true ∧
      (vehicleId.stored?.bind v.vehicles.find?).isSome = true)) (t : ℕ) :
    ∃ error, exec (.insertOrder n customerId vehicleId .received none t) v = .error (.db error) := by
  simp only [exec, hnew, Option.isSome_none, Bool.false_eq_true, if_false]
  cases hcustomer : customerId.stored? with
  | none => exact ⟨_, rfl⟩
  | some customer =>
      cases hvehicle : vehicleId.stored? with
      | none => exact ⟨_, rfl⟩
      | some vehicle =>
          simp only [hcustomer, hvehicle, Option.bind_some] at hmissing
          refine ⟨.foreignKey, if_pos ?_⟩
          by_cases hrow : (v.customers.find? customer).isSome = true
          · right
            simpa [hrow] using hmissing
          · left
            simpa using hrow

/-- The order is stored where the input opens well, once its services are there and its items
are reserved. -/
theorem ServiceOrderRepository.createAs_ends {input : CreateServiceOrderInput} {v₁ : Db} {n : Uuid}
    (hservices : ∀ service ∈ input.services, v.service? service ≠ none)
    (hreserved : ReservedUnits v input.items v₁) (hlines : LinesReserve v input.items)
    (hnew : v₁.orders.find? n = none) :
    (createAs n { customerId := input.customerId, vehicleId := input.vehicleId, status := .received
                  services := input.services.map OSService.mk, items := input.items }).Ends postgres
      (fun order v' => order.id = n.text ∧ (v'.orders.find? n).isSome = true ∧ OpensWell v input)
      (RefusedIf (OpensWell v input)) v₁ := by
  obtain ⟨ids, hids, hidsThere⟩ := serviceIds_there hservices
  obtain ⟨new, hcols, hnewThere⟩ := hlines.items_there
  have hsame : (input.customerId.stored?.bind v₁.customers.find?).isSome =
      (input.customerId.stored?.bind v.customers.find?).isSome ∧
      (input.vehicleId.stored?.bind v₁.vehicles.find?).isSome =
        (input.vehicleId.stored?.bind v.vehicles.find?).isSome := by
    rw [hreserved.rest]
    exact ⟨rfl, rfl⟩
  intro t
  refine ends_sql.mpr ?_
  by_cases hrefs : (input.customerId.stored?.bind v₁.customers.find?).isSome = true ∧
      (input.vehicleId.stored?.bind v₁.vehicles.find?).isSome = true
  swap
  -- the foreign keys refuse the row
  · obtain ⟨error, herror⟩ := exec_insertOrder_refused hnew hrefs t
    rw [herror]
    intro hopens
    exact hrefs ⟨hsame.1.trans hopens.customer, hsame.2.trans hopens.vehicle⟩
  obtain ⟨⟨customerRow, hcustomerRow⟩, vehicleRow, hvehicleRow⟩ :=
    hrefs.imp Option.isSome_iff_exists.mp Option.isSome_iff_exists.mp
  obtain ⟨customer, hcustomer, hcustomerFound⟩ := Option.bind_eq_some_iff.mp hcustomerRow
  obtain ⟨vehicle, hvehicle, hvehicleFound⟩ := Option.bind_eq_some_iff.mp hvehicleRow
  -- what is left of the condition is what the lines have to satisfy
  have hopens : OpensWell v input ↔ ids.Nodup ∧ (new.map (·.itemId)).Nodup ∧
      ∀ l ∈ new, 0 < l.quantity ∧ l.quantity ≤ maxInteger := by
    rw [opensWell_iff hids hcols]
    have hcustomerThere : (input.customerId.stored?.bind v.customers.find?).isSome = true :=
      hsame.1.symm.trans hrefs.1
    have hvehicleThere : (input.vehicleId.stored?.bind v.vehicles.find?).isSome = true :=
      hsame.2.symm.trans hrefs.2
    simp [hcustomerThere, hvehicleThere]
  rw [hopens]
  have hc₁ : (openedRow n customer vehicle t).Checks := openedRow_checks.mpr (by simp)
  rw [exec_insertOrder hnew hcustomer hvehicle (by rw [hcustomerFound]; rfl)
    (by rw [hvehicleFound]; rfl) t hc₁]
  have h₁ : RewroteOne v₁ n (openedRow n customer vehicle t) _ := rewroteOne_put hc₁ rfl
  simp only
  generalize postgres.applyAll v₁ [.putOrder _ hc₁] = v₂ at h₁
  -- the service lines: refused for a service named twice
  have hserviceColumns : serviceColumns v₂ (input.services.map OSService.mk) = .ok ids :=
    serviceColumns_there (by rw [hids, List.map_map]; rfl) (by
      rw [h₁.services, hreserved.rest]
      exact hidsThere)
  refine ends_sql.mpr ?_
  by_cases hnodup : ids.Nodup
  swap
  · have hc₂ : ¬OrderRow.Checks { openedRow n customer vehicle t with services := ids } :=
      fun hc => hnodup hc.oneLinePerService
    have hrefuse : ∃ error, exec (.createServiceLines n (input.services.map OSService.mk)) v₂
        = .error (.db error) := by
      refine changeOrder_unchecked (a := ()) h₁.order ?_ hc₂
      rw [hserviceColumns]
      rfl
    obtain ⟨error, hrefuse⟩ := hrefuse
    rw [hrefuse]
    exact fun hall => hnodup hall.1
  have hc₂ : OrderRow.Checks { openedRow n customer vehicle t with services := ids } :=
    openedRow_checks.mpr ⟨hnodup, by simp [openedRow], by simp [openedRow]⟩
  have hcreate : exec (.createServiceLines n (input.services.map OSService.mk)) v₂
      = .ok ((), [.putOrder _ hc₂]) := by
    refine changeOrder_checked h₁.order ?_ hc₂
    rw [hserviceColumns]
    rfl
  rw [hcreate]
  have h₂ : RewroteOne v₂ n _ _ := rewroteOne_put hc₂ rfl
  simp only
  generalize postgres.applyAll v₂ [.putOrder _ hc₂] = v₃ at h₂
  -- the item lines: refused for an item named twice or a quantity out of range
  have hitemColumns : itemColumns v₃ input.items = .ok new := itemColumns_there hcols (by
    intro x hx
    rw [h₂.items, h₁.items, hreserved.items, Option.isSome_map]
    exact hnewThere x hx)
  refine ends_sql.mpr ?_
  by_cases hlinesFit : (new.map (·.itemId)).Nodup ∧
      ∀ l ∈ new, 0 < l.quantity ∧ l.quantity ≤ maxInteger
  swap
  · have hc₃ : ¬OrderRow.Checks
        { openedRow n customer vehicle t with services := ids, items := new } :=
      fun hc => hlinesFit (openedRow_checks.mp hc).2
    have hrefuse : ∃ error, exec (.createItemLines n input.items) v₃ = .error (.db error) := by
      refine changeOrder_unchecked (a := ()) h₂.order ?_ hc₃
      rw [hitemColumns]
      rfl
    obtain ⟨error, hrefuse⟩ := hrefuse
    rw [hrefuse]
    exact fun hall => hlinesFit hall.2
  have hc₃ : OrderRow.Checks
      { openedRow n customer vehicle t with services := ids, items := new } :=
    openedRow_checks.mpr ⟨hnodup, hlinesFit⟩
  have hcreateItems : exec (.createItemLines n input.items) v₃ = .ok ((), [.putOrder _ hc₃]) := by
    refine changeOrder_checked h₂.order ?_ hc₃
    rw [hitemColumns]
    rfl
  rw [hcreateItems]
  have h₃ : RewroteOne v₃ n _ _ := rewroteOne_put hc₃ rfl
  simp only
  generalize postgres.applyAll v₃ [.putOrder _ hc₃] = v₄ at h₃
  -- nothing is left that could be refused
  refine ((includeRelations_succeeds h₃.order rfl).ends.mono ?_ fun _ h => h).bind
  rintro order v' ⟨rfl, rfl⟩
  intro t'
  have hc₄ : OrderRow.Checks { openedRow n customer vehicle t with
      services := ids, items := new, history := [⟨none, .received, t'⟩] } :=
    openedRow_checks.mpr ⟨hnodup, hlinesFit⟩
  have hinsert : exec (.insertHistory n ⟨none, .received, t'⟩) v' = .ok ((), [.putOrder _ hc₄]) :=
    changeOrder_checked h₃.order rfl hc₄
  refine ends_sql.mpr ?_
  rw [show exec (.insertHistory n ⟨none, (openedRow n customer vehicle t).status, t'⟩) v' = _ from hinsert]
  have h₄ : RewroteOne v' n _ _ := rewroteOne_put hc₄ rfl
  exact ⟨rfl, Option.isSome_of_eq_some h₄.order, hnodup, hlinesFit⟩

/-- `CreateFits`, once the services are there and the items can be reserved. -/
theorem createFits_iff {input : CreateServiceOrderInput}
    (hservices : ∀ service ∈ input.services, v.service? service ≠ none)
    (hlines : LinesReserve v input.items) : CreateFits v input ↔ OpensWell v input := by
  constructor
  · rintro (⟨service, hmem, hnone⟩ | ⟨done, line, rest, hitems, -, hrefused⟩ | hopens)
    · exact absurd hnone (hservices service hmem)
    · exact absurd hrefused (hlines.not_refused hitems)
    · exact hopens
  · intro hopens
    exact .inr (.inr hopens)

/-- The order and the request for its diagnosis are stored together. -/
theorem CreateServiceOrder.open_ends {input : CreateServiceOrderInput} {v₁ : Db} {n : Uuid}
    (traceparent : Option String) (hservices : ∀ service ∈ input.services, v.service? service ≠ none)
    (hreserved : ReservedUnits v input.items v₁) (hlines : LinesReserve v input.items)
    (hnew : v₁.orders.find? n = none) :
    (ServiceOrderRepository.createAs n
      { customerId := input.customerId, vehicleId := input.vehicleId, status := .received
        services := input.services.map OSService.mk, items := input.items } >>= fun order => do
      Outbox.add traceparent
        { destination := .executionCommands, type := .enqueueDiagnosis, serviceOrderId := order.id
          payload := .empty }
      Prog.pure order).Ends postgres
      (fun _ v' => (v'.orders.find? n).isSome = true ∧ OpensWell v input)
      (RefusedIf (OpensWell v input)) v₁ := by
  have hcreate := ServiceOrderRepository.createAs_ends hservices hreserved hlines hnew
  refine (hcreate.mono ?_ fun _ h => h).bind
  rintro order v' ⟨hid, hstored, hopens⟩
  have ho : order.id.column? = some n := by rw [hid, Uuid.column?_text]
  refine ((Outbox.add_succeeds traceparent ho).ends.mono ?_ fun _ h => h).bind
  rintro _ v'' hsame
  refine ⟨?_, hopens⟩
  rw [hsame]
  exact hstored

/-- No order has an id that has not been drawn yet. -/
def World.IdsDrawn (w : World) : Prop := ∀ n, w.nextId ≤ n → w.db.orders.find? n = none

/-- `CreateServiceOrder` draws the id of the order, and no order has it yet. -/
theorem CreateServiceOrder.execute_ends {w : World} (hids : w.IdsDrawn) (now : ℕ)
    (input : CreateServiceOrderInput) (traceparent : Option String) :
    (∃ fin, (execute input traceparent).run postgres now w.db w.nextId {} = .ok fin ∧
      CreateFits w.db input ∧ ∃ n, w.nextId ≤ n ∧ n < fin.nextId ∧
        ((postgres.view fin.tx w.db).orders.find? n).isSome = true) ∨
    ∃ failure, (execute input traceparent).run postgres now w.db w.nextId {} = .error failure ∧
      RefusedIf (CreateFits w.db input) failure := by
  have hview : postgres.view ({} : ShopTx) w.db = w.db := rfl
  unfold execute
  rw [run_bind]
  obtain ⟨fin₁, hrun₁, hdb₁, hvalue₁, hservices⟩ | ⟨failure, hrun₁, ⟨error, rfl⟩, hmissing⟩ :=
    (resolveServices_ends (v := postgres.view ({} : ShopTx) w.db) input.services).run now w.nextId
  swap
  · rw [hrun₁]
    exact .inr ⟨_, rfl, .inl hmissing⟩
  rw [hrun₁]
  simp only
  rw [run_bind]
  rw [hview] at hdb₁ hservices
  have hloop := reserveLines_ends hservices
  rw [← hdb₁] at hloop
  obtain ⟨fin₂, hrun₂, hvalue₂, hreserved, hlines⟩ | ⟨failure, hrun₂, hrefused⟩ :=
    hloop.run now fin₁.nextId
  swap
  · rw [hrun₂]
    rw [hdb₁] at hrefused
    exact .inr ⟨failure, rfl, hrefused⟩
  rw [hrun₂]
  rw [hdb₁] at hreserved hlines
  simp only
  have hfresh : (postgres.view fin₂.tx w.db).orders.find? fin₂.nextId = none := by
    rw [hreserved.rest]
    exact hids _ ((le_nextId_of_run hrun₁).trans (le_nextId_of_run hrun₂))
  rw [createFits_iff hservices hlines, hvalue₁, hvalue₂, ServiceOrderRepository.create_eq]
  -- the id is drawn before anything is stored
  have hends := open_ends traceparent hservices hreserved hlines hfresh
  obtain ⟨fin₃, hrun₃, hstored, hopens⟩ | hrefused := hends.run now (fin₂.nextId + 1)
  · refine .inl ⟨fin₃, hrun₃, hopens, fin₂.nextId, ?_, le_nextId_of_run hrun₃, hstored⟩
    exact (le_nextId_of_run hrun₁).trans (le_nextId_of_run hrun₂)
  · exact .inr hrefused

end Opening

/-! ## New identifiers -/

section Identifiers

theorem World.IdsDrawn.start : World.IdsDrawn {} := fun _ _ => rfl

theorem OrderCommit.known {o o' : Uuid} {data : ServiceOrderChanges} {expected : Option ℕ}
    {r₀ r₁ r : OrderRow} {tx : ShopTx} {db : Db} (h : OrderCommit o data expected r₀ r₁ tx db)
    (hr : lastOrder tx.writes o' = some r) : (db.orders.find? o').isSome = true := by
  rw [(h.written hr).1, h.found]
  rfl

/-- What no unit of work writes but one that opens an order. -/
theorem not_written {ws : List Write} {o : Uuid} {r : OrderRow} {P : Prop}
    (h : lastOrder ws o = none) (hr : lastOrder ws o = some r) : P := by
  rw [h] at hr
  cases hr

/-- Only `CreateServiceOrder` stores an order that was not there. -/
theorem Committed.known {R : List Write → Db → Db → Prop} {G : ShopTx → Stmt → Db → Prop} {op : Op}
    {result : Outcome} {tx : ShopTx} {db : Db} (h : Committed R G op result tx db)
    (hop : ∀ input traceparent, op ≠ .createServiceOrder input traceparent) {o : Uuid} {r : OrderRow}
    (hr : lastOrder tx.writes o = some r) : (db.orders.find? o).isSome = true := by
  cases op with
  | createServiceOrder input traceparent => exact absurd rfl (hop input traceparent)
  | addItemToOS osId itemId quantity =>
      obtain ⟨o', i, ids, lines, r₀, r₁, ws, -, hadd⟩ := h
      exact hadd.edited.commit.known hr
  | removeItemFromOS osId itemId =>
      obtain ⟨o', line, ids, lines, r₀, r₁, ws, -, hrem⟩ := h
      exact hrem.edited.commit.known hr
  | addServiceToOS osId serviceId =>
      obtain ⟨o', ids, lines, r₀, r₁, -, hadd⟩ := h
      exact hadd.edited.commit.known hr
  | removeServiceFromOS osId serviceId =>
      obtain ⟨o', ids, lines, r₀, r₁, -, hrem⟩ := h
      exact hrem.edited.commit.known hr
  | deliverOS osId =>
      obtain ⟨o', r₀, r₁, data, -, hcommit, -⟩ := h
      exact hcommit.known hr
  | handle reply traceparent =>
      obtain ⟨res, -, hproc⟩ := h
      obtain ⟨-, m, o', -, -, heffect⟩ := hproc.effect hr
      unfold ReplyApplied at heffect
      cases hreaction : replyReaction reply.type with
      | none =>
          rw [hreaction] at heffect
          exact not_written (heffect.orders o) hr
      | some reaction =>
          rw [hreaction] at heffect
          obtain ⟨data, r₀, r₁, hperf, -⟩ := heffect
          exact hperf.commit.known hr
  | handleFailedCommand command traceparent =>
      obtain ⟨res, -, hproc⟩ := h
      obtain ⟨-, m, o', -, -, heffect⟩ := hproc.effect hr
      unfold FailureApplied at heffect
      cases hreaction : failedCommandReaction command.type with
      | none =>
          rw [hreaction] at heffect
          exact not_written (heffect.orders o) hr
      | some reaction =>
          rw [hreaction] at heffect
          obtain ⟨data, r₀, r₁, hperf, -⟩ := heffect
          exact hperf.commit.known hr
  | createItem name price stockQuantity => exact not_written (h.1.orders o) hr
  | updateItem id data => exact not_written (h.1.orders o) hr
  | deleteItem id => exact not_written (h.1.orders o) hr
  | _ => exact not_written (h.1.quiet.orders o) hr

/-- One operation: an order it opens has an id it drew. -/
theorem World.IdsDrawn.perform {w : World} (h : w.IdsDrawn) (now : ℕ) (op : Op) :
    (w.perform now op).IdsDrawn := by
  unfold World.perform
  cases hattempt : w.attempt now (program op) with
  | error failure => exact h
  | ok p =>
      obtain ⟨result, w'⟩ := p
      obtain ⟨tx, nextId, hcommitted, rfl⟩ := World.attempt_committed hattempt
      unfold World.attempt at hattempt
      cases hrun : (program op).run postgres now w.db w.nextId {} with
      | error failure =>
          rw [hrun] at hattempt
          cases hattempt
      | ok fin =>
      rw [hrun] at hattempt
      simp only [Except.ok.injEq, Prod.mk.injEq, World.mk.injEq] at hattempt
      obtain ⟨-, hdb, rfl⟩ := hattempt
      have hle := le_nextId_of_run hrun
      intro n hn
      show (postgres.applyAll w.db tx.writes).orders.find? n = none
      rw [applyAll_orders, h n (hle.trans hn), Option.or_none]
      cases hlast : lastOrder tx.writes n with
      | none => rfl
      | some row =>
          exfalso
          by_cases hop : ∀ input traceparent, op ≠ .createServiceOrder input traceparent
          · have hknown := hcommitted.known hop hlast
            rw [h n (hle.trans hn)] at hknown
            cases hknown
          push Not at hop
          obtain ⟨input, traceparent, rfl⟩ := hop
          -- it opened one order, and that has an id that was drawn
          obtain ⟨o, row', message, hopen⟩ := hcommitted
          have hopened : ∀ {o' : Uuid} {r : OrderRow}, lastOrder tx.writes o' = some r → o' = o := by
            intro o' r hr
            by_contra hne
            exact not_written (hopen.others o' hne) hr
          have hreturns : (program (.createServiceOrder input traceparent)).run postgres now w.db
              w.nextId {} = _ := run_bind
          rw [hrun] at hreturns
          obtain ⟨fin', hrun', -, n', hge, hlt, hstored⟩ | ⟨failure, hrun', -⟩ :=
            CreateServiceOrder.execute_ends h now input traceparent
          · rw [hrun'] at hreturns
            cases hreturns
            have hview : (postgres.applyAll w.db tx.writes).orders.find? n' =
                (postgres.view fin'.tx w.db).orders.find? n' := by
              rw [← hdb]
              rfl
            rw [← hview, applyAll_orders, h n' hge, Option.or_none] at hstored
            obtain ⟨r, hr⟩ := Option.isSome_iff_exists.mp hstored
            have hsame : n = n' := (hopened hlast).trans (hopened hr).symm
            have hbelow : fin'.nextId ≤ n := hn
            omega
          · rw [hrun'] at hreturns
            cases hreturns

/-- After operations run one at a time, the next id is new. -/
theorem World.performAll_idsDrawn {w : World} (h : w.IdsDrawn) (ops : List (ℕ × Op)) :
    (w.performAll ops).IdsDrawn := by
  induction ops generalizing w with
  | nil => exact h
  | cons op ops ih => exact ih (h.perform op.1 op.2)

end Identifiers

/-! ## Every call -/

/-- What has to be so for the call to meet no constraint: the use case refuses the input itself,
or nothing it stores or deletes violates one. -/
def ConstrainedCall.Fits (db : Db) : ConstrainedCall → Prop
  | .createServiceOrder input _ => CreateFits db input
  | .addItemToOS osId itemId quantity => AddItemFits db osId itemId quantity
  | .updateItem id data => UpdateItemFits db id data
  | .deleteItem id => DeleteItemFits db id
  | .deleteService id => DeleteServiceFits db id
  | .deleteVehicle id => DeleteVehicleFits db id

/-- An error of the application is a 4xx response, one of the database is not. -/
theorem errorResponse_iff (failure : Failure) :
    (400 ≤ (errorResponse failure).statusCode ∧ (errorResponse failure).statusCode < 500) ↔
      ∃ error, failure = .app error := by
  cases failure with
  | app error => cases error <;> simp [errorResponse, AppError.statusCode]
  | db error => simp [errorResponse]

/-- How a run ends. -/
abbrev RunsWell {α : Type} (w : World) (now : ℕ) (C : Prop) (p : Work α) : Prop :=
  (∃ fin, p.run postgres now w.db w.nextId {} = .ok fin ∧ C) ∨
    ∃ failure, p.run postgres now w.db w.nextId {} = .error failure ∧ RefusedIf C failure

theorem EndsWell.run {α : Type} {w : World} {C : Prop} {p : Work α} (h : EndsWell C p w.db)
    (now : ℕ) : RunsWell w now C p := by
  have hview : p.Ends postgres (fun _ _ => C) (RefusedIf C) (postgres.view ({} : ShopTx) w.db) := h
  exact hview.run now w.nextId

theorem RunsWell.returning {α : Type} {w : World} {now : ℕ} {C : Prop} {p : Work α}
    (h : RunsWell w now C p) (f : α → Outcome) : RunsWell w now C (returning p f) := by
  unfold RunsWell CarRepairShop.returning
  rw [run_bind]
  obtain ⟨fin, hrun, hC⟩ | ⟨failure, hrun, hrefused⟩ := h
  · rw [hrun]
    exact .inl ⟨_, rfl, hC⟩
  · rw [hrun]
    exact .inr ⟨failure, rfl, hrefused⟩

/-- What the response tells of a call. -/
theorem succeedsOrRefuses_iff {w : World} {now : ℕ} {C : Prop} {call : ConstrainedCall}
    (h : RunsWell w now C (program call.op)) : SucceedsOrRefuses w now call ↔ C := by
  unfold SucceedsOrRefuses World.perform World.attempt
  obtain ⟨fin, hrun, hC⟩ | ⟨failure, hrun, hrefused⟩ := h
  · rw [hrun]
    simp [hC]
  · rw [hrun]
    simp only [and_true]
    rw [errorResponse_iff]
    cases failure with
    | app error => exact ⟨fun _ => hrefused, fun _ => ⟨error, rfl⟩⟩
    | db error =>
        constructor
        · rintro ⟨error', heq⟩
          cases heq
        · intro hC
          exact absurd hC hrefused

/-- Wherever the foreign keys hold: a call succeeds or is refused with a 4xx response, and
changes nothing then, where it fits; otherwise it ends as a server error. -/
theorem refusals_are_answered_iff {w : World} (hkeys : ForeignKeys w.db) (hids : w.IdsDrawn)
    (now : ℕ) (call : ConstrainedCall) :
    SucceedsOrRefuses w now call ↔ call.Fits w.db := by
  refine succeedsOrRefuses_iff ?_
  cases call with
  | createServiceOrder input traceparent =>
      have hrun : RunsWell w now (CreateFits w.db input)
          (CreateServiceOrder.execute input traceparent) := by
        obtain ⟨fin, hrun, hfits, -⟩ | hrefused :=
          CreateServiceOrder.execute_ends hids now input traceparent
        · exact .inl ⟨fin, hrun, hfits⟩
        · exact .inr hrefused
      exact hrun.returning _
  | addItemToOS osId itemId quantity =>
      exact ((AddItemToOS.execute_ends hkeys osId itemId quantity).run now).returning _
  | updateItem id data => exact ((UpdateItem.execute_ends id data).run now).returning _
  | deleteItem id => exact ((DeleteItem.execute_ends id).run now).returning _
  | deleteService id => exact ((DeleteService.execute_ends id).run now).returning _
  | deleteVehicle id => exact ((DeleteVehicle.execute_ends id).run now).returning _

/-- An item with reserved units is not deleted: a refusal. -/
theorem reserved_item_is_refused :
    SucceedsOrRefuses (World.performAll {} firstDiagnosis) 6 (.deleteItem (Uuid.text 2)) := by
  have hreserved : ((World.performAll {} firstDiagnosis).db.items.find? 2).map
      (·.reservedQuantity) = some 2 := by decide +kernel
  have hkeys : ForeignKeys (World.performAll {} firstDiagnosis).db :=
    World.performAll_foreignKeys .start firstDiagnosis
  have hids : (World.performAll {} firstDiagnosis).IdsDrawn :=
    World.performAll_idsDrawn .start firstDiagnosis
  generalize World.performAll {} firstDiagnosis = w at hreserved hkeys hids ⊢
  refine (refusals_are_answered_iff hkeys hids 6 (.deleteItem (Uuid.text 2))).mpr ?_
  intro row hrow
  have hfound : w.db.items.find? 2 = some row := hrow
  rw [hfound, Option.map_some, Option.some.injEq] at hreserved
  left
  omega

/-- An order of one service, asked for twice, where everything else is there: the unique pair of
the service lines refuses it. -/
theorem repeated_service_is_server_error :
    ¬SucceedsOrRefuses (World.performAll {} firstDiagnosis) 6 (.createServiceOrder
      ⟨Uuid.text 0, Uuid.text 1, [Uuid.text 3, Uuid.text 3], []⟩ none) := by
  have hrun : ((World.performAll {} firstDiagnosis).attempt 6 (program (.createServiceOrder
      ⟨Uuid.text 0, Uuid.text 1, [Uuid.text 3, Uuid.text 3], []⟩ none))).map (fun _ => ())
        = .error (.db (.unique ["serviceOrderId", "serviceId"])) := by
    decide +kernel
  unfold SucceedsOrRefuses ConstrainedCall.op
  cases hattempt : (World.performAll {} firstDiagnosis).attempt 6 (program (.createServiceOrder
      ⟨Uuid.text 0, Uuid.text 1, [Uuid.text 3, Uuid.text 3], []⟩ none)) with
  | ok p =>
      rw [hattempt] at hrun
      cases hrun
  | error failure =>
      rw [hattempt] at hrun
      cases hrun
      rintro ⟨-, hclient, -⟩
      exact absurd hclient (by decide)

end CarRepairShop
