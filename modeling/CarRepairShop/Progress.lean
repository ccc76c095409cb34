import CarRepairShop.Lib.Sequential
import CarRepairShop.StockSpecs

/-! # When the repositories succeed

The total-correctness side of the repositories, for a unit of work alone: what
has to be in the tables for each of them to end without an error, and what is
there afterwards. `RepositorySpecs` and `StockSpecs` say what they did if they
ended.
-/

namespace CarRepairShop

open Lib Txn Prog

/-! ## Statements -/

section Statements

variable {α : Type} {Q : α → Db → Prop} {v : Db}

/-- A statement the database accepts, followed by the rest of the unit of work. -/
theorem succeeds_sql {s : Stmt} {k : s.Resp → Work α} {r : s.Resp} {ws : List Write}
    (h : exec s v = .ok (r, ws)) (hk : (k r).Succeeds postgres Q (postgres.applyAll v ws)) :
    (sql s >>= k).Succeeds postgres Q v :=
  ⟨r, ws, h, hk⟩

/-- A read, followed by the rest of the unit of work. -/
theorem succeeds_read {s : Stmt} {k : s.Resp → Work α} {r : s.Resp}
    (h : exec s v = .ok (r, [])) (hk : (k r).Succeeds postgres Q v) :
    (sql s >>= k).Succeeds postgres Q v :=
  succeeds_sql h hk

/-- A statement, accepted or refused, followed by the rest of the unit of work. -/
theorem ends_sql {s : Stmt} {k : s.Resp → Work α} {F : Failure → Prop} :
    (sql s >>= k).Ends postgres Q F v ↔ match exec s v with
      | .ok (r, ws) => (k r).Ends postgres Q F (postgres.applyAll v ws)
      | .error failure => F failure := by
  change Ends postgres Q F (.stmt s id k) v ↔ _
  rw [Ends, show postgres.exec s v = exec s v from rfl]
  cases exec s v <;> rfl

theorem ends_sqlOr {s : Stmt} {refused : Failure → Failure} {k : s.Resp → Work α}
    {F : Failure → Prop} :
    (sqlOr s refused >>= k).Ends postgres Q F v ↔ match exec s v with
      | .ok (r, ws) => (k r).Ends postgres Q F (postgres.applyAll v ws)
      | .error failure => F (refused failure) := by
  change Ends postgres Q F (.stmt s refused k) v ↔ _
  rw [Ends, show postgres.exec s v = exec s v from rfl]
  cases exec s v <;> rfl

/-- A price that is not negative is stored as one. -/
theorem toDecimal_nonneg {x : ℚ} (h : 0 ≤ x) : 0 ≤ toDecimal x := by
  rw [toDecimal, if_pos h, Rat.le_floor_iff]
  push_cast
  linarith

theorem storeOrder_checked {row : OrderRow} (h : row.Checks) :
    storeOrder row = .ok [.putOrder row h] :=
  dif_pos h

theorem storeItem_checked {row : ItemRow} (h : row.Checks) :
    storeItem row = .ok [.putItem row h] :=
  dif_pos h

/-- A change of an order that is there, to a row that satisfies the checks. -/
theorem changeOrder_checked {o : Uuid} {missing : Except Failure (α × List Write)}
    {f : OrderRow → Except Failure (α × OrderRow)} {a : α} {row row' : OrderRow}
    (hrow : v.orders.find? o = some row) (hf : f row = .ok (a, row')) (hc : row'.Checks) :
    changeOrder v o missing f = .ok (a, [.putOrder row' hc]) := by
  unfold changeOrder
  simp only [hrow, hf, Bind.bind, Except.bind, storeOrder_checked hc]

/-- The columns of service lines that can be stored. -/
theorem serviceColumns_there {lines : List OSService} {ids : List Uuid}
    (hids : ids.map some = lines.map (·.serviceId.stored?))
    (hthere : ∀ s ∈ ids, (v.services.find? s).isSome = true) :
    serviceColumns v lines = .ok ids := by
  induction lines generalizing ids with
  | nil =>
      rw [List.map_nil, List.map_eq_nil_iff] at hids
      rw [hids]
      rfl
  | cons line lines ih =>
      cases ids with
      | nil => simp at hids
      | cons s ids =>
          simp only [List.map_cons, List.cons.injEq] at hids
          rcases hids with ⟨hs, hids⟩
          have hsome := hthere s List.mem_cons_self
          have hrest := ih hids fun s' hs' => hthere s' (List.mem_cons_of_mem _ hs')
          simp [serviceColumns, ← hs, ← Option.not_isSome, hsome, hrest, Except.map]

/-- The columns of item lines that can be stored. -/
theorem itemColumns_there {lines : List OSItem} {new : List ItemLine}
    (hnew : new.map (fun l => (some l.itemId, l.quantity)) =
      lines.map (fun l => (l.itemId.stored?, l.quantity)))
    (hthere : ∀ l ∈ new, (v.items.find? l.itemId).isSome = true) :
    itemColumns v lines = .ok new := by
  induction lines generalizing new with
  | nil =>
      rw [List.map_nil, List.map_eq_nil_iff] at hnew
      rw [hnew]
      rfl
  | cons line lines ih =>
      cases new with
      | nil => simp at hnew
      | cons l new =>
          simp only [List.map_cons, List.cons.injEq, Prod.mk.injEq] at hnew
          rcases hnew with ⟨⟨hcol, hquantity⟩, hnew⟩
          have hsome := hthere l List.mem_cons_self
          have hrest := ih hnew fun l' hl' => hthere l' (List.mem_cons_of_mem _ hl')
          simp [itemColumns, ← hcol, ← hquantity, ← Option.not_isSome, hsome, hrest, Except.map]

end Statements

/-! ## Reading -/

section Reading

variable {v : Db}

/-- The lines of an order that is there are read as they are. -/
theorem ServiceOrderRepository.includeRelations_succeeds {o : Uuid} {r : OrderRow}
    {columns : OrderColumns} (hr : v.orders.find? o = some r) (hid : columns.id = o) :
    (ServiceOrderRepository.includeRelations columns).Succeeds postgres
      (fun order v' => order = columns.toEntity r.services r.items ∧ v' = v) v := by
  unfold ServiceOrderRepository.includeRelations
  apply succeeds_read (r := r.services)
  · simp [exec, hid, hr]
  apply succeeds_read (r := r.items)
  · simp [exec, hid, hr]
  exact ⟨rfl, rfl⟩

/-- An order that is there is found. -/
theorem ServiceOrderRepository.findById_succeeds {id : IdText} {o : Uuid} {r : OrderRow}
    (hcol : id.column? = some o) (hr : v.orders.find? o = some r) :
    (ServiceOrderRepository.findById id).Succeeds postgres
      (fun order v' => order = some r.entity ∧ v' = v) v := by
  unfold ServiceOrderRepository.findById
  rw [hcol]
  apply succeeds_read (r := some r.toOrderColumns)
  · simp [exec, hr]
  refine (includeRelations_succeeds hr (order_id hr)).seq ?_
  rintro order v' ⟨rfl, rfl⟩
  exact ⟨rfl, rfl⟩

theorem ItemRepository.findById_succeeds {id : IdText} {i : Uuid} (hcol : id.column? = some i) :
    (ItemRepository.findById id).Succeeds postgres
      (fun item v' => item = (v.items.find? i).map ItemRow.toEntity ∧ v' = v) v := by
  unfold ItemRepository.findById
  rw [hcol]
  exact succeeds_read rfl ⟨rfl, rfl⟩

theorem ServiceRepository.findById_succeeds {id : IdText} {s : Uuid} (hcol : id.column? = some s) :
    (ServiceRepository.findById id).Succeeds postgres
      (fun service v' => service = (v.services.find? s).map ServiceRow.toEntity ∧ v' = v) v := by
  unfold ServiceRepository.findById
  rw [hcol]
  exact succeeds_read rfl ⟨rfl, rfl⟩

/-- A customer that is there and not deleted is found. -/
theorem CustomerRepository.findById_succeeds {id : IdText} {c : Uuid} {row : CustomerRow}
    (hcol : id.column? = some c) (hrow : v.customers.find? c = some row)
    (hactive : row.deletedAt = none) :
    (CustomerRepository.findById id).Succeeds postgres
      (fun customer v' => customer = some row.toEntity ∧ v' = v) v := by
  unfold CustomerRepository.findById
  rw [hcol]
  apply succeeds_read (r := some row)
  · simp [exec, hrow, Option.filter, hactive]
  exact ⟨rfl, rfl⟩

end Reading

/-! ## Moving units -/

section Moving

variable {v : Db}

/-- The tables with one item row moved by `dr` reserved and `ds` stocked units. -/
structure MovedOne (v : Db) (i : Uuid) (dr ds : ℤ) (v' : Db) : Prop where
  rest : v' = { v with items := v'.items }
  items : ∀ j, v'.items.find? j =
    (v.items.find? j).map fun row => if j = i then row.shift dr ds else row

theorem movedOne_put {i : Uuid} {row : ItemRow} {dr ds : ℤ} (hrow : v.items.find? i = some row)
    (hc : (row.shift dr ds).Checks) :
    MovedOne v i dr ds (postgres.applyAll v [.putItem (row.shift dr ds) hc]) where
  rest := rfl
  items := by
    intro j
    have hrowId : row.id = i := item_id hrow
    have hid : (row.shift dr ds).id = i := hrowId
    rw [applyAll_items]
    by_cases hj : j = i
    · subst hj
      simp [Write.item?, hid, hrow]
    · have hne : (row.shift dr ds).id ≠ j := fun heq => hj (heq.symm.trans hid)
      simp [Write.item?, hne, hj]

/-- A conditional move whose condition holds, to a row that satisfies the checks. -/
theorem changeItemIf_checked {i : Uuid} {row : ItemRow} {quantity : ℤ} {cond : ItemRow → Bool}
    {f : ItemRow → ItemRow} (hfits : minInteger ≤ quantity ∧ quantity ≤ maxInteger)
    (hrow : v.items.find? i = some row) (hcond : cond row = true) (hc : (f row).Checks) :
    changeItemIf v i quantity cond f = .ok (1, [.putItem (f row) hc]) := by
  unfold changeItemIf
  simp only [hfits, hrow, hcond, and_self, if_true, storeItem_checked hc]
  rfl

/-- Units that a row has and that it can lose or gain are an `INTEGER`. -/
theorem quantity_fits {row : ItemRow} {quantity : ℤ} (hc : row.Checks)
    (hatMost : quantity ≤ row.stockQuantity) (hatLeast : -quantity ≤ maxInteger) :
    minInteger ≤ quantity ∧ quantity ≤ maxInteger := by
  have hfits := hc.stockFits
  unfold minInteger maxInteger at *
  omega

theorem ItemRepository.reserve_succeeds {id : IdText} {i : Uuid} {row : ItemRow} {quantity : ℤ}
    (hcol : id.column? = some i) (hrow : v.items.find? i = some row)
    (havailable : row.stockQuantity - row.reservedQuantity ≥ quantity)
    (hc : (row.shift quantity 0).Checks) :
    (ItemRepository.reserve id quantity).Succeeds postgres
      (fun reserved v' => reserved = true ∧ MovedOne v i quantity 0 v') v := by
  have hshift : row.shift quantity 0
      = { row with reservedQuantity := row.reservedQuantity + quantity } := by
    simp [ItemRow.shift]
  have hc' : ItemRow.Checks { row with reservedQuantity := row.reservedQuantity + quantity } :=
    hshift ▸ hc
  unfold ItemRepository.reserve
  rw [hcol]
  have hr := Table.check_of_find? hrow
  have hfits : minInteger ≤ quantity ∧ quantity ≤ maxInteger := by
    refine quantity_fits hr ?_ ?_
    · linarith [hr.reservedNonNegative]
    · linarith [hc'.reservedNonNegative, hr.reservedWithinStock, hr.stockFits]
  have hexec : exec (.reserveItem i quantity) v = .ok (1, [.putItem _ hc']) :=
    changeItemIf_checked hfits hrow (by simpa using havailable) hc'
  refine succeeds_sql hexec ⟨rfl, ?_⟩
  simpa only [hshift] using movedOne_put hrow hc

theorem ItemRepository.release_succeeds {id : IdText} {i : Uuid} {row : ItemRow} {quantity : ℤ}
    (hcol : id.column? = some i) (hrow : v.items.find? i = some row)
    (hreserved : row.reservedQuantity ≥ quantity) (hc : (row.shift (-quantity) 0).Checks) :
    (ItemRepository.release id quantity).Succeeds postgres
      (fun released v' => released = true ∧ MovedOne v i (-quantity) 0 v') v := by
  have hshift : row.shift (-quantity) 0
      = { row with reservedQuantity := row.reservedQuantity - quantity } := by
    simp [ItemRow.shift, sub_eq_add_neg]
  have hc' : ItemRow.Checks { row with reservedQuantity := row.reservedQuantity - quantity } :=
    hshift ▸ hc
  unfold ItemRepository.release
  rw [hcol]
  have hr := Table.check_of_find? hrow
  have hfits : minInteger ≤ quantity ∧ quantity ≤ maxInteger := by
    refine quantity_fits hr ?_ ?_
    · linarith [hr.reservedWithinStock]
    · linarith [hc'.reservedWithinStock, hr.reservedNonNegative, hr.stockFits]
  have hexec : exec (.releaseItem i quantity) v = .ok (1, [.putItem _ hc']) :=
    changeItemIf_checked hfits hrow (by simpa using hreserved) hc'
  refine succeeds_sql hexec ⟨rfl, ?_⟩
  simpa only [hshift] using movedOne_put hrow hc

theorem ItemRepository.consume_succeeds {id : IdText} {i : Uuid} {row : ItemRow} {quantity : ℤ}
    (hcol : id.column? = some i) (hrow : v.items.find? i = some row)
    (hreserved : row.reservedQuantity ≥ quantity) (hstock : row.stockQuantity ≥ quantity)
    (hc : (row.shift (-quantity) (-quantity)).Checks) :
    (ItemRepository.consume id quantity).Succeeds postgres
      (fun consumed v' => consumed = true ∧ MovedOne v i (-quantity) (-quantity) v') v := by
  have hshift : row.shift (-quantity) (-quantity)
      = { row with
          stockQuantity := row.stockQuantity - quantity
          reservedQuantity := row.reservedQuantity - quantity } := by
    simp [ItemRow.shift, sub_eq_add_neg]
  have hc' : ItemRow.Checks { row with
      stockQuantity := row.stockQuantity - quantity
      reservedQuantity := row.reservedQuantity - quantity } :=
    hshift ▸ hc
  unfold ItemRepository.consume
  rw [hcol]
  have hr := Table.check_of_find? hrow
  have hfits : minInteger ≤ quantity ∧ quantity ≤ maxInteger := by
    refine quantity_fits hr hstock ?_
    linarith [hc'.stockFits, hr.stockNonNegative]
  have hexec : exec (.consumeItem i quantity) v = .ok (1, [.putItem _ hc']) :=
    changeItemIf_checked hfits hrow (by simpa using And.intro hreserved hstock) hc'
  refine succeeds_sql hexec ⟨rfl, ?_⟩
  simpa only [hshift] using movedOne_put hrow hc

/-- A counter can be set to any value the checks allow. -/
theorem ItemRepository.setReserved_succeeds {id : IdText} {i : Uuid} {row : ItemRow} {reserved : ℤ}
    (hcol : id.column? = some i) (hrow : v.items.find? i = some row)
    (hc : (row.shift (reserved - row.reservedQuantity) 0).Checks) :
    (ItemRepository.update id { reservedQuantity := some reserved }).Succeeds postgres
      (fun _ v' => MovedOne v i (reserved - row.reservedQuantity) 0 v') v := by
  have hshift : row.shift (reserved - row.reservedQuantity) 0
      = ItemPatch.apply { reservedQuantity := some reserved } row := by
    simp [ItemRow.shift, ItemPatch.apply]
  have hc' : (ItemPatch.apply { reservedQuantity := some reserved } row).Checks := hshift ▸ hc
  unfold ItemRepository.update
  rw [hcol]
  apply succeeds_read (r := some row)
  · simp [exec, hrow]
  have hexec : exec (.updateItem i { reservedQuantity := some reserved }) v
      = .ok (ItemPatch.apply { reservedQuantity := some reserved } row, [.putItem _ hc']) := by
    simp only [exec, hrow, storeItem_checked hc']
    rfl
  have hmoved := movedOne_put hrow hc
  simp only [hshift] at hmoved
  exact succeeds_sql hexec hmoved

end Moving

/-! ## Writing an order -/

section Writing

variable {v : Db}

/-- The tables with order `o` rewritten to `row`. -/
structure RewroteOne (v : Db) (o : Uuid) (row : OrderRow) (v' : Db) : Prop where
  rest : v' = { v with orders := v'.orders }
  order : v'.orders.find? o = some row

theorem rewroteOne_put {o : Uuid} {row : OrderRow} (hc : row.Checks) (hid : row.id = o) :
    RewroteOne v o row (postgres.applyAll v [.putOrder row hc]) where
  rest := rfl
  order := by
    rw [applyAll_orders]
    simp [Write.order?, hid]

theorem RewroteOne.services {o : Uuid} {row : OrderRow} {v' : Db} (h : RewroteOne v o row v') :
    v'.services = v.services := by
  rw [h.rest]

theorem RewroteOne.items {o : Uuid} {row : OrderRow} {v' : Db} (h : RewroteOne v o row v') :
    v'.items = v.items := by
  rw [h.rest]

theorem RewroteOne.trans {o : Uuid} {row row' : OrderRow} {v' v'' : Db}
    (h : RewroteOne v o row v') (h' : RewroteOne v' o row' v'') : RewroteOne v o row' v'' where
  rest := by rw [h'.rest, h.rest]
  order := h'.order

/-- The checks of an order row speak of its lines, its budget and its version. -/
theorem OrderRow.Checks.congr {r r' : OrderRow} (h : r.Checks) (hservices : r'.services = r.services)
    (hitems : r'.items = r.items) (hbudget : r'.budgetTotal = r.budgetTotal)
    (hversion : r'.version = r.version) : r'.Checks where
  oneLinePerService := hservices ▸ h.oneLinePerService
  oneLinePerItem := hitems ▸ h.oneLinePerItem
  quantityPositive := hitems ▸ h.quantityPositive
  quantityFits := hitems ▸ h.quantityFits
  budgetNonNegative := hbudget ▸ h.budgetNonNegative
  budgetFits := hbudget ▸ h.budgetFits
  versionFits := hversion ▸ h.versionFits

theorem OrderRow.Checks.clearServices {r : OrderRow} (h : r.Checks) :
    OrderRow.Checks { r with services := [] } where
  oneLinePerService := List.nodup_nil
  oneLinePerItem := h.oneLinePerItem
  quantityPositive := h.quantityPositive
  quantityFits := h.quantityFits
  budgetNonNegative := h.budgetNonNegative
  budgetFits := h.budgetFits
  versionFits := h.versionFits

theorem OrderRow.Checks.clearItems {r : OrderRow} (h : r.Checks) :
    OrderRow.Checks { r with items := [] } where
  oneLinePerService := h.oneLinePerService
  oneLinePerItem := List.nodup_nil
  quantityPositive := by simp
  quantityFits := by simp
  budgetNonNegative := h.budgetNonNegative
  budgetFits := h.budgetFits
  versionFits := h.versionFits

/-- The service lines of an order can be replaced by lines of services that
are in the catalogue. -/
theorem ServiceOrderRepository.replaceServices_succeeds {o : Uuid} {row : OrderRow}
    {ids : List Uuid} {lines : Option (List OSService)} (hrow : v.orders.find? o = some row)
    (hrc : row.Checks) (hsame : lines = none → ids = row.services)
    (hnew : ∀ l, lines = some l → ids.map some = l.map (·.serviceId.stored?) ∧
      ∀ s ∈ ids, (v.services.find? s).isSome = true)
    (hc : OrderRow.Checks { row with services := ids }) :
    (ServiceOrderRepository.replaceServices o lines).Succeeds postgres
      (fun _ v' => RewroteOne v o { row with services := ids } v') v := by
  cases lines with
  | none =>
      have hids := hsame rfl
      subst hids
      exact ⟨rfl, hrow⟩
  | some l =>
      rcases hnew l rfl with ⟨hids, hthere⟩
      have hid : row.id = o := order_id hrow
      -- first the old lines go, then the new ones are stored
      have hdelete : exec (.deleteServiceLines o) v = .ok ((), [.putOrder _ hrc.clearServices]) :=
        changeOrder_checked hrow rfl hrc.clearServices
      have hcleared : RewroteOne v o { row with services := [] } _ :=
        rewroteOne_put hrc.clearServices hid
      have hcolumns : serviceColumns
          (postgres.applyAll v [.putOrder _ hrc.clearServices]) l = .ok ids :=
        serviceColumns_there hids (by rw [hcleared.services]; exact hthere)
      have hcreate : exec (.createServiceLines o l)
          (postgres.applyAll v [.putOrder _ hrc.clearServices]) = .ok ((), [.putOrder _ hc]) := by
        refine changeOrder_checked hcleared.order ?_ hc
        rw [hcolumns]
        rfl
      refine succeeds_sql hdelete (succeeds_sql hcreate ?_)
      exact hcleared.trans (rewroteOne_put hc hid)

/-- The item lines of an order can be replaced by lines of items that are in
the catalogue. -/
theorem ServiceOrderRepository.replaceItems_succeeds {o : Uuid} {row : OrderRow}
    {new : List ItemLine} {lines : Option (List OSItem)} (hrow : v.orders.find? o = some row)
    (hrc : row.Checks) (hsame : lines = none → new = row.items)
    (hnew : ∀ l, lines = some l →
      new.map (fun x => (some x.itemId, x.quantity)) =
        l.map (fun x => (x.itemId.stored?, x.quantity)) ∧
      ∀ x ∈ new, (v.items.find? x.itemId).isSome = true)
    (hc : OrderRow.Checks { row with items := new }) :
    (ServiceOrderRepository.replaceItems o lines).Succeeds postgres
      (fun _ v' => RewroteOne v o { row with items := new } v') v := by
  cases lines with
  | none =>
      have hids := hsame rfl
      subst hids
      exact ⟨rfl, hrow⟩
  | some l =>
      rcases hnew l rfl with ⟨hcols, hthere⟩
      have hid : row.id = o := order_id hrow
      have hdelete : exec (.deleteItemLines o) v = .ok ((), [.putOrder _ hrc.clearItems]) :=
        changeOrder_checked hrow rfl hrc.clearItems
      have hcleared : RewroteOne v o { row with items := [] } _ :=
        rewroteOne_put hrc.clearItems hid
      have hcolumns : itemColumns (postgres.applyAll v [.putOrder _ hrc.clearItems]) l = .ok new :=
        itemColumns_there hcols (by rw [hcleared.items]; exact hthere)
      have hcreate : exec (.createItemLines o l)
          (postgres.applyAll v [.putOrder _ hrc.clearItems]) = .ok ((), [.putOrder _ hc]) := by
        refine changeOrder_checked hcleared.order ?_ hc
        rw [hcolumns]
        rfl
      refine succeeds_sql hdelete (succeeds_sql hcreate ?_)
      exact hcleared.trans (rewroteOne_put hc hid)

/-- A change of status is always recorded. -/
theorem ServiceOrderRepository.recordChange_succeeds {o : Uuid} {row : OrderRow}
    (hrow : v.orders.find? o = some row) (hrc : row.Checks) (previous : OSStatus)
    (status : Option OSStatus) :
    (ServiceOrderRepository.recordChange o previous status).Succeeds postgres
      (fun _ _ => True) v := by
  unfold ServiceOrderRepository.recordChange
  cases status with
  | none => trivial
  | some toStatus =>
      -- the same status again leaves no trace
      by_cases heq : toStatus = previous
      · simp only [heq, if_true]
        trivial
      · simp only [heq, if_false]
        intro t
        have hc : OrderRow.Checks
            { row with history := row.history ++ [⟨some previous, toStatus, t⟩] } :=
          hrc.congr rfl rfl rfl rfl
        have hinsert : exec (.insertHistory o ⟨some previous, toStatus, t⟩) v
            = .ok ((), [.putOrder _ hc]) := changeOrder_checked hrow rfl hc
        exact succeeds_sql hinsert trivial

/-- An update goes through when the version is the expected one, the row it
makes satisfies the checks, and the new lines are of services and items in the
catalogue. -/
theorem ServiceOrderRepository.update_succeeds {id : IdText} {o : Uuid}
    {data : ServiceOrderChanges} {expected : Option ℕ} {r₀ r₁ : OrderRow}
    (hcol : id.column? = some o) (hr : v.orders.find? o = some r₀)
    (hexpected : expected = none ∨ expected = some r₀.version) (hrev : Revision data r₀ r₁)
    (hc : r₁.Checks)
    (hservices : data.services.isSome = true → ∀ s ∈ r₁.services, (v.services.find? s).isSome = true)
    (hitems : data.items.isSome = true → ∀ x ∈ r₁.items, (v.items.find? x.itemId).isSome = true) :
    (ServiceOrderRepository.update id data expected).Succeeds postgres
      (fun updated _ => updated.isSome = true) v := by
  have hid : r₀.id = o := order_id hr
  have hr₀ : r₀.Checks := Table.check_of_find? hr
  have hversion : r₁.version = r₀.version + 1 := congrArg OrderColumns.version hrev.columns
  have hbudget : r₁.budgetTotal = (data.budgetTotal.map toDecimal).or r₀.budgetTotal :=
    congrArg OrderColumns.budgetTotal hrev.columns
  unfold ServiceOrderRepository.update
  rw [hcol]
  -- the claim takes the next version
  have hclaimed : OrderRow.Checks { r₀ with version := r₀.version + 1 } :=
    { hr₀ with versionFits := hversion ▸ hc.versionFits }
  have hclaim : exec (.claimVersion o expected) v = .ok (1, [.putOrder _ hclaimed]) := by
    simp only [exec, hr, hexpected, if_true, storeOrder_checked hclaimed]
    rfl
  refine succeeds_sql hclaim ?_
  rw [if_neg Nat.one_ne_zero]
  have h₁ : RewroteOne v o { r₀ with version := r₀.version + 1 } _ := rewroteOne_put hclaimed hid
  generalize postgres.applyAll v [.putOrder _ hclaimed] = v₁ at h₁
  have hstatus : exec (.findStatusOrThrow o) v₁ = .ok (r₀.status, []) := by
    simp only [exec, h₁.order]
  refine succeeds_read hstatus ?_
  -- the lines, in two steps
  have hc₂ : OrderRow.Checks { r₀ with version := r₀.version + 1, services := r₁.services } :=
    { hclaimed with oneLinePerService := hc.oneLinePerService }
  refine (replaceServices_succeeds h₁.order hclaimed hrev.services ?_ hc₂).seq ?_
  · intro l hl
    refine ⟨hrev.newServices l hl, ?_⟩
    rw [h₁.services]
    exact hservices (by rw [hl]; rfl)
  intro _ v₂ h₂
  have hc₃ : OrderRow.Checks
      { r₀ with version := r₀.version + 1, services := r₁.services, items := r₁.items } :=
    { hc₂ with
      oneLinePerItem := hc.oneLinePerItem
      quantityPositive := hc.quantityPositive
      quantityFits := hc.quantityFits }
  refine (replaceItems_succeeds h₂.order hc₂ hrev.items ?_ hc₃).seq ?_
  · intro l hl
    refine ⟨hrev.newItems l hl, ?_⟩
    rw [h₂.items, h₁.items]
    exact hitems (by rw [hl]; rfl)
  intro _ v₃ h₃
  -- the columns
  have hc₄ : (data.toOrderScalar.apply { r₀ with
      version := r₀.version + 1, services := r₁.services, items := r₁.items }).Checks :=
    { hc₃ with
      budgetNonNegative := by
        intro t ht
        exact hc.budgetNonNegative t (hbudget.symm ▸ ht)
      budgetFits := by
        intro t ht
        exact hc.budgetFits t (hbudget.symm ▸ ht) }
  have hcolumns : exec (.updateOrder o data.toOrderScalar) v₃ = .ok (_, [.putOrder _ hc₄]) :=
    changeOrder_checked h₃.order rfl hc₄
  have h₄ : RewroteOne v₃ o _ _ := rewroteOne_put hc₄ hid
  refine succeeds_sql hcolumns (Succeeds.seq (includeRelations_succeeds h₄.order ?_) ?_)
  · exact hid
  rintro order v₄ ⟨-, rfl⟩
  refine (recordChange_succeeds h₄.order hc₄ r₀.status data.status).seq ?_
  intro _ _ _
  rfl

end Writing

/-! ## Messages -/

section Messages

variable {v : Db}

/-- A message about an order is always stored, at the end of the outbox. -/
theorem Outbox.add_succeeds (traceparent : Option String) {message : OutgoingMessage} {o : Uuid}
    (ho : message.serviceOrderId.column? = some o) :
    (Outbox.add traceparent message).Succeeds postgres
      (fun _ v' => v' = { v with outbox := v'.outbox }) v := by
  unfold Outbox.add
  rw [IdText.stored?_of_column? ho]
  intro _ _
  exact succeeds_sql rfl rfl

/-- A new message is recorded. -/
theorem ProcessedMessages.markProcessed_succeeds {messageId : IdText} {m : Uuid} (type : String)
    (hm : messageId.stored? = some m) (hnew : v.processed.find? m = none) :
    (ProcessedMessages.markProcessed messageId type).Succeeds postgres
      (fun marked v' => marked = true ∧ v' = { v with processed := v'.processed }) v := by
  intro t
  have hexec : exec (.insertProcessed messageId type t) v
      = .ok (1, [.putProcessed { messageId := m, type, processedAt := t }]) := by
    simp [exec, hm, hnew]
  exact succeeds_sql hexec ⟨rfl, rfl⟩

end Messages

end CarRepairShop
