import CarRepairShop.ForeignKeys
import CarRepairShop.ItemAddition
import CarRepairShop.OrderAccess

/-! # Business refusals

How the calls end that a constraint of the tables may refuse: an error of the
application is a refusal (a 4xx response), an error of the database that nobody
translated is a server error (500).

`EndsWell C` says both at once of a unit of work: where `C` holds it succeeds or is
refused, and where it does not the database refuses a statement. This module is
about the calls on items, services and vehicles and about `AddItemToOS`; `Opening`
is about `CreateServiceOrder`, and about all of them.
-/

namespace CarRepairShop

open Lib Txn Prog

/-- A call that a constraint of the tables may refuse. -/
inductive ConstrainedCall where
  | createServiceOrder (input : CreateServiceOrderInput) (traceparent : Option String)
  | addItemToOS (osId itemId : IdText) (quantity : ℤ)
  | updateItem (id : IdText) (data : UpdateItemInput)
  | deleteItem (id : IdText)
  | deleteService (id : IdText)
  | deleteVehicle (id : IdText)
deriving Repr

def ConstrainedCall.op : ConstrainedCall → Op
  | .createServiceOrder input traceparent => .createServiceOrder input traceparent
  | .addItemToOS osId itemId quantity => .addItemToOS osId itemId quantity
  | .updateItem id data => .updateItem id data
  | .deleteItem id => .deleteItem id
  | .deleteService id => .deleteService id
  | .deleteVehicle id => .deleteVehicle id

/-- What is asked of a call: it succeeds, or it is answered with a 4xx response and changes
nothing. -/
def SucceedsOrRefuses (w : World) (now : ℕ) (call : ConstrainedCall) : Prop :=
  match w.attempt now (program call.op) with
  | .ok _ => True
  | .error failure => 400 ≤ (errorResponse failure).statusCode ∧
      (errorResponse failure).statusCode < 500 ∧ w.perform now call.op = w

/-- An error of the application where `C` holds, and one of the database where it does not. -/
def RefusedIf (C : Prop) : Failure → Prop
  | .app _ => C
  | .db _ => ¬C

/-- The unit of work succeeds or is refused where `C` holds, and else meets a constraint. -/
abbrev EndsWell {α : Type} (C : Prop) (p : Work α) (v : Db) : Prop :=
  p.Ends postgres (fun _ _ => C) (RefusedIf C) v

/-! ## Registry and catalogue -/

def Db.item? (db : Db) (id : IdText) : Option ItemRow := id.column?.bind db.items.find?

def Db.service? (db : Db) (id : IdText) : Option ServiceRow := id.column?.bind db.services.find?

def Db.vehicle? (db : Db) (id : IdText) : Option VehicleRow := id.column?.bind db.vehicles.find?

/-- The use case refuses the values itself, or the row with them satisfies the checks. -/
def UpdateItemFits (db : Db) (id : IdText) (data : UpdateItemInput) : Prop :=
  (∃ price ∈ data.price, price < 0) ∨ (∃ stock ∈ data.stockQuantity, stock < 0) ∨
    ∀ row, db.item? id = some row →
      (∀ name ∈ data.name, TextFits name) ∧
      (∀ price ∈ data.price, toDecimal price ≤ maxDecimal) ∧
      ∀ stock ∈ data.stockQuantity, row.reservedQuantity ≤ stock ∧ stock ≤ maxInteger

/-- No order has a line of the item, or the use case refuses to delete it. -/
def DeleteItemFits (db : Db) (id : IdText) : Prop :=
  ∀ row, db.item? id = some row → 0 < row.reservedQuantity ∨
    ∀ order ∈ db.orders.rows, ∀ line ∈ order.items, line.itemId ≠ row.id

def DeleteServiceFits (db : Db) (id : IdText) : Prop :=
  ∀ row, db.service? id = some row → ∀ order ∈ db.orders.rows, row.id ∉ order.services

def DeleteVehicleFits (db : Db) (id : IdText) : Prop :=
  ∀ row, db.vehicle? id = some row → ∀ order ∈ db.orders.rows, order.vehicleId ≠ row.id

section Statements

variable {v : Db} {C : Prop}

/-- A statement that the database accepts exactly where `C` holds. -/
theorem endsWell_sql {α : Type} {s : Stmt} {k : s.Resp → Work α}
    (haccepts : C → ∃ r ws, exec s v = .ok (r, ws) ∧ EndsWell C (k r) (postgres.applyAll v ws))
    (hrefuses : ¬C → ∃ error, exec s v = .error (.db error)) : EndsWell C (sql s >>= k) v := by
  refine ends_sql.mpr ?_
  by_cases hC : C
  · obtain ⟨r, ws, hexec, hk⟩ := haccepts hC
    rw [hexec]
    exact hk
  · obtain ⟨error, hexec⟩ := hrefuses hC
    rw [hexec]
    exact hC

/-- A statement that the database accepts anyway. -/
theorem endsWell_accepted {α : Type} {s : Stmt} {k : s.Resp → Work α} {r : s.Resp}
    {ws : List Write} (h : exec s v = .ok (r, ws)) (hk : EndsWell C (k r) (postgres.applyAll v ws)) :
    EndsWell C (sql s >>= k) v := by
  refine ends_sql.mpr ?_
  rw [h]
  exact hk

/-- A read. -/
theorem endsWell_read {α : Type} {s : Stmt} {k : s.Resp → Work α} {r : s.Resp}
    (h : exec s v = .ok (r, [])) (hk : EndsWell C (k r) v) : EndsWell C (sql s >>= k) v :=
  endsWell_accepted h hk

/-- The removal of a row that orders may refer to: it is refused while one of
them, `u`, does. -/
theorem endsWell_erase {α : Type} {s : Stmt} {k : s.Resp → Work α} {r : s.Resp} {w : Write}
    {u : OrderRow → Bool}
    (h : exec s v = if v.orders.rows.any u then .error (.db .foreignKey) else .ok (r, [w]))
    (hfree : C ↔ ∀ order ∈ v.orders.rows, u order = false)
    (hk : C → EndsWell C (k r) (postgres.applyAll v [w])) : EndsWell C (sql s >>= k) v := by
  cases hused : v.orders.rows.any u with
  | false =>
      have hC : C := hfree.mpr (by simpa using hused)
      rw [hused] at h
      exact endsWell_accepted h (hk hC)
  | true =>
      rw [hused] at h
      refine endsWell_sql (fun hC => ?_) fun _ => ⟨.foreignKey, h⟩
      -- an order that refers to the row is one that `C` excludes
      have hnone : v.orders.rows.any u = false := by simpa using hfree.mp hC
      rw [hused] at hnone
      cases hnone

end Statements

theorem storeItem_unchecked {row : ItemRow} (h : ¬row.Checks) :
    ∃ error, storeItem row = .error (.db error) :=
  ⟨_, dif_neg h⟩

theorem storeOrder_unchecked {row : OrderRow} (h : ¬row.Checks) :
    storeOrder row = .error (.db row.violation) :=
  dif_neg h

theorem changeOrder_unchecked {α : Type} {v : Db} {o : Uuid}
    {missing : Except Failure (α × List Write)} {f : OrderRow → Except Failure (α × OrderRow)}
    {a : α} {row row' : OrderRow} (hrow : v.orders.find? o = some row) (hf : f row = .ok (a, row'))
    (hc : ¬row'.Checks) : ∃ error, changeOrder v o missing f = .error (.db error) := by
  unfold changeOrder
  simp only [hrow, hf, Bind.bind, Except.bind, storeOrder_unchecked hc]
  exact ⟨_, rfl⟩

section Catalogue

variable {v : Db}

theorem Db.item?_checks {id : IdText} {row : ItemRow} (h : v.item? id = some row) : row.Checks := by
  obtain ⟨i, -, hrow⟩ := Option.bind_eq_some_iff.mp h
  exact Table.check_of_find? hrow

/-- The patched row, apart from what the use case has checked. -/
theorem ItemPatch.checks_iff {row : ItemRow} (h : row.Checks) {data : UpdateItemInput}
    (hprice : ∀ price ∈ data.price, 0 ≤ price) (hstock : ∀ stock ∈ data.stockQuantity, 0 ≤ stock) :
    (ItemPatch.apply
        { name := data.name, price := data.price, stockQuantity := data.stockQuantity }
        row).Checks ↔
      (∀ name ∈ data.name, TextFits name) ∧
      (∀ price ∈ data.price, toDecimal price ≤ maxDecimal) ∧
      ∀ stock ∈ data.stockQuantity, row.reservedQuantity ≤ stock ∧ stock ≤ maxInteger := by
  rcases data with ⟨name, price, stock⟩
  constructor
  · intro hc
    refine ⟨?_, ?_, ?_⟩
    · rintro text rfl
      exact hc.nameFits
    · rintro p rfl
      exact hc.priceFits
    · rintro q rfl
      exact ⟨hc.reservedWithinStock, hc.stockFits⟩
  · rintro ⟨hfitsName, hfitsPrice, hfitsStock⟩
    constructor
    · cases name with
      | none => exact h.nameFits
      | some text => exact hfitsName text rfl
    · cases stock with
      | none => exact h.stockNonNegative
      | some q => exact hstock q rfl
    · exact h.reservedNonNegative
    · cases stock with
      | none => exact h.reservedWithinStock
      | some q => exact (hfitsStock q rfl).1
    · cases price with
      | none => exact h.priceNonNegative
      | some p => exact toDecimal_nonneg (hprice p rfl)
    · cases stock with
      | none => exact h.stockFits
      | some q => exact (hfitsStock q rfl).2
    · cases price with
      | none => exact h.priceFits
      | some p => exact hfitsPrice p rfl

theorem UpdateItem.execute_ends (id : IdText) (data : UpdateItemInput) :
    EndsWell (UpdateItemFits v id data) (UpdateItem.execute id data) v := by
  unfold UpdateItem.execute
  split
  · next hprice =>
      obtain ⟨price, hmem, hlt⟩ := (Option.any_eq_true _ _).mp hprice
      exact .inl ⟨price, hmem, by simpa using hlt⟩
  split
  · next hstock =>
      obtain ⟨stock, hmem, hlt⟩ := (Option.any_eq_true _ _).mp hstock
      exact .inr (.inl ⟨stock, hmem, by simpa using hlt⟩)
  next hprice hstock =>
    have hprice : ∀ price ∈ data.price, 0 ≤ price := by
      intro price hmem
      by_contra hlt
      exact hprice ((Option.any_eq_true _ _).mpr ⟨price, hmem, by simpa using hlt⟩)
    have hstock : ∀ stock ∈ data.stockQuantity, 0 ≤ stock := by
      intro stock hmem
      by_contra hlt
      exact hstock ((Option.any_eq_true _ _).mpr ⟨stock, hmem, by simpa using hlt⟩)
    -- what is left of the condition
    have hfits : UpdateItemFits v id data ↔ ∀ row, v.item? id = some row →
        (ItemPatch.apply
          { name := data.name, price := data.price, stockQuantity := data.stockQuantity }
          row).Checks := by
      constructor
      · rintro (⟨price, hmem, hlt⟩ | ⟨stock, hmem, hlt⟩ | hrow) row hfound
        · exact absurd hlt (not_lt.mpr (hprice price hmem))
        · exact absurd hlt (not_lt.mpr (hstock stock hmem))
        · exact (ItemPatch.checks_iff (Db.item?_checks hfound) hprice hstock).mpr (hrow row hfound)
      · intro hchecks
        refine .inr (.inr fun row hfound => ?_)
        exact (ItemPatch.checks_iff (Db.item?_checks hfound) hprice hstock).mp (hchecks row hfound)
    unfold EndsWell
    rw [hfits]
    unfold ItemRepository.update Db.item?
    cases hcol : id.column? with
    | none =>
        intro row hfound
        cases hfound
    | some key =>
        refine endsWell_read rfl ?_
        simp only [Option.bind_some]
        cases hrow : v.items.find? key with
        | none =>
            intro row hfound
            cases hfound
        | some row =>
            simp only [Option.some.injEq, forall_eq']
            refine endsWell_sql (fun hc => ?_) fun hc => ?_
            · exact ⟨_, _, by simp only [exec, hrow, storeItem_checked hc]; rfl, hc⟩
            · obtain ⟨error, herror⟩ := storeItem_unchecked hc
              exact ⟨error, by simp only [exec, hrow, herror]; rfl⟩

/-- A deletion is accepted while no order refers to the row. -/
theorem DeleteItem.execute_ends (id : IdText) :
    EndsWell (DeleteItemFits v id) (DeleteItem.execute id) v := by
  unfold DeleteItem.execute DeleteItemFits Db.item? ItemRepository.findById
  cases hcol : id.column? with
  | none =>
      intro row hfound
      cases hfound
  | some key =>
      refine endsWell_read rfl ?_
      simp only [Option.bind_some]
      cases hrow : v.items.find? key with
      | none =>
          intro row hfound
          cases hfound
      | some row =>
          have hid : row.id = key := item_id hrow
          simp only [Option.map_some, ItemRow.toEntity, Option.some.injEq, forall_eq', hid]
          split
          · next hreserved => exact .inl hreserved
          next hreserved =>
            simp only [hreserved, false_or]
            unfold ItemRepository.delete
            rw [hcol]
            refine endsWell_read rfl ?_
            simp only [hrow]
            refine endsWell_erase (r := ()) (w := .eraseItem key)
              (u := fun order => order.items.any fun l => l.itemId = key) ?_ ?_ fun hline => hline
            · simp only [exec, hrow]
              rfl
            · simp

theorem DeleteService.execute_ends (id : IdText) :
    EndsWell (DeleteServiceFits v id) (DeleteService.execute id) v := by
  unfold DeleteService.execute DeleteServiceFits Db.service? ServiceRepository.delete
  cases hcol : id.column? with
  | none =>
      intro row hfound
      cases hfound
  | some key =>
      refine endsWell_read rfl ?_
      simp only [Option.bind_some]
      cases hrow : v.services.find? key with
      | none =>
          intro row hfound
          cases hfound
      | some row =>
          have hid : row.id = key := Table.key_of_find? hrow
          simp only [Option.some.injEq, forall_eq', hid]
          refine endsWell_erase (r := ()) (w := .eraseService key)
            (u := fun order => order.services.any fun s => s = key) ?_ ?_ fun hline => hline
          · simp only [exec, hrow]
            rfl
          · simp [List.forall_mem_ne']

theorem DeleteVehicle.execute_ends (id : IdText) :
    EndsWell (DeleteVehicleFits v id) (DeleteVehicle.execute id) v := by
  unfold DeleteVehicle.execute DeleteVehicleFits Db.vehicle? VehicleRepository.delete
  cases hcol : id.column? with
  | none =>
      intro row hfound
      cases hfound
  | some key =>
      refine endsWell_read rfl ?_
      simp only [Option.bind_some]
      cases hrow : v.vehicles.find? key with
      | none =>
          intro row hfound
          cases hfound
      | some row =>
          have hid : row.id = key := Table.key_of_find? hrow
          simp only [Option.some.injEq, forall_eq', hid]
          refine endsWell_erase (r := ()) (w := .eraseVehicle key)
            (u := fun order => order.vehicleId = key) ?_ ?_ fun horder => horder
          · simp only [exec, hrow]
            rfl
          · simp

end Catalogue

/-! ## Adding an item -/

/-- The counter and the new line satisfy the checks, and the version can grow. -/
structure LineFits (row : OrderRow) (itemId : IdText) (item : ItemRow) (quantity : ℤ) : Prop where
  reserved : 0 ≤ item.reservedQuantity + quantity
  merged : ∀ line ∈ row.items, line.itemId = item.id →
    itemId = line.itemId.text ∧ 0 < line.quantity + quantity ∧
      line.quantity + quantity ≤ maxInteger
  appended : (∀ line ∈ row.items, line.itemId ≠ item.id) → 0 < quantity
  room : (row.version : ℤ) < maxInteger

/-- The use case refuses the addition itself, or nothing is in the way of it. -/
def AddItemFits (db : Db) (osId itemId : IdText) (quantity : ℤ) : Prop :=
  ∀ row, db.order? osId = some row → row.status = .diagnosis →
    ∀ item, db.item? itemId = some item → quantity ≤ maxInteger ∧
      (quantity ≤ item.stockQuantity - item.reservedQuantity → LineFits row itemId item quantity)

section Adding

variable {v : Db}

/-- `reserve`: refused by the condition, or by the database for the quantity or the checks. -/
theorem ItemRepository.reserve_ends {id : IdText} {i : Uuid} {row : ItemRow} (quantity : ℤ)
    (hcol : id.column? = some i) (hrow : v.items.find? i = some row) :
    (ItemRepository.reserve id quantity).Ends postgres
      (fun reserved v' =>
        (reserved = false ∧ quantity ≤ maxInteger ∧
          row.stockQuantity - row.reservedQuantity < quantity ∧ v' = v) ∨
        (reserved = true ∧ quantity ≤ row.stockQuantity - row.reservedQuantity ∧
          0 ≤ row.reservedQuantity + quantity ∧ MovedOne v i quantity 0 v'))
      (fun failure => (∃ error, failure = .db error) ∧ (maxInteger < quantity ∨
        quantity ≤ row.stockQuantity - row.reservedQuantity ∧
          row.reservedQuantity + quantity < 0)) v := by
  have hr : row.Checks := Table.check_of_find? hrow
  have hreservedLe := hr.reservedWithinStock.trans hr.stockFits
  have havailableLe : 0 ≤ row.stockQuantity - row.reservedQuantity := by
    linarith [hr.reservedWithinStock]
  by_cases hinteger : minInteger ≤ quantity ∧ quantity ≤ maxInteger
  swap
  · -- the quantity is no parameter of the statement
    unfold ItemRepository.reserve
    rw [hcol]
    refine ends_sql.mpr ?_
    simp only [exec, changeItemIf, if_neg hinteger]
    refine ⟨⟨_, rfl⟩, ?_⟩
    unfold minInteger maxInteger at *
    omega
  by_cases havailable : quantity ≤ row.stockQuantity - row.reservedQuantity
  · by_cases hreserved : 0 ≤ row.reservedQuantity + quantity
    · have hc : (row.shift quantity 0).Checks :=
        { hr with
          stockNonNegative := by simpa [ItemRow.shift] using hr.stockNonNegative
          reservedNonNegative := hreserved
          reservedWithinStock := by
            simp only [ItemRow.shift]
            omega
          stockFits := by simpa [ItemRow.shift] using hr.stockFits }
      refine (reserve_succeeds hcol hrow havailable hc).ends.mono ?_ fun _ h => h
      rintro reserved v' ⟨hreserved', hmoved⟩
      exact .inr ⟨hreserved', havailable, hreserved, hmoved⟩
    · unfold ItemRepository.reserve
      rw [hcol]
      refine ends_sql.mpr ?_
      have hc : ¬ItemRow.Checks { row with reservedQuantity := row.reservedQuantity + quantity } :=
        fun hc => hreserved hc.reservedNonNegative
      obtain ⟨error, herror⟩ := storeItem_unchecked hc
      have hcond : (decide (row.stockQuantity - row.reservedQuantity ≥ quantity)) = true := by
        simpa using havailable
      simp only [exec, changeItemIf, if_pos hinteger, hrow, hcond, if_true, herror]
      exact ⟨⟨error, rfl⟩, .inr ⟨havailable, by omega⟩⟩
  · unfold ItemRepository.reserve
    rw [hcol]
    refine ends_sql.mpr ?_
    have hcond : (decide (row.stockQuantity - row.reservedQuantity ≥ quantity)) = false := by
      simpa using havailable
    simp only [exec, changeItemIf, if_pos hinteger, hrow, hcond, Bool.false_eq_true, if_false]
    exact .inl ⟨rfl, hinteger.2, by omega, rfl⟩

/-- New item lines are stored with the next version, when the row with them satisfies the
checks. -/
theorem ServiceOrderRepository.update_items_ends {osId : IdText} {o : Uuid} {row : OrderRow}
    {lines : List OSItem} {new : List ItemLine} (hcol : osId.column? = some o)
    (hrow : v.orders.find? o = some row)
    (hcols : new.map (fun x => (some x.itemId, x.quantity)) =
      lines.map (fun x => (x.itemId.stored?, x.quantity)))
    (hthere : ∀ x ∈ new, (v.items.find? x.itemId).isSome = true) :
    EndsWell (OrderRow.Checks { row with items := new, version := row.version + 1 })
      (ServiceOrderRepository.update osId { items := some lines }) v := by
  by_cases hc : OrderRow.Checks { row with items := new, version := row.version + 1 }
  · have hsucceeds := update_succeeds hcol hrow (.inl rfl) (revision_items row hcols) hc
      (fun hsome => by cases hsome) fun _ => hthere
    exact hsucceeds.ends.mono (fun _ _ _ => hc) fun _ h => h
  have hr : row.Checks := Table.check_of_find? (α := OrderRow) hrow
  have hid : row.id = o := order_id hrow
  unfold ServiceOrderRepository.update
  rw [hcol]
  by_cases hclaimed : OrderRow.Checks { row with version := row.version + 1 }
  · -- the version fits, so the lines do not
    have hclaim : exec (.claimVersion o none) v = .ok (1, [.putOrder _ hclaimed]) := by
      simp only [exec, hrow, true_or, if_true, storeOrder_checked hclaimed]
      rfl
    refine endsWell_accepted hclaim ?_
    rw [if_neg Nat.one_ne_zero]
    have h₁ : RewroteOne v o { row with version := row.version + 1 } _ :=
      rewroteOne_put hclaimed hid
    generalize postgres.applyAll v [.putOrder _ hclaimed] = v₁ at h₁
    refine endsWell_read (r := row.status) (by simp only [exec, h₁.order]) ?_
    have hdelete : exec (.deleteItemLines o) v₁ = .ok ((), [.putOrder _ hclaimed.clearItems]) :=
      changeOrder_checked h₁.order rfl hclaimed.clearItems
    refine endsWell_accepted hdelete ?_
    have h₂ : RewroteOne v₁ o _ _ := rewroteOne_put hclaimed.clearItems hid
    have hcolumns : itemColumns (postgres.applyAll v₁ [.putOrder _ hclaimed.clearItems]) lines
        = .ok new := itemColumns_there hcols (by rw [h₂.items, h₁.items]; exact hthere)
    have hrefuse : ∃ error, exec (.createItemLines o lines)
        (postgres.applyAll v₁ [.putOrder _ hclaimed.clearItems]) = .error (.db error) := by
      refine changeOrder_unchecked (a := ()) h₂.order ?_ hc
      rw [hcolumns]
      rfl
    obtain ⟨error, hrefuse⟩ := hrefuse
    refine ends_sql.mpr ?_
    rw [hrefuse]
    exact hc
  · refine ends_sql.mpr ?_
    simp only [exec, hrow, true_or, if_true, storeOrder_unchecked hclaimed]
    exact hc

/-- The checks of an order whose version moves and whose item lines are replaced. -/
theorem OrderRow.Checks.replaceItems {row : OrderRow} (h : row.Checks) {new : List ItemLine}
    (hnodup : (new.map (·.itemId)).Nodup)
    (hquantity : ∀ l ∈ new, 0 < l.quantity ∧ l.quantity ≤ maxInteger)
    (hroom : (row.version : ℤ) < maxInteger) :
    OrderRow.Checks { row with items := new, version := row.version + 1 } :=
  { h with
    oneLinePerItem := hnodup
    quantityPositive := fun l hl => (hquantity l hl).1
    quantityFits := fun l hl => (hquantity l hl).2
    versionFits := by
      push_cast
      omega }

/-- Merged into the line that spells the item, the lines satisfy the checks where `LineFits`
says so. -/
theorem mergedLines_fit {row : OrderRow} {itemId : IdText} {item : ItemRow} {line : ItemLine}
    {quantity : ℤ} (hr : row.Checks) (hline : line ∈ row.items)
    (hspelled : itemId = line.itemId.text) (hid : line.itemId = item.id) :
    LineFits row itemId item quantity ↔ 0 ≤ item.reservedQuantity + quantity ∧
      OrderRow.Checks { row with
        items := mergedLines row.items line.itemId quantity, version := row.version + 1 } := by
  constructor
  · intro hfits
    refine ⟨hfits.reserved, hr.replaceItems ?_ ?_ hfits.room⟩
    · rw [mergedLines_items]
      exact hr.oneLinePerItem
    · intro x hx
      obtain ⟨l, hl, rfl⟩ := List.mem_map.mp hx
      by_cases heq : l.itemId = line.itemId
      · rw [if_pos heq]
        exact (hfits.merged l hl (heq.trans hid)).2
      · rw [if_neg heq]
        exact ⟨hr.quantityPositive l hl, hr.quantityFits l hl⟩
  · rintro ⟨hcounter, hc⟩
    have hversion := hc.versionFits
    refine ⟨hcounter, ?_, ?_, by push_cast at hversion; omega⟩
    · intro l hl heq
      have hmem : (⟨line.itemId, l.quantity + quantity⟩ : ItemLine) ∈
          mergedLines row.items line.itemId quantity :=
        List.mem_map.mpr ⟨l, hl, if_pos (heq.trans hid.symm)⟩
      refine ⟨?_, hc.quantityPositive _ hmem, hc.quantityFits _ hmem⟩
      rw [hspelled, heq, hid]
    · intro hnone
      exact absurd hid (hnone line hline)

/-- With a new line for the item, the lines satisfy the checks where `LineFits` says so. -/
theorem appendedLines_fit {row : OrderRow} {itemId : IdText} {item : ItemRow} {quantity : ℤ}
    (hr : row.Checks) (hitem : item.Checks) (hnone : ∀ line ∈ row.items, itemId ≠ line.itemId.text)
    (havailable : quantity ≤ item.stockQuantity - item.reservedQuantity) :
    LineFits row itemId item quantity ↔ 0 ≤ item.reservedQuantity + quantity ∧
      OrderRow.Checks { row with
        items := row.items ++ [⟨item.id, quantity⟩], version := row.version + 1 } := by
  have hstock := hitem.stockFits
  have hreserved := hitem.reservedNonNegative
  constructor
  · intro hfits
    -- a line of this item has another spelling of its id
    have hother : ∀ l ∈ row.items, l.itemId ≠ item.id := by
      intro l hl heq
      exact hnone l hl (hfits.merged l hl heq).1
    refine ⟨hfits.reserved, hr.replaceItems ?_ ?_ hfits.room⟩
    · rw [List.map_append, List.nodup_append]
      refine ⟨hr.oneLinePerItem, by simp, ?_⟩
      intro a ha b hb
      obtain ⟨l, hl, rfl⟩ := List.mem_map.mp ha
      obtain rfl : b = item.id := by simpa using hb
      exact hother l hl
    · intro x hx
      obtain hx | hx := List.mem_append.mp hx
      · exact ⟨hr.quantityPositive x hx, hr.quantityFits x hx⟩
      · rw [List.mem_singleton.mp hx]
        have hpositive := hfits.appended hother
        constructor
        · exact hpositive
        · show quantity ≤ maxInteger
          omega
  · rintro ⟨hcounter, hc⟩
    have hversion := hc.versionFits
    have hmem : (⟨item.id, quantity⟩ : ItemLine) ∈ row.items ++ [⟨item.id, quantity⟩] := by simp
    refine ⟨hcounter, ?_, fun _ => hc.quantityPositive _ hmem, by push_cast at hversion; omega⟩
    intro l hl heq
    have hnodup := hc.oneLinePerItem
    rw [List.map_append, List.nodup_append] at hnodup
    exact absurd heq (hnodup.2.2 _ (List.mem_map_of_mem hl) _ (by simp))

/-- The lines that an addition stores: they satisfy the checks where `LineFits` says so. -/
theorem addedLines_fit {row : OrderRow} {itemId : IdText} {item : ItemRow} {quantity : ℤ}
    (hr : row.Checks) (hitem : item.Checks) (hcol : itemId.column? = some item.id)
    (havailable : quantity ≤ item.stockQuantity - item.reservedQuantity) :
    ∃ new : List ItemLine, new.map (fun x => (some x.itemId, x.quantity)) =
        (addedLines (entityItems row.items) itemId quantity).map
          (fun x => (x.itemId.stored?, x.quantity)) ∧
      (∀ x ∈ new, x.itemId = item.id ∨ ∃ l ∈ row.items, l.itemId = x.itemId) ∧
      (LineFits row itemId item quantity ↔ 0 ≤ item.reservedQuantity + quantity ∧
        OrderRow.Checks { row with items := new, version := row.version + 1 }) := by
  by_cases hline : ∃ line ∈ row.items, itemId = line.itemId.text
  · obtain ⟨line, hline, hspelled⟩ := hline
    have hid : line.itemId = item.id := by
      rw [hspelled, Uuid.column?_text, Option.some.injEq] at hcol
      exact hcol
    refine ⟨mergedLines row.items line.itemId quantity, ?_, ?_,
      mergedLines_fit hr hline hspelled hid⟩
    · rw [addedLines_merged hline hspelled]
      exact entityItems_columns _
    · intro x hx
      obtain ⟨l, hl, rfl⟩ := List.mem_map.mp hx
      by_cases heq : l.itemId = line.itemId
      · rw [if_pos heq]
        exact .inl hid
      · rw [if_neg heq]
        exact .inr ⟨l, hl, rfl⟩
  · have hnone : ∀ line ∈ row.items, itemId ≠ line.itemId.text := by
      intro line hl heq
      exact hline ⟨line, hl, heq⟩
    refine ⟨row.items ++ [⟨item.id, quantity⟩], ?_, ?_,
      appendedLines_fit hr hitem hnone havailable⟩
    · rw [addedLines_appended hnone, List.map_append, List.map_append, entityItems_columns]
      simp [IdText.stored?_of_column? hcol]
    · intro x hx
      obtain hx | hx := List.mem_append.mp hx
      · exact .inr ⟨x, hx, rfl⟩
      · exact .inl (congrArg ItemLine.itemId (List.mem_singleton.mp hx))

theorem Db.order?_column {osId : IdText} {row : OrderRow} (h : v.order? osId = some row) :
    osId.column? = some row.id := by
  obtain ⟨o, ho, hrow⟩ := Option.bind_eq_some_iff.mp h
  rw [ho, order_id hrow]

/-- `findOSOrThrow`, followed by the rest of the unit of work. -/
theorem findOSOrThrow_endsWell {α : Type} {C : Prop} {osId : IdText} {k : ServiceOrder → Work α}
    (hnone : v.order? osId = none → C)
    (hsome : ∀ row, v.order? osId = some row → EndsWell C (k row.entity) v) :
    EndsWell C (findOSOrThrow osId >>= k) v := by
  have hends : (findOSOrThrow osId).Ends postgres
      (fun os v' => ∃ row, v.order? osId = some row ∧ os = row.entity ∧ v' = v)
      (fun failure => v.order? osId = none ∧ ∃ error, failure = .app error) v := by
    unfold findOSOrThrow Db.order?
    cases hcol : osId.column? with
    | none =>
        unfold ServiceOrderRepository.findById
        rw [hcol]
        exact ⟨rfl, _, rfl⟩
    | some o =>
        cases hrow : v.orders.find? o with
        | none =>
            unfold ServiceOrderRepository.findById
            rw [hcol]
            refine ends_sql.mpr ?_
            simp only [exec, hrow]
            exact ⟨hrow, _, rfl⟩
        | some row =>
            refine (findOSOrThrow_succeeds hcol hrow).ends.mono ?_ fun _ h => h
            rintro os v' ⟨rfl, rfl⟩
            exact ⟨row, hrow, rfl, rfl⟩
  refine (hends.mono ?_ ?_).bind
  · rintro os v' ⟨row, hrow, rfl, rfl⟩
    exact hsome row hrow
  · rintro failure ⟨hmissing, error, rfl⟩
    exact hnone hmissing

theorem AddItemToOS.execute_ends (hkeys : ForeignKeys v) (osId itemId : IdText) (quantity : ℤ) :
    EndsWell (AddItemFits v osId itemId quantity) (AddItemToOS.execute osId itemId quantity) v := by
  unfold AddItemToOS.execute
  refine findOSOrThrow_endsWell ?_ ?_
  · intro hnone row hfound
    rw [hnone] at hfound
    cases hfound
  intro row hfound
  have hstatus : row.entity.status = row.status := rfl
  rw [hstatus]
  split
  · next hne =>
      intro row' hfound' hdiagnosis
      rw [hfound, Option.some.injEq] at hfound'
      subst hfound'
      exact absurd hdiagnosis hne
  next hdiagnosis =>
    have hdiagnosis : row.status = .diagnosis := not_not.mp hdiagnosis
    have hfits : AddItemFits v osId itemId quantity ↔ ∀ item, v.item? itemId = some item →
        quantity ≤ maxInteger ∧ (quantity ≤ item.stockQuantity - item.reservedQuantity →
          LineFits row itemId item quantity) := by
      simp [AddItemFits, hfound, hdiagnosis]
    unfold EndsWell
    rw [hfits]
    unfold ItemRepository.findById Db.item?
    cases hcol : itemId.column? with
    | none =>
        intro item hitem
        cases hitem
    | some i =>
        refine endsWell_read rfl ?_
        simp only [Option.bind_some]
        cases hitem : v.items.find? i with
        | none =>
            intro item hitem'
            cases hitem'
        | some item =>
            have hid : item.id = i := item_id hitem
            simp only [Option.map_some, Option.some.injEq, forall_eq']
            subst hid
            refine ((ItemRepository.reserve_ends quantity hcol hitem).mono ?_ ?_).bind
            · rintro reserved v' (⟨rfl, hinteger, hshort, -⟩ | ⟨rfl, havailable, hcounter, hmoved⟩)
              · refine ⟨hinteger, fun havailable => ?_⟩
                omega
              · have hrow : v'.orders.find? row.id = some row := by
                  rw [hmoved.rest]
                  exact Db.order?_id hfound
                obtain ⟨new, hcols, hitems, hchecks⟩ := addedLines_fit
                  (Table.check_of_find? (Db.order?_id hfound)) (Table.check_of_find? hitem) hcol
                  havailable
                have hthere : ∀ x ∈ new, (v'.items.find? x.itemId).isSome = true := by
                  intro x hx
                  rw [hmoved.isSome]
                  obtain heq | ⟨l, hl, heq⟩ := hitems x hx
                  · rw [heq, hitem]
                    rfl
                  · rw [← heq]
                    exact (hkeys.orders row.id row (Db.order?_id hfound)).items l hl
                have hitemChecks : item.Checks := Table.check_of_find? hitem
                have hinteger : quantity ≤ maxInteger := by
                  linarith [hitemChecks.reservedNonNegative, hitemChecks.stockFits]
                have hline : (quantity ≤ maxInteger ∧
                    (quantity ≤ item.stockQuantity - item.reservedQuantity →
                      LineFits row itemId item quantity)) ↔
                    OrderRow.Checks { row with items := new, version := row.version + 1 } := by
                  rw [hchecks]
                  simp [hinteger, havailable, hcounter]
                rw [hline]
                exact ServiceOrderRepository.update_items_ends (Db.order?_column hfound) hrow hcols
                  hthere
            · rintro failure ⟨⟨error, rfl⟩, hlarge | ⟨havailable, hcounter⟩⟩ ⟨hinteger, hline⟩
              · omega
              · have hreserved := (hline havailable).reserved
                omega

end Adding

end CarRepairShop
