import CarRepairShop.SagaSpecs

/-! # Every operation keeps its specification

What each statement can write (`exec_makes`), the catalogue and the registry, and
then the two facts the theorems about runs start from: `program_ensures`, that
each unit of work ensures `Committed` among any interference, and
`shop_relyGuarantee`, that what each commits is no more than the others rely on.
-/

namespace CarRepairShop

open Lib Txn Prog

/-! ## The table of a statement -/

/-- The tables, as what a statement is on. -/
inductive TableName where
  | customers
  | vehicles
  | services
  | items
  | orders
  | outbox
  | processed
deriving DecidableEq, Repr

/-- The table a statement is sent to. -/
def Stmt.table : Stmt → TableName
  | .findOrder _ | .findServiceLines _ | .findItemLines _ | .countOrders _ | .insertOrder ..
  | .claimVersion .. | .findStatusOrThrow _ | .deleteServiceLines _ | .createServiceLines ..
  | .deleteItemLines _ | .createItemLines .. | .updateOrder .. | .insertHistory .. => .orders
  | .findItem _ | .insertItem .. | .updateItem .. | .reserveItem .. | .releaseItem ..
  | .consumeItem .. | .deleteItem _ => .items
  | .findService _ | .insertService .. | .updateService .. | .deleteService _ => .services
  | .findActiveCustomer _ | .findActiveCustomerByTaxId _ | .insertCustomer _
  | .updateCustomer .. => .customers
  | .findVehicle _ | .findVehicleByPlate _ | .insertVehicle .. | .updateVehicle ..
  | .deleteVehicle _ => .vehicles
  | .insertOutbox _ => .outbox
  | .insertProcessed .. => .processed

/-- The writes a statement can make. -/
def Stmt.makes (s : Stmt) : Write → Bool
  | .putCustomer .. => (s matches .insertCustomer _ | .updateCustomer ..)
  | .putVehicle .. => (s matches .insertVehicle .. | .updateVehicle ..)
  | .eraseVehicle _ => (s matches .deleteVehicle _)
  | .putService .. => (s matches .insertService .. | .updateService ..)
  | .eraseService _ => (s matches .deleteService _)
  | .putItem .. => (s matches .insertItem .. | .updateItem .. | .reserveItem .. | .releaseItem ..
      | .consumeItem ..)
  | .eraseItem _ => (s matches .deleteItem _)
  | .putOrder .. => decide (s.table = .orders)
  | .addOutbox _ => (s matches .insertOutbox _)
  | .putProcessed _ => (s matches .insertProcessed ..)

section Operations

variable {R : List Write → Db → Db → Prop} {G : ShopTx → Stmt → Db → Prop}

/-! ## What a statement writes -/

/-- A row of a service that is stored passed its checks; it is the one write. -/
theorem storeService_ok {row : ServiceRow} {ws : List Write} (h : storeService row = .ok ws) :
    ∃ hc : row.Checks, ws = [.putService row hc] := by
  unfold storeService at h
  split at h
  · next hc =>
    cases h
    exact ⟨hc, rfl⟩
  · cases h

/-- So it is with a customer. -/
theorem storeCustomer_ok {db : Db} {row : CustomerRow} {ws : List Write}
    (h : storeCustomer db row = .ok ws) : ∃ hc : row.Checks, ws = [.putCustomer row hc] := by
  unfold storeCustomer at h
  split at h
  · next hc =>
    split at h
    · cases h
    · cases h
      exact ⟨hc, rfl⟩
  · cases h

/-- So it is with a vehicle. -/
theorem storeVehicle_ok {db : Db} {row : VehicleRow} {ws : List Write}
    (h : storeVehicle db row = .ok ws) : ∃ hc : row.Checks, ws = [.putVehicle row hc] := by
  unfold storeVehicle at h
  split at h
  · next hc =>
    split at h
    · cases h
    · split at h
      · cases h
      · cases h
        exact ⟨hc, rfl⟩
  · cases h

/-- A row is erased when it is there and no order refers to it. -/
theorem deleteItem_ok {v : Db} {i : Uuid} {r : Unit} {ws : List Write}
    (h : exec (.deleteItem i) v = .ok (r, ws)) :
    ws = [.eraseItem i] ∧ (v.items.find? i).isSome = true ∧
      ∀ row ∈ v.orders.rows, ∀ l ∈ row.items, l.itemId ≠ i := by
  simp only [exec] at h
  split at h
  · cases h
  · next hthere =>
    split at h
    · cases h
    · next hunused =>
      cases h
      exact ⟨rfl, by simpa [Option.isSome_iff_ne_none] using hthere, by simpa using hunused⟩

/-- A service that is deleted is on no line of an order. -/
theorem deleteService_ok {v : Db} {s : Uuid} {r : Unit} {ws : List Write}
    (h : exec (.deleteService s) v = .ok (r, ws)) :
    ws = [.eraseService s] ∧ ∀ row ∈ v.orders.rows, s ∉ row.services := by
  simp only [exec] at h
  split at h
  · cases h
  · split at h
    · cases h
    · next hunused =>
      cases h
      exact ⟨rfl, by simpa using hunused⟩

/-- A vehicle that is deleted is of no order. -/
theorem deleteVehicle_ok {v : Db} {id : Uuid} {r : Unit} {ws : List Write}
    (h : exec (.deleteVehicle id) v = .ok (r, ws)) :
    ws = [.eraseVehicle id] ∧ ∀ row ∈ v.orders.rows, row.vehicleId ≠ id := by
  simp only [exec] at h
  split at h
  · cases h
  · split at h
    · cases h
    · next hunused =>
      cases h
      exact ⟨rfl, by simpa using hunused⟩

/-- What was answered comes with writes in `P` only. -/
def WritesOnly {α : Type} (P : Write → Prop) (x : Except Failure (α × List Write)) : Prop :=
  ∀ a ws, x = .ok (a, ws) → ∀ w ∈ ws, P w

namespace WritesOnly

variable {α : Type} {P : Write → Prop} {db : Db}

theorem answer (a : α) : WritesOnly P (.ok (a, [])) := by
  intro b ws h w hw
  cases h
  cases hw

/-- A statement that is refused writes nothing. -/
theorem refused (failure : Failure) : WritesOnly (α := α) P (.error failure) := by
  intro b ws h
  cases h

theorem one (a : α) {w : Write} (hw : P w) : WritesOnly P (.ok (a, [w])) := by
  intro b ws h
  cases h
  exact List.forall_mem_singleton.mpr hw

/-- A row that is stored, if it satisfies its checks. -/
theorem write {x : Except Failure (List Write)} {a : α}
    (hx : ∀ ws, x = .ok ws → ∀ w ∈ ws, P w) : WritesOnly P (x.map (a, ·)) := by
  intro b ws h
  obtain ⟨ws', hx', heq⟩ := map_ok h
  cases heq
  exact hx ws hx'

/-- Storing an order writes its row, if anything; the next four say so of the other rows. -/
theorem order {row : OrderRow} {a : α} (hP : ∀ hc, P (.putOrder row hc)) :
    WritesOnly P ((storeOrder row).map (a, ·)) := by
  refine write fun ws h => ?_
  obtain ⟨hc, rfl⟩ := storeOrder_ok h
  exact List.forall_mem_singleton.mpr (hP hc)

theorem item {row : ItemRow} {a : α} (hP : ∀ hc, P (.putItem row hc)) :
    WritesOnly P ((storeItem row).map (a, ·)) := by
  refine write fun ws h => ?_
  obtain ⟨hc, rfl⟩ := storeItem_ok h
  exact List.forall_mem_singleton.mpr (hP hc)

theorem service {row : ServiceRow} {a : α} (hP : ∀ hc, P (.putService row hc)) :
    WritesOnly P ((storeService row).map (a, ·)) := by
  refine write fun ws h => ?_
  obtain ⟨hc, rfl⟩ := storeService_ok h
  exact List.forall_mem_singleton.mpr (hP hc)

theorem customer {row : CustomerRow} {a : α} (hP : ∀ hc, P (.putCustomer row hc)) :
    WritesOnly P ((storeCustomer db row).map (a, ·)) := by
  refine write fun ws h => ?_
  obtain ⟨hc, rfl⟩ := storeCustomer_ok h
  exact List.forall_mem_singleton.mpr (hP hc)

theorem vehicle {row : VehicleRow} {a : α} (hP : ∀ hc, P (.putVehicle row hc)) :
    WritesOnly P ((storeVehicle db row).map (a, ·)) := by
  refine write fun ws h => ?_
  obtain ⟨hc, rfl⟩ := storeVehicle_ok h
  exact List.forall_mem_singleton.mpr (hP hc)

/-- A change of an order writes the changed row, or does what it does of a missing order. -/
theorem changeOrder {o : Uuid} {missing : Except Failure (α × List Write)}
    {f : OrderRow → Except Failure (α × OrderRow)} (hmissing : WritesOnly P missing)
    (hP : ∀ row hc, P (.putOrder row hc)) : WritesOnly P (changeOrder db o missing f) := by
  intro a ws h
  cases hrow : db.orders.find? o with
  | none =>
      rw [CarRepairShop.changeOrder, hrow] at h
      exact hmissing a ws h
  | some row =>
      obtain ⟨row', hc, -, rfl⟩ := changeOrder_ok h hrow
      exact List.forall_mem_singleton.mpr (hP row' hc)

theorem changeItemIf {i : Uuid} {q : ℤ} {cond : ItemRow → Bool} {f : ItemRow → ItemRow}
    (hP : ∀ row hc, P (.putItem row hc)) : WritesOnly P (changeItemIf db i q cond f) := by
  intro n ws h
  obtain ⟨-, rfl⟩ | ⟨-, row, hc, -, -, rfl⟩ := changeItemIf_ok h
  · intro w hw
    cases hw
  · exact List.forall_mem_singleton.mpr (hP _ hc)

end WritesOnly

/-- Everything a statement can write. -/
theorem exec_makes (s : Stmt) (v : Db) : WritesOnly (fun w => s.makes w = true) (exec s v) := by
  cases s with
  | findOrder _ | findServiceLines _ | findItemLines _ | countOrders _ | findItem _ | findService _
  | findActiveCustomer _ | findVehicle _ =>
      exact .answer _
  | findActiveCustomerByTaxId _ | findVehicleByPlate _ =>
      simp only [exec]
      split
      · exact .answer _
      · exact .refused _
  | insertOrder id customerId vehicleId status budgetTotal createdAt =>
      simp only [exec]
      split
      · split
        · exact .refused _
        · split
          · exact .refused _
          · exact .order fun _ => rfl
      · exact .refused _
  | claimVersion id expectedVersion =>
      simp only [exec]
      split
      · exact .answer _
      · split
        · exact .order fun _ => rfl
        · exact .answer _
  | findStatusOrThrow id =>
      simp only [exec]
      split
      · exact .refused _
      · exact .answer _
  | deleteServiceLines _ | deleteItemLines _ => exact .changeOrder (.answer ()) fun _ _ => rfl
  | createServiceLines _ _ | createItemLines _ _ | updateOrder _ _ | insertHistory _ _ =>
      exact .changeOrder (.refused _) fun _ _ => rfl
  | reserveItem _ _ | releaseItem _ _ | consumeItem _ _ => exact .changeItemIf fun _ _ => rfl
  | insertItem _ _ _ _ _ | updateItem _ _ =>
      simp only [exec]
      split
      · exact .refused _
      · exact .item fun _ => rfl
  | deleteItem id =>
      intro u ws h
      rw [(deleteItem_ok h).1]
      exact List.forall_mem_singleton.mpr rfl
  | insertService _ _ _ _ | updateService _ _ =>
      simp only [exec]
      split
      · exact .refused _
      · exact .service fun _ => rfl
  | deleteService id =>
      intro u ws h
      rw [(deleteService_ok h).1]
      exact List.forall_mem_singleton.mpr rfl
  | insertCustomer _ | updateCustomer _ _ _ =>
      simp only [exec]
      split
      · exact .refused _
      · exact .customer fun _ => rfl
  | insertVehicle id customerId plate brand model year =>
      simp only [exec]
      split
      · exact .refused _
      · split
        · exact .refused _
        · exact .vehicle fun _ => rfl
  | updateVehicle id data =>
      simp only [exec]
      split
      · exact .refused _
      · intro row ws h
        obtain ⟨row', -, hstore⟩ := bind_ok h
        obtain ⟨ws', hst, heq⟩ := bind_ok hstore
        obtain ⟨hc, rfl⟩ := storeVehicle_ok hst
        cases heq
        exact List.forall_mem_singleton.mpr rfl
  | deleteVehicle id =>
      intro u ws h
      rw [(deleteVehicle_ok h).1]
      exact List.forall_mem_singleton.mpr rfl
  | insertOutbox row => exact .one () rfl
  | insertProcessed messageId type processedAt =>
      simp only [exec]
      split
      · exact .refused _
      · split
        · exact .answer _
        · exact .one 1 rfl

/-! ## The registry -/

/-- The statements on customers, vehicles and services, but for the removal of
a service. -/
def Stmt.registry : Stmt → Bool
  | .findService _ | .insertService .. | .updateService .. => true
  | .findActiveCustomer _ | .findActiveCustomerByTaxId _ => true
  | .insertCustomer _ | .updateCustomer .. => true
  | .findVehicle _ | .findVehicleByPlate _ => true
  | .insertVehicle .. | .updateVehicle .. | .deleteVehicle _ => true
  | _ => false

/-- A transaction that has written the registry only, and removed no service. -/
structure InRegistry (tx : ShopTx) : Prop where
  writes : RegistryWrites tx.writes
  claims : claims tx.trace = []
  services : ∀ s, lastService tx.writes s ≠ some none

/-- Before the first statement nothing was written and no version claimed. -/
theorem InRegistry.start : InRegistry {} where
  writes := by
    intro w hw
    cases hw
  claims := rfl
  services := by
    intro s hs
    cases hs

/-- What a statement of the registry can write. -/
theorem registry_makes {s : Stmt} (hs : s.registry = true) {w : Write} (h : s.makes w = true) :
    RegistryWrites [w] ∧ ∀ id, w ≠ .eraseService id := by
  cases w with
  | putCustomer row hc => exact ⟨by simp [RegistryWrites, hc], by simp⟩
  | putVehicle row hc => exact ⟨by simp [RegistryWrites, hc], by simp⟩
  | eraseVehicle id => exact ⟨by simp [RegistryWrites], by simp⟩
  | putService row hc => exact ⟨by simp [RegistryWrites, hc], by simp⟩
  | _ => cases s <;> first | (cases h; done) | cases hs

/-- The step lemma: a statement on the registry writes rows of the registry, none of which
is of an item or an order. -/
theorem InRegistry.record {s : Stmt} {v : Db} {r : s.Resp} {ws : List Write} {tx : ShopTx}
    (hs : s.registry = true) (he : exec s v = .ok (r, ws)) (h : InRegistry tx) :
    InRegistry (tx.record s r ws) := by
  have hmakes : ∀ w ∈ ws, RegistryWrites [w] ∧ ∀ id, w ≠ .eraseService id := by
    intro w hw
    exact registry_makes hs (exec_makes s v r ws he w hw)
  have hclaim : Answered.claim? ⟨s, r⟩ = none := by
    cases s <;> first | rfl | cases hs
  refine ⟨?_, ?_, ?_⟩
  · intro w hw
    rcases List.mem_append.mp hw with hw | hw
    · exact h.writes w hw
    · exact (hmakes w hw).1 w (List.mem_singleton_self w)
  · rw [Tx.record_trace, claims_append, h.claims]
    simp [CarRepairShop.claims, hclaim]
  · intro t ht
    rw [Tx.record_writes, lastService, lastOf_append] at ht
    cases hlast : lastOf (Write.service? t) ws with
    | none => exact h.services t (by simpa [hlast] using ht)
    | some x =>
        rw [hlast, Option.some_or, Option.some.injEq] at ht
        subst ht
        -- only the removal of a service leaves none
        obtain ⟨w, hw, hwt⟩ := mem_of_lastOf hlast
        cases w with
        | eraseService id => exact (hmakes _ hw).2 id rfl
        | putService row hc => simp [Write.service?] at hwt
        | _ => cases hwt

/-- Customers belong to the registry, and vehicles do. -/
theorem registry_of_customers {s : Stmt} (h : s.table = .customers) : s.registry = true := by
  cases s <;> first | rfl | cases h

theorem registry_of_vehicles {s : Stmt} (h : s.table = .vehicles) : s.registry = true := by
  cases s <;> first | rfl | cases h

/-- A unit of work on the registry alone. -/
theorem registry_ensures {α : Type} {p : Work α} (h : p.Issues fun s => s.registry = true)
    {db : Db} : p.Ensures postgres R G (fun _ tx _ => InRegistry tx) {} db :=
  h.ensures (fun _ _ _ _ _ hs he hI => hI.record hs he) InRegistry.start

/-- Customers are looked up and written in their own table, by whatever operation. -/
theorem CustomerRepository.update_issues (id : IdText) (data : CustomerPatch) :
    (CustomerRepository.update id data).Issues fun s => s.table = .customers := by
  unfold CustomerRepository.update
  cases id.column? with
  | none => trivial
  | some key =>
      refine ⟨rfl, fun existing => ?_⟩
      cases existing with
      | none => trivial
      | some row => exact fun updatedAt => ⟨rfl, fun row => trivial⟩

theorem CreateCustomer.execute_issues (input : CreateCustomerInput) :
    (CreateCustomer.execute input).Issues fun s => s.table = .customers := by
  unfold CreateCustomer.execute
  split
  · trivial
  · dsimp only
    split
    · trivial
    · refine ⟨rfl, fun existing => ?_⟩
      cases existing with
      | some customer => trivial
      | none => exact fun id createdAt => ⟨rfl, fun row => trivial⟩

theorem UpdateCustomer.execute_issues (id : IdText) (data : CustomerPatch) :
    (UpdateCustomer.execute id data).Issues fun s => s.table = .customers := by
  unfold UpdateCustomer.execute
  split
  · trivial
  · split
    · trivial
    · refine (CustomerRepository.update_issues id data).bind fun updated => ?_
      cases updated <;> trivial

theorem DeleteCustomer.execute_issues (id : IdText) :
    (DeleteCustomer.execute id).Issues fun s => s.table = .customers := by
  unfold DeleteCustomer.execute
  refine Issues.bind ?_ fun deleted => ?_
  · unfold CustomerRepository.softDelete
    cases id.column? with
    | none => trivial
    | some key =>
        refine ⟨rfl, fun existing => ?_⟩
        cases existing with
        | none => trivial
        | some row => exact fun deletedAt => ⟨rfl, fun row => trivial⟩
  · cases deleted <;> trivial

/-- A vehicle names its customer by key, without a statement on customers. -/
theorem CreateVehicle.execute_issues (input : CreateVehicleInput) :
    (CreateVehicle.execute input).Issues fun s => s.table = .vehicles := by
  unfold CreateVehicle.execute
  split
  · trivial
  · refine ⟨rfl, fun existing => ?_⟩
    cases existing with
    | some vehicle => trivial
    | none => exact fun id => ⟨rfl, fun row => trivial⟩

theorem UpdateVehicle.execute_issues (id : IdText) (data : VehiclePatch) :
    (UpdateVehicle.execute id data).Issues fun s => s.table = .vehicles := by
  unfold UpdateVehicle.execute
  refine Issues.bind ?_ fun _ => Issues.bind ?_ fun updated => ?_
  · cases data.plate with
    | none => trivial
    | some plate =>
        simp only [UpdateVehicle.checkPlate]
        split
        · trivial
        · refine ⟨rfl, fun existing => ?_⟩
          change Issues _ (if _ then throwApp _ else Prog.pure ())
          split <;> trivial
  · unfold VehicleRepository.update
    cases id.column? with
    | none => trivial
    | some key =>
        refine ⟨rfl, fun existing => ?_⟩
        cases existing with
        | none => trivial
        | some row => exact ⟨rfl, fun row => trivial⟩
  · cases updated <;> trivial

/-- The removal of a vehicle looks it up and deletes it; it writes no vehicle. -/
theorem DeleteVehicle.execute_deletes (id : IdText) :
    (DeleteVehicle.execute id).Issues fun s =>
      (∃ v, s = .findVehicle v) ∨ ∃ v, s = .deleteVehicle v := by
  unfold DeleteVehicle.execute
  refine Issues.bind ?_ fun deleted => ?_
  · unfold VehicleRepository.delete
    cases id.column? with
    | none => trivial
    | some key =>
        refine ⟨.inl ⟨key, rfl⟩, fun existing => ?_⟩
        cases existing with
        | none => trivial
        | some row => exact ⟨.inr ⟨key, rfl⟩, fun _ => trivial⟩
  · cases deleted <;> trivial

theorem DeleteVehicle.execute_issues (id : IdText) :
    (DeleteVehicle.execute id).Issues fun s => s.table = .vehicles := by
  refine (execute_deletes id).mono ?_
  rintro s (⟨v, rfl⟩ | ⟨v, rfl⟩)
  · rfl
  · rfl

theorem CreateService.execute_issues (name : String) (price : ℚ) (estimatedMinutes : ℤ) :
    (CreateService.execute name price estimatedMinutes).Issues fun s =>
      s.table = .services ∧ s.registry = true :=
  fun _ => ⟨⟨rfl, rfl⟩, fun _ => trivial⟩

theorem UpdateService.execute_issues (id : IdText) (data : ServicePatch) :
    (UpdateService.execute id data).Issues fun s =>
      s.table = .services ∧ s.registry = true := by
  unfold UpdateService.execute
  refine Issues.bind ?_ fun updated => ?_
  · unfold ServiceRepository.update
    cases id.column? with
    | none => trivial
    | some key =>
        refine ⟨⟨rfl, rfl⟩, fun existing => ?_⟩
        cases existing with
        | none => trivial
        | some row => exact ⟨⟨rfl, rfl⟩, fun row => trivial⟩
  · cases updated <;> trivial

/-- What the registry commits, as `Committed` puts it. -/
theorem InRegistry.committed {tx : ShopTx} (h : InRegistry tx) (db : Db) :
    RegistryWrites tx.writes ∧ CarRepairShop.claims tx.trace = [] ∧
      ∀ s, lastService tx.writes s = some none →
        Was R (fun d => ∀ row ∈ d.orders.rows, s ∉ row.services) db :=
  ⟨h.writes, h.claims, fun s hs => absurd hs (h.services s)⟩

/-- A service is removed only when no order has it. -/
theorem DeleteService.execute_ensures (hR : ShopInterference R) (id : IdText) {db : Db} :
    (DeleteService.execute id).Ensures postgres R G
      (fun _ tx db' => RegistryWrites tx.writes ∧ claims tx.trace = [] ∧
        ∀ s, lastService tx.writes s = some none →
          Was R (fun d => ∀ row ∈ d.orders.rows, s ∉ row.services) db') {} db := by
  unfold DeleteService.execute ServiceRepository.delete
  cases id.column? with
  | none => trivial
  | some key =>
      refine ensures_sql.mpr fun d₁ h₁ _ existing ws₁ he => ?_
      simp only [exec, Except.ok.injEq, Prod.mk.injEq] at he
      rcases he with ⟨-, rfl⟩
      cases existing with
      | none => trivial
      | some row =>
          refine ensures_sql.mpr fun d₂ h₂ _ u ws₂ he => ?_
          rcases deleteService_ok he with ⟨rfl, hunused⟩
          intro db' h'
          refine ⟨?_, rfl, ?_⟩
          · intro w hw
            have hw' : w = .eraseService key := by simpa using hw
            exact Or.inr (Or.inr (Or.inr (Or.inr ⟨key, hw'⟩)))
          · intro s hs
            have hkey : key = s := by
              by_contra hne
              simp [Write.service?, hne] at hs
            subst hkey
            have hnow : Was R (fun d => ∀ row ∈ d.orders.rows, key ∉ row.services) d₂ :=
              Was.now hR.toInterference hunused
            exact hnow.stable hR.toInterference h'

/-! ## Items -/

/-- A new item is the one row written, under an id that was free, and has no unit reserved.
-/
theorem CreateItem.execute_ensures (hR : ShopInterference R) (name : String) (price : ℚ)
    (stockQuantity : ℤ) {db : Db} :
    (CreateItem.execute name price stockQuantity).Ensures postgres R G
      (fun _ tx db' => Quiet tx.writes ∧ claims tx.trace = [] ∧ ∃ i row,
        db'.items.find? i = none ∧ OnlyItem i (some row) tx.writes ∧ row.reservedQuantity = 0)
      {} db := by
  unfold CreateItem.execute
  split
  · trivial
  · split
    · trivial
    · intro i
      refine ensures_sql.mpr fun d h _ row ws he => ?_
      simp only [exec] at he
      split at he
      · cases he
      · next hnew =>
        rcases map_ok he with ⟨ws', hst, heq⟩
        cases heq
        rcases storeItem_ok hst with ⟨hc, rfl⟩
        have honly := OnlyItem.one hc
        intro db' h'
        refine ⟨⟨fun _ => rfl, rfl, fun _ => rfl⟩, rfl, i, _, ?_, honly, rfl⟩
        rw [(hR.rely _ _ _ h').itemHeld i _ honly.item]
        cases hf : d.items.find? i with
        | none => rfl
        | some r => simp [Engine.view, hf] at hnew

/-- The counter of reserved units of an item that is updated is the one read when it is
written. -/
theorem UpdateItem.execute_ensures (hR : ShopInterference R) (id : IdText) (data : UpdateItemInput)
    {db : Db} :
    (UpdateItem.execute id data).Ensures postgres R G
      (fun _ tx db' => Quiet tx.writes ∧ claims tx.trace = [] ∧ ∃ i row row',
        db'.items.find? i = some row ∧ OnlyItem i (some row') tx.writes ∧
        row'.reservedQuantity = row.reservedQuantity) {} db := by
  unfold UpdateItem.execute
  split
  · trivial
  · split
    · trivial
    · unfold ItemRepository.update
      cases id.column? with
      | none => trivial
      | some key =>
          refine ensures_sql.mpr fun d₁ h₁ _ existing ws₁ he => ?_
          simp only [exec, Except.ok.injEq, Prod.mk.injEq] at he
          rcases he with ⟨-, rfl⟩
          cases existing with
          | none => trivial
          | some existing =>
              refine ensures_sql.mpr fun d₂ h₂ _ row' ws₂ he => ?_
              have hview : (postgres.view (Tx.record {} (.findItem key) (some existing) []) d₂).items
                  = d₂.items := rfl
              simp only [exec, hview] at he
              cases hrow : d₂.items.find? key with
              | none => simp [hrow] at he
              | some row =>
                  simp only [hrow] at he
                  rcases map_ok he with ⟨ws', hst, heq⟩
                  cases heq
                  rcases storeItem_ok hst with ⟨hc, rfl⟩
                  have hid : row.id = key := item_id hrow
                  have honly := OnlyItem.one hc
                  rw [show (ItemPatch.apply _ row).id = key from hid] at honly
                  intro db' h'
                  refine ⟨⟨fun _ => rfl, rfl, fun _ => rfl⟩, rfl, key, row, _, ?_, honly, rfl⟩
                  rw [(hR.rely _ _ _ h').itemHeld key _ honly.item, hrow]

/-- An item is removed only when no order has it. -/
theorem DeleteItem.execute_ensures (hR : ShopInterference R) (id : IdText) {db : Db} :
    (DeleteItem.execute id).Ensures postgres R G
      (fun _ tx db' => Quiet tx.writes ∧ claims tx.trace = [] ∧
        ((∀ i, lastItem tx.writes i = none) ∨
        ∃ i, (db'.items.find? i).isSome = true ∧ OnlyItem i none tx.writes ∧
          Was R (fun d => ∀ row ∈ d.orders.rows, ∀ l ∈ row.items, l.itemId ≠ i) db')) {} db := by
  unfold DeleteItem.execute
  refine Ensures.seq hR.toInterference (ItemRepository.findById_ensures hR id) ?_
  rintro item tx₁ d₁ ⟨hc₁, -⟩ -
  rcases hc₁.start with ⟨hempty, hclaims⟩
  have hquiet : Quiet tx₁.writes := by
    rw [hempty]
    exact ⟨fun _ => rfl, rfl, fun _ => rfl⟩
  cases item with
  | none => trivial
  | some item =>
      dsimp only
      split
      · trivial
      · unfold ItemRepository.delete
        cases id.column? with
        | none =>
            intro db' _
            refine ⟨hquiet, hclaims, Or.inl ?_⟩
            intro i
            rw [hempty]
            rfl
        | some key =>
            refine ensures_sql.mpr fun d₂ h₂ _ existing ws₂ he => ?_
            simp only [exec, Except.ok.injEq, Prod.mk.injEq] at he
            rcases he with ⟨-, rfl⟩
            have hclaims₂ : claims (tx₁.record (.findItem key) existing []).trace = [] := by
              rw [Tx.record_trace, claims_append, hclaims]
              rfl
            cases existing with
            | none =>
                intro db' _
                refine ⟨by simpa using hquiet, hclaims₂, Or.inl ?_⟩
                intro i
                simp [hempty]
            | some existing =>
                refine ensures_sql.mpr fun d₃ h₃ _ u ws₃ he => ?_
                have hview : postgres.view (tx₁.record (.findItem key) (some existing) []) d₃
                    = d₃ := by
                  rw [Engine.view, Tx.record_writes, hempty]
                  rfl
                rw [hview] at he
                -- the foreign key of the lines refuses an item that an order has
                rcases deleteItem_ok he with ⟨rfl, hthere, hunused⟩
                have honly : OnlyItem key none [.eraseItem key] := by
                  refine ⟨by simp [Write.item?], ?_⟩
                  intro j hj
                  simp [Write.item?, Ne.symm hj]
                intro db' h'
                simp only [Tx.record_writes, hempty, List.nil_append, List.append_nil] at h' ⊢
                refine ⟨⟨fun _ => rfl, rfl, fun _ => rfl⟩, ?_, Or.inr ⟨key, ?_, honly, ?_⟩⟩
                · rw [Tx.record_trace, claims_append, hclaims₂]
                  rfl
                -- the erased row is locked, so it is still there until the commit
                · rw [(hR.rely _ _ _ h').itemHeld key _ honly.item]
                  exact hthere
                · have hnow : Was R (fun d => ∀ row ∈ d.orders.rows, ∀ l ∈ row.items,
                      l.itemId ≠ key) d₃ := Was.now hR.toInterference hunused
                  exact hnow.stable hR.toInterference h'

/-! ## All operations -/

/-- Every unit of work of the service keeps its specification among others. -/
theorem program_ensures (hR : ShopInterference R) (op : Op) (db : Db) :
    (program op).Ensures postgres R G (Committed R G op) {} db := by
  cases op with
  | createServiceOrder input traceparent =>
      exact Ensures.map hR.toInterference (CreateServiceOrder.execute_ensures hR input traceparent)
  | addItemToOS osId itemId quantity =>
      exact Ensures.map hR.toInterference (AddItemToOS.execute_ensures hR osId itemId quantity)
  | removeItemFromOS osId itemId =>
      exact Ensures.map hR.toInterference (RemoveItemFromOS.execute_ensures hR osId itemId)
  | addServiceToOS osId serviceId =>
      exact Ensures.map hR.toInterference (AddServiceToOS.execute_ensures hR osId serviceId)
  | removeServiceFromOS osId serviceId =>
      exact Ensures.map hR.toInterference (RemoveServiceFromOS.execute_ensures hR osId serviceId)
  | deliverOS osId => exact Ensures.map hR.toInterference (DeliverOS.execute_ensures hR osId)
  | handle reply traceparent =>
      exact Ensures.map hR.toInterference
        ((ServiceOrderSaga.handle_ensures hR reply traceparent).post
          fun res tx db h => ⟨res, rfl, h.1⟩)
  | handleFailedCommand command traceparent =>
      exact Ensures.map hR.toInterference
        ((ServiceOrderSaga.handleFailedCommand_ensures hR command traceparent).post
          fun res tx db h => ⟨res, rfl, h.1⟩)
  | createItem name price stockQuantity =>
      exact Ensures.map hR.toInterference (CreateItem.execute_ensures hR name price stockQuantity)
  | updateItem id data =>
      exact Ensures.map hR.toInterference (UpdateItem.execute_ensures hR id data)
  | deleteItem id => exact Ensures.map hR.toInterference (DeleteItem.execute_ensures hR id)
  | createService name price estimatedMinutes =>
      exact Ensures.map hR.toInterference
        ((registry_ensures ((CreateService.execute_issues name price estimatedMinutes).mono fun _ hs =>
          hs.2)).post fun _ _ db h => h.committed db)
  | updateService id data =>
      exact Ensures.map hR.toInterference
        ((registry_ensures ((UpdateService.execute_issues id data).mono fun _ hs =>
          hs.2)).post fun _ _ db h => h.committed db)
  | deleteService id => exact Ensures.map hR.toInterference (DeleteService.execute_ensures hR id)
  | createCustomer input =>
      exact Ensures.map hR.toInterference
        ((registry_ensures ((CreateCustomer.execute_issues input).mono fun _ =>
          registry_of_customers)).post fun _ _ db h => h.committed db)
  | updateCustomer id data =>
      exact Ensures.map hR.toInterference
        ((registry_ensures ((UpdateCustomer.execute_issues id data).mono fun _ =>
          registry_of_customers)).post fun _ _ db h => h.committed db)
  | deleteCustomer id =>
      exact Ensures.map hR.toInterference
        ((registry_ensures ((DeleteCustomer.execute_issues id).mono fun _ =>
          registry_of_customers)).post fun _ _ db h => h.committed db)
  | createVehicle input =>
      exact Ensures.map hR.toInterference
        ((registry_ensures ((CreateVehicle.execute_issues input).mono fun _ =>
          registry_of_vehicles)).post fun _ _ db h => h.committed db)
  | updateVehicle id data =>
      exact Ensures.map hR.toInterference
        ((registry_ensures ((UpdateVehicle.execute_issues id data).mono fun _ =>
          registry_of_vehicles)).post fun _ _ db h => h.committed db)
  | deleteVehicle id =>
      exact Ensures.map hR.toInterference
        ((registry_ensures ((DeleteVehicle.execute_issues id).mono fun _ =>
          registry_of_vehicles)).post fun _ _ db h => h.committed db)

end Operations

end CarRepairShop
