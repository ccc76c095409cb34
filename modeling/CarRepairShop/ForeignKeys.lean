import CarRepairShop.Lib.Sequential
import CarRepairShop.Serial

/-! # Foreign keys

Every statement checks the foreign keys it touches, at once: a row is stored
when the rows it references are there, and a row that is referenced is not
erased. So each statement of a unit of work that runs alone keeps all of them
(`ForeignKeys.exec`), and they hold after any serial run.
-/

namespace CarRepairShop

open Lib Txn Prog

/-- What an order references is there. -/
structure OrderRow.KeysThere (row : OrderRow) (db : Db) : Prop where
  customer : (db.customers.find? row.customerId).isSome = true
  vehicle : (db.vehicles.find? row.vehicleId).isSome = true
  services : ∀ s ∈ row.services, (db.services.find? s).isSome = true
  items : ∀ l ∈ row.items, (db.items.find? l.itemId).isSome = true

/-- The foreign keys of the schema. -/
structure ForeignKeys (db : Db) : Prop where
  orders : ∀ o row, db.orders.find? o = some row → row.KeysThere db
  vehicles : ∀ v row, db.vehicles.find? v = some row →
    (db.customers.find? row.customerId).isSome = true

theorem ForeignKeys.start : ForeignKeys {} where
  orders := by
    intro o row h
    cases h
  vehicles := by
    intro v row h
    cases h

/-! ## Writes -/

/-- The foreign keys let a write through. -/
def Write.Admissible (db : Db) : Write → Prop
  | .putVehicle row _ => (db.customers.find? row.customerId).isSome = true
  | .eraseVehicle id => ∀ row ∈ db.orders.rows, row.vehicleId ≠ id
  | .eraseService id => ∀ row ∈ db.orders.rows, id ∉ row.services
  | .eraseItem id => ∀ row ∈ db.orders.rows, ∀ l ∈ row.items, l.itemId ≠ id
  | .putOrder row _ => row.KeysThere db
  | _ => True

section Writes

variable {α κ : Type} [DecidableEq κ] {key : α → κ} {check : α → Prop} {t : Table key check}

/-- A row that is there stays there when another is stored. -/
theorem isSome_put (r : α) (h : check r) {k : κ} (hk : (t.find? k).isSome = true) :
    ((t.put r h).find? k).isSome = true := by
  rw [Table.find?_put]
  split
  · rfl
  · exact hk

/-- A row that is there stays there when another is erased. -/
theorem isSome_erase {k k' : κ} (hk : (t.find? k).isSome = true) (hne : k ≠ k') :
    ((t.erase k').find? k).isSome = true := by
  rw [Table.find?_erase, if_neg fun heq => hne heq.symm]
  exact hk

/-- A row found after a put is the new one or an old one. -/
theorem find?_put_cases (r : α) (h : check r) {x : α} {k : κ} (hx : (t.put r h).find? k = some x) :
    x = r ∨ t.find? k = some x := by
  rw [Table.find?_put] at hx
  split at hx
  · exact .inl (Option.some.inj hx).symm
  · exact .inr hx

end Writes

section Keys

variable {db : Db}

/-- An admissible write keeps the foreign keys. -/
theorem ForeignKeys.write (h : ForeignKeys db) {w : Write} (hw : w.Admissible db) :
    ForeignKeys (db.write w) := by
  cases w with
  | putCustomer row hc =>
      constructor
      · intro o r hr
        have hold := h.orders o r hr
        exact { hold with customer := isSome_put row hc hold.customer }
      · intro v r hr
        exact isSome_put row hc (h.vehicles v r hr)
  | putVehicle row hc =>
      constructor
      · intro o r hr
        have hold := h.orders o r hr
        exact { hold with vehicle := isSome_put row hc hold.vehicle }
      · intro v r hr
        rcases find?_put_cases row hc hr with rfl | hold
        · exact hw
        · exact h.vehicles v r hold
  | eraseVehicle id =>
      constructor
      · intro o r hr
        have hold := h.orders o r hr
        -- no order has the vehicle, or its removal would not be admissible
        have hne := hw r (Table.mem_of_find? hr)
        exact { hold with vehicle := isSome_erase hold.vehicle hne }
      · intro v r hr
        simp only [Db.write, Table.find?_erase] at hr
        split at hr
        · cases hr
        · exact h.vehicles v r hr
  | putService row hc =>
      constructor
      · intro o r hr
        have hold := h.orders o r hr
        exact { hold with services := fun s hs => isSome_put row hc (hold.services s hs) }
      · exact h.vehicles
  | eraseService id =>
      constructor
      · intro o r hr
        have hold := h.orders o r hr
        refine { hold with services := ?_ }
        intro s hs
        refine isSome_erase (hold.services s hs) ?_
        rintro rfl
        -- the service is not the one removed, since a line has it
        exact hw r (Table.mem_of_find? hr) hs
      · exact h.vehicles
  | putItem row hc =>
      constructor
      · intro o r hr
        have hold := h.orders o r hr
        exact { hold with items := fun l hl => isSome_put row hc (hold.items l hl) }
      · exact h.vehicles
  | eraseItem id =>
      constructor
      · intro o r hr
        have hold := h.orders o r hr
        refine { hold with items := ?_ }
        intro l hl
        exact isSome_erase (hold.items l hl) (hw r (Table.mem_of_find? hr) l hl)
      · exact h.vehicles
  | putOrder row hc =>
      constructor
      · intro o r hr
        rcases find?_put_cases row hc hr with rfl | hold
        · exact { hw with }
        · exact { h.orders o r hold with }
      · exact h.vehicles
  | addOutbox row => exact ⟨fun o r hr => { h.orders o r hr with }, h.vehicles⟩
  | putProcessed row => exact ⟨fun o r hr => { h.orders o r hr with }, h.vehicles⟩

/-! ## Statements -/

/-- A statement writes at most one row, and the foreign keys let it. -/
def Admitted (db : Db) (ws : List Write) : Prop :=
  ws = [] ∨ ∃ w, ws = [w] ∧ w.Admissible db

theorem Admitted.one {w : Write} (h : w.Admissible db) : Admitted db [w] := .inr ⟨w, rfl, h⟩

/-- The answer of a statement that stores a row. -/
theorem Admitted.map {α : Type} {x : Except Failure (List Write)} {a b : α} {ws : List Write}
    (h : x.map (b, ·) = .ok (a, ws)) (hx : ∀ ws', x = .ok ws' → Admitted db ws') :
    Admitted db ws := by
  rcases map_ok h with ⟨ws', hst, heq⟩
  cases heq
  exact hx _ hst

theorem storeItem_admitted {row : ItemRow} {ws : List Write} (h : storeItem row = .ok ws) :
    Admitted db ws := by
  rcases storeItem_ok h with ⟨hc, rfl⟩
  exact .one trivial

theorem storeService_admitted {row : ServiceRow} {ws : List Write}
    (h : storeService row = .ok ws) : Admitted db ws := by
  rcases storeService_ok h with ⟨hc, rfl⟩
  exact .one trivial

theorem storeCustomer_admitted {row : CustomerRow} {ws : List Write}
    (h : storeCustomer db row = .ok ws) : Admitted db ws := by
  rcases storeCustomer_ok h with ⟨hc, rfl⟩
  exact .one trivial

theorem storeVehicle_admitted {row : VehicleRow} {ws : List Write}
    (h : storeVehicle db row = .ok ws) : Admitted db ws := by
  have hws := storeVehicle_ok h
  unfold storeVehicle at h
  split at h
  · split at h
    · cases h
    · split at h
      · cases h
      · next hthere =>
        rcases hws with ⟨hc, rfl⟩
        exact .one (by simpa [Write.Admissible, Option.isSome_iff_ne_none] using hthere)
  · cases h

theorem storeOrder_admitted {row : OrderRow} {ws : List Write} (h : storeOrder row = .ok ws)
    (hrow : row.KeysThere db) : Admitted db ws := by
  rcases storeOrder_ok h with ⟨hc, rfl⟩
  exact .one hrow

/-- A change of an order that keeps what it references there. -/
theorem changeOrder_admitted {α : Type} {o : Uuid} {missing : Except Failure (α × List Write)}
    {f : OrderRow → Except Failure (α × OrderRow)} {a : α} {ws : List Write}
    (hmissing : ∀ a ws, missing = .ok (a, ws) → ws = [])
    (hf : ∀ row a row', db.orders.find? o = some row → f row = .ok (a, row') → row'.KeysThere db)
    (h : changeOrder db o missing f = .ok (a, ws)) : Admitted db ws := by
  cases hrow : db.orders.find? o with
  | none =>
      simp only [changeOrder, hrow] at h
      exact .inl (hmissing a ws h)
  | some row =>
      rcases changeOrder_ok h hrow with ⟨row', hc, hfrow, rfl⟩
      exact .one (hf row a row' hrow hfrow)

theorem changeItemIf_admitted {i : Uuid} {q : ℤ} {cond : ItemRow → Bool} {f : ItemRow → ItemRow}
    {n : ℕ} {ws : List Write} (h : changeItemIf db i q cond f = .ok (n, ws)) : Admitted db ws := by
  rcases changeItemIf_ok h with ⟨-, rfl⟩ | ⟨-, row, hc, -, -, rfl⟩
  · exact .inl rfl
  · exact .one trivial

/-- Every statement the database accepts writes what the foreign keys allow. -/
theorem exec_admitted (h : ForeignKeys db) {s : Stmt} {r : s.Resp} {ws : List Write}
    (he : exec s db = .ok (r, ws)) : Admitted db ws := by
  cases s with
  | insertOrder o customerId vehicleId status budgetTotal createdAt =>
      simp only [exec] at he
      split at he
      · split at he
        · cases he
        · split at he
          · cases he
          · next hthere =>
            -- a new order has no lines, so only its two keys count
            refine .map he fun ws' hst => storeOrder_admitted hst ?_
            rw [not_or] at hthere
            constructor
            · simpa [Option.isSome_iff_ne_none] using hthere.1
            · simpa [Option.isSome_iff_ne_none] using hthere.2
            · simp
            · simp
      · cases he
  | claimVersion o expectedVersion =>
      simp only [exec] at he
      split at he
      · cases he
        exact .inl rfl
      · next row hrow =>
        split at he
        · exact .map he fun ws' hst => storeOrder_admitted hst { h.orders o row hrow with }
        · cases he
          exact .inl rfl
  | deleteServiceLines o =>
      refine changeOrder_admitted (by simp) ?_ he
      intro row a row' hrow hf
      cases hf
      exact { h.orders o row hrow with services := by simp }
  | deleteItemLines o =>
      refine changeOrder_admitted (by simp) ?_ he
      intro row a row' hrow hf
      cases hf
      exact { h.orders o row hrow with items := by simp }
  | createServiceLines o lines =>
      refine changeOrder_admitted (by simp) ?_ he
      intro row a row' hrow hf
      have hold := h.orders o row hrow
      rcases bind_ok hf with ⟨ids, hcols, heq⟩
      cases heq
      refine { hold with services := ?_ }
      intro s hs
      -- a line is an old one, or its service was looked up
      rcases List.mem_append.1 hs with hin | hnew
      · exact hold.services s hin
      · exact (serviceColumns_ok hcols).2 s hnew
  | createItemLines o lines =>
      refine changeOrder_admitted (by simp) ?_ he
      intro row a row' hrow hf
      have hold := h.orders o row hrow
      rcases bind_ok hf with ⟨new, hcols, heq⟩
      cases heq
      refine { hold with items := ?_ }
      intro l hl
      -- a line is an old one, or its item was looked up
      rcases List.mem_append.1 hl with hin | hnew
      · exact hold.items l hin
      · exact (itemColumns_ok hcols).2 l hnew
  | updateOrder o data =>
      refine changeOrder_admitted (by simp) ?_ he
      intro row a row' hrow hf
      cases hf
      exact { h.orders o row hrow with }
  | insertHistory o change =>
      refine changeOrder_admitted (by simp) ?_ he
      intro row a row' hrow hf
      cases hf
      exact { h.orders o row hrow with }
  | insertItem i name price stockQuantity reservedQuantity =>
      simp only [exec] at he
      split at he
      · cases he
      · exact .map he fun _ => storeItem_admitted
  | updateItem i data =>
      simp only [exec] at he
      split at he
      · cases he
      · exact .map he fun _ => storeItem_admitted
  | reserveItem i quantity => exact changeItemIf_admitted he
  | releaseItem i quantity => exact changeItemIf_admitted he
  | consumeItem i quantity => exact changeItemIf_admitted he
  | deleteItem i =>
      rcases deleteItem_ok he with ⟨rfl, -, hunused⟩
      exact .one hunused
  | insertService s name price estimatedMinutes =>
      simp only [exec] at he
      split at he
      · cases he
      · exact .map he fun _ => storeService_admitted
  | updateService s data =>
      simp only [exec] at he
      split at he
      · cases he
      · exact .map he fun _ => storeService_admitted
  | deleteService s =>
      rcases deleteService_ok he with ⟨rfl, hunused⟩
      exact .one hunused
  | insertCustomer row =>
      simp only [exec] at he
      split at he
      · cases he
      · exact .map he fun _ => storeCustomer_admitted
  | updateCustomer c data updatedAt =>
      simp only [exec] at he
      split at he
      · cases he
      · exact .map he fun _ => storeCustomer_admitted
  | insertVehicle v customerId plate brand model year =>
      simp only [exec] at he
      split at he
      · cases he
      · split at he
        · cases he
        · exact .map he fun _ => storeVehicle_admitted
  | updateVehicle v data =>
      simp only [exec] at he
      split at he
      · cases he
      · rcases bind_ok he with ⟨row', -, hstore⟩
        rcases bind_ok hstore with ⟨ws', hst, heq⟩
        cases heq
        exact storeVehicle_admitted hst
  | deleteVehicle v =>
      rcases deleteVehicle_ok he with ⟨rfl, hunused⟩
      exact .one hunused
  | insertOutbox row =>
      cases he
      exact .one trivial
  | insertProcessed messageId type processedAt =>
      simp only [exec] at he
      split at he
      · cases he
      · split at he
        · cases he
          exact .inl rfl
        · cases he
          exact .one trivial
  | findStatusOrThrow o =>
      simp only [exec] at he
      split at he
      · cases he
      · cases he
        exact .inl rfl
  | findActiveCustomerByTaxId _ | findVehicleByPlate _ =>
      simp only [exec] at he
      split at he
      · cases he
        exact .inl rfl
      · cases he
  | _ =>
      cases he
      exact .inl rfl

/-- The step: a statement keeps the foreign keys. -/
theorem ForeignKeys.exec (h : ForeignKeys db) {s : Stmt} {r : s.Resp} {ws : List Write}
    (he : postgres.exec s db = .ok (r, ws)) : ForeignKeys (postgres.applyAll db ws) := by
  rcases exec_admitted h he with rfl | ⟨w, rfl, hw⟩
  · exact h
  · exact h.write hw

end Keys

/-! ## Runs -/

/-- One operation. -/
theorem World.perform_foreignKeys {w : World} (h : ForeignKeys w.db) (now : ℕ) (op : Op) :
    ForeignKeys (w.perform now op).db := by
  unfold World.perform World.attempt
  cases hrun : (program op).run postgres now w.db w.nextId {} with
  | error failure => exact h
  | ok fin =>
      have hview : ForeignKeys (postgres.view {} w.db) := h
      exact run_keeps (fun _ _ _ _ he hv => hv.exec he) hview hrun

/-- After any operations run one at a time, every foreign key is satisfied. -/
theorem World.performAll_foreignKeys {w : World} (h : ForeignKeys w.db) (ops : List (ℕ × Op)) :
    ForeignKeys (w.performAll ops).db := by
  induction ops generalizing w with
  | nil => exact h
  | cons op ops ih => exact ih (w.perform_foreignKeys h op.1 op.2)

end CarRepairShop
