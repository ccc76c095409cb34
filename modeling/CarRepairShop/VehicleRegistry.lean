import CarRepairShop.Lib.UniqueColumn
import CarRepairShop.Serial
import CarRepairShop.Statements

/-! # The registry of vehicles

`CreateVehicle`, `UpdateVehicle` and `DeleteVehicle` in any sequence, among all the
other operations. `validatePlate` accepts a plate in any case, with white space
and with or without the hyphen of the old format, but the plate is looked up,
indexed and stored in the spelling it comes in. So the plates are a column that
is unique up to its spelling (`Lib.Table.DenotesOnce`), and it stays so as long as
no call respells a plate that another vehicle has.
-/

namespace CarRepairShop

open Lib Txn Prog

/-! ## Plates -/

/-- The plate a spelling denotes: what `validatePlate` matches, without the hyphen it makes
optional. -/
def plateKey (plate : String) : List Char := (normalizePlate plate).filter (· ≠ '-')

/-- No two vehicles have one plate. -/
def OnePlate (db : Db) : Prop := db.vehicles.DenotesOnce (·.plate) plateKey

/-- Nothing but the plates of the other vehicles refuses the row. -/
def Db.storable (db : Db) (row : VehicleRow) : Bool :=
  validatePlate row.plate && (db.customers.find? row.customerId).isSome && decide row.Checks

/-- The row that a call makes of its arguments, and of the row that is there. -/
def Op.vehicleRow? (w : World) : Op → Option VehicleRow
  | .createVehicle input => input.customerId.stored?.map fun customerId =>
      ⟨w.nextId, customerId, input.plate, input.brand, input.model, input.year⟩
  | .updateVehicle id data => (id.column?.bind w.db.vehicles.find?).bind fun row =>
      (data.apply row).toOption
  | _ => none

/-- The row that a call would store, if no other vehicle has its plate. -/
def Op.asks (w : World) (op : Op) : Option VehicleRow := (op.vehicleRow? w).filter w.db.storable

/-- The call would store a second vehicle with one plate. -/
def Op.Pairs (w : World) (op : Op) : Prop :=
  ∃ row ∈ op.asks w, ∃ v ∈ w.db.vehicles.rows, v.id ≠ row.id ∧ plateKey v.plate = plateKey row.plate

/-- The call would store a second vehicle with one plate, spelled otherwise. -/
def Op.Respells (w : World) (op : Op) : Prop :=
  ∃ row ∈ op.asks w, w.db.vehicles.Respells (·.plate) plateKey row

/-- The operation leaves no two vehicles with one plate: one that would is a conflict, and
changes nothing. -/
structure KeepsPlates (w : World) (now : ℕ) (op : Op) : Prop where
  one : OnePlate (w.perform now op).db
  conflict : op.Pairs w → (∃ message,
    w.attempt now (program op) = .error (.app (.conflict message))) ∧ w.perform now op = w

/-- The vehicles of the service: their plates were accepted and their ids drawn. -/
structure Plated (w : World) : Prop where
  accepted : ∀ v ∈ w.db.vehicles.rows, validatePlate v.plate = true
  drawn : ∀ v ∈ w.db.vehicles.rows, v.id < w.nextId
  one : OnePlate w.db

theorem Plated.start : Plated {} where
  accepted := by
    intro v hv
    cases hv
  drawn := by
    intro v hv
    cases hv
  one := by
    intro v hv
    cases hv

/-! ## One row -/

section Rows

variable {db : Db} {row : VehicleRow}

/-- A plate that was accepted is a text that fits. -/
theorem textFits_of_validatePlate {plate : String} (h : validatePlate plate = true) :
    TextFits plate := by
  intro hnul
  have hkept : nul ∈ normalizePlate plate := by
    unfold normalizePlate
    rw [List.mem_filter, List.mem_flatMap]
    exact ⟨⟨nul, hnul, by decide⟩, by decide⟩
  have hupper : nul.isUpper = false := by decide
  have hdigit : nul.isDigit = false := by decide
  have hhyphen : (nul == '-') = false := by decide
  -- every character that is left is a letter, a digit or the hyphen
  unfold validatePlate at h
  split at h
  · next heq =>
    rw [heq] at hkept
    simp only [List.mem_cons, List.not_mem_nil, or_false] at hkept
    rcases hkept with rfl | rfl | rfl | rfl | rfl | rfl | rfl <;> simp [hupper, hdigit] at h
  · next heq =>
    rw [heq] at hkept
    simp only [List.mem_cons, List.not_mem_nil, or_false] at hkept
    rcases hkept with rfl | rfl | rfl | rfl | rfl | rfl | rfl | rfl <;>
      simp [hupper, hdigit, hhyphen] at h
  · cases h

theorem findVehicleByPlate_read {plate : String} (h : validatePlate plate = true) :
    exec (.findVehicleByPlate plate) db
      = .ok (db.vehicles.rows.find? (fun v => v.plate = plate), []) :=
  if_pos (textFits_of_validatePlate h)

theorem storeVehicle_free (h : db.storable row = true)
    (hfree : ∀ v ∈ db.vehicles.rows, v.plate = row.plate → v.id = row.id) :
    ∃ hc, storeVehicle db row = .ok [.putVehicle row hc] := by
  unfold Db.storable at h
  simp only [Bool.and_eq_true, decide_eq_true_eq] at h
  have hany : db.vehicles.rows.any (fun v => v.plate = row.plate ∧ v.id ≠ row.id) = false :=
    Table.index_free_iff.mpr hfree
  have hcustomer : (db.customers.find? row.customerId).isNone = false := by
    rw [Option.isNone_eq_false_iff]
    exact h.1.2
  refine ⟨h.2, ?_⟩
  unfold storeVehicle
  rw [dif_pos h.2, hany, hcustomer, if_neg Bool.false_ne_true, if_neg Bool.false_ne_true]

theorem storeVehicle_taken {v : VehicleRow} (h : db.storable row = true)
    (hv : v ∈ db.vehicles.rows) (hplate : v.plate = row.plate) (hne : v.id ≠ row.id) :
    storeVehicle db row = .error (.db (.unique ["plate"])) := by
  unfold Db.storable at h
  simp only [Bool.and_eq_true, decide_eq_true_eq] at h
  have hany : db.vehicles.rows.any (fun v => v.plate = row.plate ∧ v.id ≠ row.id) = true := by
    rw [List.any_eq_true]
    exact ⟨v, hv, by simp [hplate, hne]⟩
  unfold storeVehicle
  rw [dif_pos h.2, if_pos hany]

/-- A row whose plate was accepted is stored only if it could be. -/
theorem storable_of_store {ws : List Write} (hplate : validatePlate row.plate = true)
    (h : storeVehicle db row = .ok ws) : db.storable row = true := by
  unfold storeVehicle at h
  unfold Db.storable
  split at h
  · next hc =>
    split at h
    · cases h
    · split at h
      · cases h
      · next hcustomer => simpa [hplate, hc, Option.isSome_iff_ne_none] using hcustomer
  · cases h

end Rows

/-! ## One operation -/

/-- What an operation does to the vehicles. -/
inductive VehicleEffect (w : World) (now : ℕ) (op : Op) : Prop where
  /-- It stores the row it asks for. -/
  | stored (row : VehicleRow) (checked : row.Checks) (n : ℕ) (result : Outcome)
      (asked : op.asks w = some row)
      (free : ∀ v ∈ w.db.vehicles.rows, v.plate = row.plate → v.id = row.id)
      (drawn : row.id < n)
      (done : w.attempt now (program op)
        = .ok (result, ⟨{ w.db with vehicles := w.db.vehicles.put row checked }, n⟩))
  /-- The spelling of its plate is there already. -/
  | refused (row v : VehicleRow) (message : String) (asked : op.asks w = some row)
      (there : v ∈ w.db.vehicles.rows) (taken : v.plate = row.plate)
      (done : w.attempt now (program op) = .error (.app (.conflict message)))
  /-- It asks for no row, and at most removes one. -/
  | unasked (asked : op.asks w = none)
      (fewer : ∀ v ∈ (w.perform now op).db.vehicles.rows, v ∈ w.db.vehicles.rows)

section Effects

variable {w : World} {now : ℕ}

/-- An operation that throws leaves the vehicles. -/
theorem VehicleEffect.thrown {op : Op} {failure : Failure} (asked : op.asks w = none)
    (h : w.attempt now (program op) = .error failure) : VehicleEffect w now op := by
  refine .unasked asked ?_
  rw [World.perform_error h]
  exact fun v hv => hv

/-- An operation that asks for no row that could be stored. -/
theorem asks_of_unstorable {op : Op}
    (h : ∀ row, op.vehicleRow? w = some row → w.db.storable row = false) : op.asks w = none := by
  unfold Op.asks
  rw [Option.filter_eq_none_iff]
  intro row hrow
  simp [h row hrow]

/-- An operation that finds the spelling of its plate, and says so. -/
theorem VehicleEffect.of_found {op : Op} {plate message : String} {v : VehicleRow}
    (hfind : w.db.vehicles.rows.find? (fun v => v.plate = plate) = some v)
    (hmade : ∀ row, op.vehicleRow? w = some row → row.plate = plate)
    (h : w.attempt now (program op) = .error (.app (.conflict message))) :
    VehicleEffect w now op := by
  have hv : v.plate = plate := by simpa using List.find?_some hfind
  cases hasks : op.asks w with
  | none => exact .thrown hasks h
  | some row =>
      have hrow := hmade row (Option.filter_eq_some_iff.mp hasks).1
      exact .refused row v message hasks (List.mem_of_find?_eq_some hfind) (hv.trans hrow.symm) h

/-- An operation that ends with the storing of a row whose plate was accepted. -/
theorem VehicleEffect.of_store {op : Op} {row : VehicleRow} {n : ℕ}
    (hrow : op.vehicleRow? w = some row) (hplate : validatePlate row.plate = true)
    (hdrawn : row.id < n)
    (hattempt : w.attempt now (program op) = match storeVehicle w.db row with
      | .error failure => .error (translatingUniqueViolation failure)
      | .ok ws => .ok (.vehicle row.toEntity, ⟨postgres.applyAll w.db ws, n⟩)) :
    VehicleEffect w now op := by
  cases hstorable : w.db.storable row with
  | false =>
      have hasks : op.asks w = none := by
        apply asks_of_unstorable
        intro row' hrow'
        rw [hrow, Option.some.injEq] at hrow'
        rw [← hrow', hstorable]
      -- a row that could not be stored is refused, whatever its plate
      cases hstore : storeVehicle w.db row with
      | error failure =>
          rw [hstore] at hattempt
          exact .thrown hasks hattempt
      | ok ws =>
          rw [storable_of_store hplate hstore] at hstorable
          cases hstorable
  | true =>
      have hasks : op.asks w = some row := by
        unfold Op.asks
        rw [hrow, Option.filter_some, if_pos hstorable]
      by_cases hfree : ∀ v ∈ w.db.vehicles.rows, v.plate = row.plate → v.id = row.id
      · obtain ⟨hc, hstore⟩ := storeVehicle_free hstorable hfree
        rw [hstore] at hattempt
        exact .stored row hc n _ hasks hfree hdrawn hattempt
      · -- the unique index refuses it
        push Not at hfree
        obtain ⟨v, hv, hsame, hne⟩ := hfree
        rw [storeVehicle_taken hstorable hv hsame hne] at hattempt
        exact .refused row v _ hasks hv hsame hattempt

/-- `CreateVehicle`: the plate is checked, looked up in its spelling, and stored. -/
theorem World.attempt_createVehicle (w : World) (now : ℕ) (input : CreateVehicleInput) :
    w.attempt now (program (.createVehicle input)) =
      if !validatePlate input.plate then .error (.app (.validation "Invalid plate format"))
      else match w.db.vehicles.rows.find? (fun v => v.plate = input.plate) with
        | some _ => .error (.app (.conflict "Plate already registered"))
        | none =>
            match exec (.insertVehicle w.nextId input.customerId input.plate input.brand input.model
              input.year) w.db with
            | .error failure => .error (translatingUniqueViolation failure)
            | .ok (row, ws) =>
                .ok (.vehicle row.toEntity, ⟨postgres.applyAll w.db ws, w.nextId + 1⟩) := by
  change w.attempt now (returning (CreateVehicle.execute input) .vehicle) = _
  unfold returning CreateVehicle.execute
  cases hplate : validatePlate input.plate with
  | false => rfl
  | true =>
      simp only [Bool.not_true, Bool.false_eq_true, if_false]
      refine (World.attempt_read (findVehicleByPlate_read hplate) now _ _).trans ?_
      cases w.db.vehicles.rows.find? (fun v => v.plate = input.plate) with
      | some v => rfl
      | none =>
          refine (World.attempt_draw w now _).trans ?_
          refine (World.attempt_stmt ⟨w.db, w.nextId + 1⟩ now (.insertVehicle w.nextId
            input.customerId input.plate input.brand input.model input.year)
            translatingUniqueViolation fun row => Outcome.vehicle (VehicleRow.toEntity row)).trans ?_
          cases exec (.insertVehicle w.nextId input.customerId input.plate input.brand input.model
            input.year) w.db with
          | error failure => rfl
          | ok p => rfl

/-- `CreateVehicle` asks for a new row. -/
theorem createVehicle_effect (h : Plated w) (input : CreateVehicleInput) :
    VehicleEffect w now (.createVehicle input) := by
  have hattempt := w.attempt_createVehicle now input
  have hmade : ∀ row, Op.vehicleRow? w (.createVehicle input) = some row →
      row.plate = input.plate := by
    intro row hrow
    obtain ⟨customer, -, rfl⟩ := Option.map_eq_some_iff.mp hrow
    rfl
  cases hplate : validatePlate input.plate with
  | false =>
      rw [hplate] at hattempt
      refine .thrown (asks_of_unstorable ?_) hattempt
      intro row hrow
      simp [Db.storable, hmade row hrow, hplate]
  | true =>
      rw [hplate] at hattempt
      cases hfind : w.db.vehicles.rows.find? (fun v => v.plate = input.plate) with
      | some v =>
          rw [hfind] at hattempt
          -- `findByPlate` finds the very spelling
          exact .of_found hfind hmade hattempt
      | none =>
          rw [hfind] at hattempt
          simp only [exec] at hattempt
          cases hcol : input.customerId.stored? with
          | none =>
              rw [hcol] at hattempt
              refine .thrown ?_ hattempt
              simp [Op.asks, Op.vehicleRow?, hcol]
          | some customer =>
              -- the id is new, so only the checks of the row are left
              have hnew : w.db.vehicles.find? w.nextId = none := by
                by_contra hold
                obtain ⟨v, hv⟩ := Option.ne_none_iff_exists'.mp hold
                have hlt := h.drawn v (Table.mem_of_find? hv)
                exact hlt.ne (Table.key_of_find? hv)
              simp only [hcol, hnew, Option.isSome_none, Bool.false_eq_true, Bool.not_true,
                if_false] at hattempt
              have hrow : Op.vehicleRow? w (.createVehicle input) = some ⟨w.nextId, customer,
                  input.plate, input.brand, input.model, input.year⟩ := by
                simp [Op.vehicleRow?, hcol]
              refine .of_store hrow hplate (Nat.lt_succ_self w.nextId) (hattempt.trans ?_)
              cases storeVehicle w.db ⟨w.nextId, customer, input.plate, input.brand, input.model,
                input.year⟩ with
              | error failure => rfl
              | ok ws => rfl

/-- What `UpdateVehicle` comes to, once the plate is checked. -/
def World.patch (w : World) (id : IdText) (data : VehiclePatch) : Except Failure (Outcome × World) :=
  match id.column?.bind w.db.vehicles.find? with
  | none => .error (.app (.notFound "Vehicle"))
  | some row =>
      match exec (.updateVehicle row.id data) w.db with
      | .error failure => .error (translatingUniqueViolation failure)
      | .ok (row', ws) => .ok (.vehicle row'.toEntity, ⟨postgres.applyAll w.db ws, w.nextId⟩)

theorem World.attempt_patch (id : IdText) (data : VehiclePatch) :
    w.attempt now (returning (VehicleRepository.update id data >>= fun updated =>
        match updated with
        | none => throwApp (.notFound "Vehicle")
        | some vehicle => .pure vehicle) .vehicle) = w.patch id data := by
  unfold returning VehicleRepository.update World.patch
  cases hcol : id.column? with
  | none => rfl
  | some key =>
      refine (World.attempt_read (r := w.db.vehicles.find? key) rfl now _ _).trans ?_
      rw [Option.bind_some]
      cases hrow : w.db.vehicles.find? key with
      | none => rfl
      | some row =>
          have hid : row.id = key := Table.key_of_find? hrow
          refine (World.attempt_stmt w now (.updateVehicle key data) translatingUniqueViolation
            fun row => Outcome.vehicle (VehicleRow.toEntity row)).trans ?_
          rw [← hid]
          dsimp only
          cases exec (.updateVehicle row.id data) w.db with
          | error failure => rfl
          | ok p => rfl

/-- A patch leaves the id, and the plate unless it has one. -/
theorem VehiclePatch.apply_ok {data : VehiclePatch} {row row' : VehicleRow}
    (h : data.apply row = .ok row') : row'.id = row.id ∧ row'.plate = data.plate.getD row.plate := by
  unfold VehiclePatch.apply at h
  split at h
  · cases h
  · cases h
    exact ⟨rfl, rfl⟩
  · cases h
    exact ⟨rfl, rfl⟩

theorem vehicleRow_update {id : IdText} {data : VehiclePatch} {row : VehicleRow} :
    Op.vehicleRow? w (.updateVehicle id data) = some row ↔
      ∃ old, id.column?.bind w.db.vehicles.find? = some old ∧ data.apply old = .ok row := by
  unfold Op.vehicleRow?
  rw [Option.bind_eq_some_iff]
  refine exists_congr fun old => and_congr_right fun _ => ?_
  cases data.apply old <;> simp [Except.toOption]

/-- `UpdateVehicle`, once the plate is accepted. -/
theorem VehicleEffect.of_patch (h : Plated w) {id : IdText} {data : VehiclePatch}
    (hplate : ∀ plate, data.plate = some plate → validatePlate plate = true)
    (hattempt : w.attempt now (program (.updateVehicle id data)) = w.patch id data) :
    VehicleEffect w now (.updateVehicle id data) := by
  unfold World.patch at hattempt
  cases hfind : id.column?.bind w.db.vehicles.find? with
  | none =>
      rw [hfind] at hattempt
      refine .thrown ?_ hattempt
      simp [Op.asks, Op.vehicleRow?, hfind]
  | some row =>
      obtain ⟨key, -, hkey⟩ := Option.bind_eq_some_iff.mp hfind
      have hmem := Table.mem_of_find? hkey
      have hid : w.db.vehicles.find? row.id = some row := Table.find?_of_mem hmem
      simp only [hfind, exec, hid] at hattempt
      cases hpatch : data.apply row with
      | error failure =>
          simp only [hpatch] at hattempt
          refine .thrown ?_ hattempt
          simp [Op.asks, Op.vehicleRow?, hfind, hpatch, Except.toOption]
      | ok row' =>
          have hrow := vehicleRow_update.mpr ⟨row, hfind, hpatch⟩
          obtain ⟨hid, hsame⟩ := VehiclePatch.apply_ok hpatch
          -- the plate is a new one, which was checked, or the one that is stored
          have haccepted : validatePlate row'.plate = true := by
            rw [hsame]
            cases hdata : data.plate with
            | none => exact h.accepted row hmem
            | some plate => exact hplate plate hdata
          have hdrawn : row'.id < w.nextId := by
            rw [hid]
            exact h.drawn row hmem
          simp only [hpatch, Bind.bind, Except.bind] at hattempt
          refine .of_store hrow haccepted hdrawn (hattempt.trans ?_)
          cases storeVehicle w.db row' with
          | error failure => rfl
          | ok ws => rfl

/-- `UpdateVehicle`: a new plate is checked, and looked up in its spelling. -/
theorem World.attempt_updateVehicle (w : World) (now : ℕ) (id : IdText) (data : VehiclePatch) :
    w.attempt now (program (.updateVehicle id data)) =
      match data.plate with
      | none => w.patch id data
      | some plate =>
          if !validatePlate plate then .error (.app (.validation "Invalid plate format"))
          else if ((w.db.vehicles.rows.find? (fun v => v.plate = plate)).map
              VehicleRow.toEntity).any (fun vehicle => vehicle.id ≠ id) then
            .error (.app (.conflict "Plate already registered"))
          else w.patch id data := by
  change w.attempt now (returning (UpdateVehicle.execute id data) .vehicle) = _
  unfold UpdateVehicle.execute
  cases data.plate with
  | none => exact World.attempt_patch id data
  | some plate =>
      simp only [UpdateVehicle.checkPlate]
      cases hplate : validatePlate plate with
      | false => rfl
      | true =>
          simp only [Bool.not_true, Bool.false_eq_true, if_false]
          refine (World.attempt_read (findVehicleByPlate_read hplate) now _ _).trans ?_
          dsimp only [Prog.bind]
          split
          · rfl
          · exact World.attempt_patch id data

/-- `UpdateVehicle` asks for the row that is there, patched. -/
theorem updateVehicle_effect (h : Plated w) (id : IdText) (data : VehiclePatch) :
    VehicleEffect w now (.updateVehicle id data) := by
  have hattempt := w.attempt_updateVehicle now id data
  cases hdata : data.plate with
  | none =>
      rw [hdata] at hattempt
      refine .of_patch h ?_ hattempt
      intro plate hplate
      rw [hdata] at hplate
      cases hplate
  | some plate =>
      rw [hdata] at hattempt
      have hmade : ∀ row, Op.vehicleRow? w (.updateVehicle id data) = some row →
          row.plate = plate := by
        intro row hrow
        obtain ⟨old, -, hpatch⟩ := vehicleRow_update.mp hrow
        rw [(VehiclePatch.apply_ok hpatch).2, hdata, Option.getD_some]
      cases hvalid : validatePlate plate with
      | false =>
          simp only [hvalid, Bool.not_false, if_true] at hattempt
          refine .thrown (asks_of_unstorable ?_) hattempt
          intro row hrow
          simp [Db.storable, hmade row hrow, hvalid]
      | true =>
          simp only [hvalid, Bool.not_true, Bool.false_eq_true, if_false] at hattempt
          split at hattempt
          · next hother =>
            -- another vehicle has the very spelling, or this one, and the id is spelled otherwise
            obtain ⟨vehicle, hfound, -⟩ := (Option.any_eq_true _ _).mp hother
            obtain ⟨v, hfind, -⟩ := Option.map_eq_some_iff.mp hfound
            exact .of_found hfind hmade hattempt
          · refine .of_patch h ?_ hattempt
            intro plate' hplate'
            rw [hdata, Option.some.injEq] at hplate'
            rw [← hplate']
            exact hvalid

/-! ### The other operations -/

/-- The statement stores no vehicle. -/
def Stmt.storesNoVehicle : Stmt → Bool
  | .insertVehicle .. | .updateVehicle .. => false
  | _ => true

/-- The write stores no vehicle. -/
def Write.storesNoVehicle : Write → Bool
  | .putVehicle .. => false
  | _ => true

theorem exec_storesNoVehicle {s : Stmt} {v : Db} {r : s.Resp} {ws : List Write}
    (hs : s.storesNoVehicle = true) (h : exec s v = .ok (r, ws)) :
    ∀ write ∈ ws, write.storesNoVehicle = true := by
  intro write hwrite
  have hmakes := exec_makes s v r ws h write hwrite
  cases write with
  | putVehicle row hc =>
      -- of the statements on vehicles only the two that store a row write one
      cases s with
      | insertVehicle _ _ _ _ _ _ | updateVehicle _ _ => cases hs
      | _ => cases hmakes
  | _ => rfl

/-- Writes that store no vehicle leave no more than there were. -/
theorem applyAll_fewer {ws : List Write} (h : ∀ write ∈ ws, write.storesNoVehicle = true) (db : Db) :
    ∀ v ∈ (postgres.applyAll db ws).vehicles.rows, v ∈ db.vehicles.rows := by
  induction ws generalizing db with
  | nil => exact fun v hv => hv
  | cons write ws ih =>
      intro v hv
      have hrest := ih (fun w hw => h w (List.mem_cons_of_mem _ hw)) _ v hv
      have hwrite := h write List.mem_cons_self
      cases write with
      | putVehicle row hc => cases hwrite
      | eraseVehicle id => exact List.mem_of_mem_filter hrest
      | _ => exact hrest

theorem program_storesNoVehicle {op : Op} (hcreate : ∀ input, op ≠ .createVehicle input)
    (hupdate : ∀ id data, op ≠ .updateVehicle id data) :
    (program op).Issues fun s => s.storesNoVehicle = true := by
  cases hop : op.onVehicles with
  | false =>
      refine (program_spares hop).mono ?_
      intro s hs
      cases s with
      | insertVehicle _ _ _ _ _ _ | updateVehicle _ _ => exact hs.elim
      | _ => rfl
  | true =>
      cases op with
      | createVehicle input => exact absurd rfl (hcreate input)
      | updateVehicle id data => exact absurd rfl (hupdate id data)
      | deleteVehicle id =>
          refine ((DeleteVehicle.execute_deletes id).mono ?_).bind fun _ => trivial
          rintro s (⟨v, rfl⟩ | ⟨v, rfl⟩)
          · rfl
          · rfl
      | _ => cases hop

theorem Op.asks_eq_none {op : Op} (hcreate : ∀ input, op ≠ .createVehicle input)
    (hupdate : ∀ id data, op ≠ .updateVehicle id data) : op.asks w = none := by
  cases op with
  | createVehicle input => exact absurd rfl (hcreate input)
  | updateVehicle id data => exact absurd rfl (hupdate id data)
  | _ => rfl

/-- An operation that neither creates nor updates a vehicle. -/
theorem otherOp_effect {op : Op} (hcreate : ∀ input, op ≠ .createVehicle input)
    (hupdate : ∀ id data, op ≠ .updateVehicle id data) : VehicleEffect w now op := by
  refine .unasked (Op.asks_eq_none hcreate hupdate) ?_
  unfold World.perform World.attempt
  cases hrun : (program op).run postgres now w.db w.nextId {} with
  | error failure => exact fun v hv => hv
  | ok fin =>
      have hens : (program op).Ensures postgres Alone AnyStep
          (fun _ tx _ => ∀ write ∈ tx.writes, write.storesNoVehicle = true) {} w.db := by
        refine (program_storesNoVehicle hcreate hupdate).ensures
          (I := fun tx : ShopTx => ∀ write ∈ tx.writes, write.storesNoVehicle = true) ?_ ?_
        · intro s v r ws tx hs hexec htx write hwrite
          rw [Tx.record_writes] at hwrite
          rcases List.mem_append.mp hwrite with hheld | hnew
          · exact htx write hheld
          · exact exec_storesNoVehicle hs hexec write hnew
        · intro write hwrite
          cases hwrite
      have hwrites := run_ensures (fun _ _ => rfl) (fun _ _ _ => trivial) hens hrun
      exact applyAll_fewer hwrites w.db

/-- Everything an operation can do to the vehicles. -/
theorem vehicle_effect (h : Plated w) (now : ℕ) (op : Op) : VehicleEffect w now op := by
  cases op with
  | createVehicle input => exact createVehicle_effect h input
  | updateVehicle id data => exact updateVehicle_effect h id data
  | _ =>
      apply otherOp_effect
      · intro input heq
        cases heq
      · intro id data heq
        cases heq

/-! ### One step -/

theorem Op.respells_iff {op : Op} {row : VehicleRow} (h : op.asks w = some row) :
    op.Respells w ↔ w.db.vehicles.Respells (·.plate) plateKey row := by
  unfold Op.Respells
  rw [h]
  constructor
  · rintro ⟨row', hrow', hrespells⟩
    cases hrow'
    exact hrespells
  · intro hrespells
    exact ⟨row, rfl, hrespells⟩

/-- The step: an operation leaves no two vehicles with one plate, unless it respells one. -/
theorem Plated.keepsPlates_iff (h : Plated w) (now : ℕ) (op : Op) :
    KeepsPlates w now op ↔ ¬op.Respells w := by
  cases vehicle_effect h now op with
  | stored row hc n result asked free drawn done =>
      have hput := Table.denotesOnce_put_iff h.one hc free
      have hnext : OnePlate (w.perform now op).db ↔ ¬op.Respells w := by
        rw [World.perform_ok done, Op.respells_iff asked]
        exact hput
      constructor
      · intro hkeeps
        exact hnext.mp hkeeps.one
      · intro hno
        refine ⟨hnext.mpr hno, ?_⟩
        rintro ⟨row', hrow', v, hv, hne, hkey⟩
        -- the spelling is free, so the call would respell the plate
        rw [asked, Option.mem_some_iff] at hrow'
        subst hrow'
        exact absurd ((Op.respells_iff asked).mpr ⟨v, hv, hne, hkey, fun hsame =>
          hne (free v hv hsame)⟩) hno
  | refused row v message asked there taken done =>
      have hsame := World.perform_error done
      constructor
      · intro _
        rw [Op.respells_iff asked]
        -- the vehicle with the spelling is the only one with the plate
        exact h.one.not_respells there taken
      · intro _
        refine ⟨?_, fun _ => ⟨⟨message, done⟩, hsame⟩⟩
        rw [hsame]
        exact h.one
  | unasked asked fewer =>
      constructor
      · rintro _ ⟨row, hrow, -⟩
        rw [asked] at hrow
        cases hrow
      · intro _
        refine ⟨Table.Unique.of_subset h.one fewer, ?_⟩
        rintro ⟨row, hrow, -⟩
        rw [asked] at hrow
        cases hrow

/-- A step that leaves no two vehicles with one plate leaves the vehicles as they should be. -/
theorem Plated.next (h : Plated w) {op : Op} (hkeeps : KeepsPlates w now op) :
    Plated (w.perform now op) := by
  cases vehicle_effect h now op with
  | stored row hc n result asked free drawn done =>
      have hone := hkeeps.one
      have hle := World.le_nextId_of_attempt done
      rw [World.perform_ok done] at hone ⊢
      have hstorable := (Option.filter_eq_some_iff.mp asked).2
      simp only [Db.storable, Bool.and_eq_true] at hstorable
      refine ⟨?_, ?_, hone⟩
      · intro v hv
        rcases (Table.mem_put w.db.vehicles hc).mp hv with rfl | ⟨hold, -⟩
        · exact hstorable.1.1
        · exact h.accepted v hold
      · intro v hv
        rcases (Table.mem_put w.db.vehicles hc).mp hv with rfl | ⟨hold, -⟩
        · exact drawn
        · exact (h.drawn v hold).trans_le hle
  | refused row v message asked there taken done =>
      rw [World.perform_error done]
      exact h
  | unasked asked fewer =>
      refine ⟨?_, ?_, hkeeps.one⟩
      · intro v hv
        exact h.accepted v (fewer v hv)
      · intro v hv
        exact (h.drawn v (fewer v hv)).trans_le (w.le_nextId_perform now op)

end Effects

/-! ## Any operations -/

/-- Whatever runs from the empty service, every operation leaves no two vehicles with one plate, and
refuses to make a second one, exactly when no call respells the plate of another vehicle. -/
theorem one_plate_iff (ops : List (ℕ × Op)) :
    (∀ before call after, ops = before ++ call :: after →
      KeepsPlates (World.performAll {} before) call.1 call.2) ↔
    ∀ before call after, ops = before ++ call :: after →
      ¬call.2.Respells (World.performAll {} before) := by
  have hstep : ∀ (w : World) (call : ℕ × Op), Plated w →
      (KeepsPlates w call.1 call.2 ↔ ¬call.2.Respells w) :=
    fun _ call h => h.keepsPlates_iff call.1 call.2
  have hnext : ∀ (w : World) (call : ℕ × Op), Plated w → KeepsPlates w call.1 call.2 →
      Plated (w.perform call.1 call.2) :=
    fun _ _ h hkeeps => h.next hkeeps
  exact forall_steps_iff hstep hnext Plated.start ops

/-- A customer, and the plate of the customer's vehicle with the hyphen and without. -/
def respelledCalls : List (ℕ × Op) :=
  [(0, .createCustomer ⟨"Ana", "529.982.247-25", .cpf, "ana@mail", "11987654321"⟩),
    (1, .createVehicle ⟨Uuid.text 0, "ABC-1234", "VW", "Gol", 2020⟩),
    (2, .createVehicle ⟨Uuid.text 0, "ABC1234", "VW", "Gol", 2020⟩)]

/-- The plate without its hyphen is stored beside the same plate with it. -/
theorem respelled_plate_stored :
    (World.performAll {} respelledCalls).db.vehicles.rows.map (fun v => (v.id, v.plate))
        = [(1, "ABC-1234"), (2, "ABC1234")] ∧
      ¬∀ before call after, respelledCalls = before ++ call :: after →
        KeepsPlates (World.performAll {} before) call.1 call.2 := by
  have hrows : (World.performAll {} respelledCalls).db.vehicles.rows
      = [⟨1, 0, "ABC-1234", "VW", "Gol", 2020⟩, ⟨2, 0, "ABC1234", "VW", "Gol", 2020⟩] := by
    decide +kernel
  constructor
  · rw [hrows]
    rfl
  · intro hall
    have hone := (hall (respelledCalls.take 2) _ [] rfl).one
    change OnePlate (World.performAll {} respelledCalls).db at hone
    unfold OnePlate Table.DenotesOnce Table.Unique at hone
    rw [hrows] at hone
    -- one key for both rows, so one id
    have hid := hone _ List.mem_cons_self _ (List.mem_cons_of_mem _ List.mem_cons_self) (by decide)
    cases hid

end CarRepairShop
