import CarRepairShop.Lib.UniqueColumn
import CarRepairShop.Operations
import CarRepairShop.Queries
import CarRepairShop.Serial

/-! # The registry of customers

`CreateCustomer`, `UpdateCustomer` and `DeleteCustomer` in any sequence, and the
two lookups by tax id. A tax id is stored as its digits, so a document is one row
whatever its formatting, and the row stays when the customer is deleted.

`LookupCustomerByCpf` looks up the digits too. `GetCustomerByTaxId` looks up the
string it is given, although its route documents `formatted or raw`:
`one_document_iff` says that this is all that goes wrong, but for texts that
PostgreSQL refuses.
-/

namespace CarRepairShop

open Lib Txn Prog

/-- A call on the registry of customers. -/
inductive CustomerCall where
  | create (input : CreateCustomerInput)
  | update (id : IdText) (data : CustomerPatch)
  | delete (id : IdText)

def CustomerCall.op : CustomerCall → Op
  | .create input => .createCustomer input
  | .update id data => .updateCustomer id data
  | .delete id => .deleteCustomer id

/-- The checks of `CreateCustomer`. -/
def CreateCustomerInput.accepted (input : CreateCustomerInput) : Bool :=
  validatePhone input.phone && validateTaxId (String.ofList (onlyDigits input.taxId)) input.taxType

/-- The texts of a new customer fit their columns, but for the tax id, of which the digits
are stored. -/
structure CreateCustomerInput.Fits (input : CreateCustomerInput) : Prop where
  name : TextFits input.name
  email : TextFits input.email
  phone : TextFits input.phone

instance (input : CreateCustomerInput) : Decidable input.Fits :=
  decidable_of_iff (TextFits input.name ∧ TextFits input.email ∧ TextFits input.phone)
    ⟨fun ⟨a, b, c⟩ => ⟨a, b, c⟩, fun ⟨a, b, c⟩ => ⟨a, b, c⟩⟩

/-- The checks of `UpdateCustomer`. -/
def CustomerPatch.accepted (data : CustomerPatch) : Bool :=
  !(data.taxId.isSome || data.taxType.isSome) && !data.phone.any fun phone => !validatePhone phone

/-- The texts of a patch fit their columns. -/
structure CustomerPatch.Fits (data : CustomerPatch) : Prop where
  name : ∀ name ∈ data.name, TextFits name
  email : ∀ email ∈ data.email, TextFits email
  phone : ∀ phone ∈ data.phone, TextFits phone

instance (data : CustomerPatch) : Decidable data.Fits :=
  decidable_of_iff ((∀ name ∈ data.name, TextFits name) ∧
      (∀ email ∈ data.email, TextFits email) ∧ ∀ phone ∈ data.phone, TextFits phone)
    ⟨fun ⟨a, b, c⟩ => ⟨a, b, c⟩, fun ⟨a, b, c⟩ => ⟨a, b, c⟩⟩

/-- The call deletes customer `c`, if it is there: `UpdateCustomer` takes a `deletedAt`
as well. -/
def CustomerCall.deletes (c : Uuid) : CustomerCall → Bool
  | .create _ => false
  | .update id data =>
      decide (id.column? = some c) && (data.accepted && decide data.Fits && data.deletedAt.isSome)
  | .delete id => decide (id.column? = some c)

/-- The calls in order, each with the time it runs at. -/
def World.callAll (w : World) (calls : List (ℕ × CustomerCall)) : World :=
  w.performAll (calls.map fun call => (call.1, call.2.op))

/-! ## What is stored -/

/-- Every tax id is digits only, valid for its type, and on one row. -/
structure Registered (db : Db) : Prop where
  digits : ∀ row ∈ db.customers.rows, onlyDigits row.taxId = row.taxId.toList
  valid : ∀ row ∈ db.customers.rows, validateTaxId row.taxId row.taxType = true
  unique : ∀ row ∈ db.customers.rows, ∀ row' ∈ db.customers.rows, row.taxId = row'.taxId →
    row.id = row'.id

theorem Registered.start : Registered {} where
  digits := by
    intro row hrow
    cases hrow
  valid := by
    intro row hrow
    cases hrow
  unique := by
    intro row hrow
    cases hrow

/-- The tables with this row of a customer. -/
def Db.setCustomer (db : Db) (row : CustomerRow) (hc : row.Checks) : Db :=
  { db with customers := db.customers.put row hc }

theorem Db.setCustomer_find? (db : Db) (row : CustomerRow) (hc : row.Checks) (c : Uuid) :
    (db.setCustomer row hc).customers.find? c
      = if row.id = c then some row else db.customers.find? c :=
  Table.find?_put _ row hc c

section Rows

variable {db : Db}

/-- A row whose tax id nobody else has can be stored. -/
theorem Registered.setCustomer (h : Registered db) {row : CustomerRow} (hc : row.Checks)
    (hdigits : onlyDigits row.taxId = row.taxId.toList)
    (hvalid : validateTaxId row.taxId row.taxType = true)
    (hfree : ∀ r ∈ db.customers.rows, r.taxId = row.taxId → r.id = row.id) :
    Registered (db.setCustomer row hc) where
  digits := by
    intro r hr
    rcases mem_putRow hr with rfl | hold
    · exact hdigits
    · exact h.digits r hold
  valid := by
    intro r hr
    rcases mem_putRow hr with rfl | hold
    · exact hvalid
    · exact h.valid r hold
  unique := (Table.unique_put_iff h.unique hc).mpr hfree

theorem storeCustomer_free {row : CustomerRow} (hc : row.Checks)
    (hfree : ∀ r ∈ db.customers.rows, r.taxId = row.taxId → r.id = row.id) :
    storeCustomer db row = .ok [.putCustomer row hc] := by
  have hany : db.customers.rows.any (fun c => c.taxId = row.taxId ∧ c.id ≠ row.id) = false :=
    Table.index_free_iff.mpr hfree
  unfold storeCustomer
  rw [dif_pos hc, hany, if_neg Bool.false_ne_true]

theorem storeCustomer_taken {row r : CustomerRow} (hc : row.Checks)
    (hr : r ∈ db.customers.rows) (htax : r.taxId = row.taxId) (hne : r.id ≠ row.id) :
    storeCustomer db row = .error (.db (.unique ["taxId"])) := by
  have hany : db.customers.rows.any (fun c => c.taxId = row.taxId ∧ c.id ≠ row.id) = true := by
    rw [List.any_eq_true]
    exact ⟨r, hr, by simp [htax, hne]⟩
  unfold storeCustomer
  rw [dif_pos hc, if_pos hany]

theorem storeCustomer_unfit {row : CustomerRow} (hc : ¬row.Checks) :
    storeCustomer db row = .error (.db .invalidText) :=
  dif_neg hc

/-- The rows found under a tax id are one row. -/
theorem Registered.row_eq (h : Registered db) {row row' : CustomerRow}
    (hrow : row ∈ db.customers.rows) (hrow' : row' ∈ db.customers.rows)
    (htax : row.taxId = row'.taxId) : row = row' := by
  have hunique : db.customers.Unique fun r => r.taxId := h.unique
  exact hunique.row_eq hrow hrow' htax

end Rows

/-! ## The repository -/

/-- The row of a customer who is not deleted, under any spelling of the id. -/
def Db.active? (db : Db) (id : IdText) : Option CustomerRow :=
  id.column?.bind fun c => (db.customers.find? c).filter fun row => row.deletedAt.isNone

theorem Db.active?_eq_some {db : Db} {id : IdText} {row : CustomerRow} :
    db.active? id = some row ↔
      ∃ c, id.column? = some c ∧ db.customers.find? c = some row ∧ row.deletedAt = none := by
  unfold Db.active?
  simp [Option.bind_eq_some_iff, Option.filter_eq_some_iff]

section Repository

variable {v : Db}

/-- A patched row has texts that fit if the texts of the patch do. -/
theorem CustomerPatch.apply_checks {data : CustomerPatch} {row : CustomerRow}
    (hid : data.taxId = none) (hrow : row.Checks) (updatedAt : ℕ) :
    (data.apply updatedAt row).Checks ↔ data.Fits := by
  have hgetD : ∀ {text : Option String} {stored : String}, TextFits stored →
      (TextFits (text.getD stored) ↔ ∀ t ∈ text, TextFits t) := by
    intro text stored hstored
    cases text with
    | none => simpa using hstored
    | some t => simp
  constructor
  · intro h
    exact ⟨(hgetD hrow.nameFits).mp h.nameFits, (hgetD hrow.emailFits).mp h.emailFits,
      (hgetD hrow.phoneFits).mp h.phoneFits⟩
  · intro h
    refine ⟨(hgetD hrow.nameFits).mpr h.name, ?_, (hgetD hrow.emailFits).mpr h.email,
      (hgetD hrow.phoneFits).mpr h.phone⟩
    simpa [CustomerPatch.apply, hid] using hrow.taxIdFits

/-- A patch that leaves the document alone can be stored, if its texts fit. -/
theorem Registered.update_stored (h : Registered v) {c : Uuid} {row : CustomerRow}
    (hrow : v.customers.find? c = some row) {data : CustomerPatch} (hid : data.taxId = none)
    (updatedAt : ℕ) (hc : (data.apply updatedAt row).Checks) :
    exec (.updateCustomer c data updatedAt) v
      = .ok (data.apply updatedAt row, [.putCustomer (data.apply updatedAt row) hc]) := by
  have htax : (data.apply updatedAt row).taxId = row.taxId := by
    simp [CustomerPatch.apply, hid]
  have hfree : ∀ r ∈ v.customers.rows, r.taxId = (data.apply updatedAt row).taxId →
      r.id = (data.apply updatedAt row).id := by
    intro r hr heq
    rw [htax] at heq
    exact h.unique r hr row (Table.mem_of_find? hrow) heq
  simp only [exec, hrow, storeCustomer_free hc hfree]
  rfl

/-- `update` of a document's row: the customer is there and active, and only a text that
does not fit refuses it. -/
theorem CustomerRepository.update_ends (h : Registered v) (id : IdText) {data : CustomerPatch}
    (hid : data.taxId = none) :
    (CustomerRepository.update id data).Ends postgres
      (fun updated v' => (updated = none ∧ v' = v ∧ v.active? id = none) ∨
        ∃ row t, ∃ hc : (data.apply t row).Checks, v.active? id = some row ∧
          updated = some (data.apply t row).toEntity ∧ v' = v.setCustomer (data.apply t row) hc)
      (fun _ => ¬data.Fits) v := by
  unfold CustomerRepository.update Db.active?
  cases hcol : id.column? with
  | none => exact .inl ⟨rfl, rfl, rfl⟩
  | some c =>
      refine ends_sql.mpr ?_
      simp only [exec, Option.bind_some]
      cases hactive : (v.customers.find? c).filter (fun row => row.deletedAt.isNone) with
      | none => exact .inl ⟨rfl, rfl, rfl⟩
      | some row =>
          have hrow := (Option.filter_eq_some_iff.mp hactive).1
          have hstored : row.Checks := Table.check_of_find? hrow
          intro t
          refine ends_sqlOr.mpr ?_
          rw [show postgres.applyAll v [] = v from rfl]
          by_cases hfits : data.Fits
          · have hc := (CustomerPatch.apply_checks hid hstored t).mpr hfits
            rw [h.update_stored hrow hid t hc]
            exact .inr ⟨row, t, hc, rfl, rfl, rfl⟩
          · have hc : ¬(data.apply t row).Checks := by
              rwa [CustomerPatch.apply_checks hid hstored]
            simp only [exec, hrow, storeCustomer_unfit hc]
            exact hfits

theorem CustomerRepository.softDelete_ends (h : Registered v) (id : IdText) :
    (CustomerRepository.softDelete id).Ends postgres
      (fun deleted v' => (deleted = false ∧ v' = v ∧ v.active? id = none) ∨
        ∃ row t, ∃ hc : (CustomerPatch.apply { deletedAt := some t } t row).Checks,
          v.active? id = some row ∧ deleted = true ∧
          v' = v.setCustomer (CustomerPatch.apply { deletedAt := some t } t row) hc)
      (fun _ => False) v := by
  unfold CustomerRepository.softDelete Db.active?
  cases hcol : id.column? with
  | none => exact .inl ⟨rfl, rfl, rfl⟩
  | some c =>
      refine ends_sql.mpr ?_
      simp only [exec, Option.bind_some]
      cases hactive : (v.customers.find? c).filter (fun row => row.deletedAt.isNone) with
      | none => exact .inl ⟨rfl, rfl, rfl⟩
      | some row =>
          have hrow := (Option.filter_eq_some_iff.mp hactive).1
          intro t
          refine ends_sql.mpr ?_
          have hc : (CustomerPatch.apply { deletedAt := some t } t row).Checks :=
            (CustomerPatch.apply_checks rfl (Table.check_of_find? hrow) t).mpr
              ⟨by simp, by simp, by simp⟩
          rw [show postgres.applyAll v [] = v from rfl, h.update_stored hrow rfl t hc]
          exact .inr ⟨row, t, hc, rfl, rfl, rfl⟩

/-- `create`: a new row, or an id or a tax id that is taken, or a text that does not fit. -/
theorem CustomerRepository.create_ends (input : CreateCustomerInput) {taxId : String}
    (htaxId : TextFits taxId) :
    (CustomerRepository.create input.name taxId input.taxType input.email input.phone).Ends postgres
      (fun customer v' => input.Fits ∧ ∃ row, ∃ hc : row.Checks,
        v.customers.find? row.id = none ∧
        (∀ r ∈ v.customers.rows, r.taxId = taxId → r.id = row.id) ∧ row.taxId = taxId ∧
        row.taxType = input.taxType ∧ row.deletedAt = none ∧ customer = row.toEntity ∧
        v' = v.setCustomer row hc)
      (fun failure => if input.Fits then ∃ message, failure = .app (.conflict message)
        else failure = .db .invalidText) v := by
  unfold CustomerRepository.create
  intro id t
  refine ends_sqlOr.mpr ?_
  simp only [exec]
  by_cases hfits : input.Fits
  · have hc : CustomerRow.Checks
        ⟨id, input.name, taxId, input.taxType, input.email, input.phone, t, t, none⟩ :=
      ⟨hfits.name, htaxId, hfits.email, hfits.phone⟩
    simp only [if_pos hfits, hc, true_and]
    cases hid : v.customers.find? id with
    | some r => exact ⟨_, rfl⟩
    | none =>
        simp only [Option.isSome_none, Bool.false_eq_true, if_false]
        by_cases hfree : ∀ r ∈ v.customers.rows, r.taxId = taxId → r.id = id
        · rw [storeCustomer_free hc hfree]
          exact ⟨hfits, _, hc, hid, hfree, rfl, rfl, rfl, rfl, rfl⟩
        · push Not at hfree
          rcases hfree with ⟨r, hr, htax, hne⟩
          rw [storeCustomer_taken hc hr htax hne]
          exact ⟨_, rfl⟩
  · have hc : ¬CustomerRow.Checks
        ⟨id, input.name, taxId, input.taxType, input.email, input.phone, t, t, none⟩ :=
      fun h => hfits ⟨h.nameFits, h.emailFits, h.phoneFits⟩
    simp only [if_neg hfits, hc, false_and, if_false, storeCustomer_unfit hc]
    rfl

end Repository

/-! ## One call -/

/-- The document of a customer stays, and whether the customer is deleted. -/
structure Kept (deletes : Bool) (row row' : CustomerRow) : Prop where
  taxId : row'.taxId = row.taxId
  taxType : row'.taxType = row.taxType
  deleted : row'.deletedAt.isSome = (row.deletedAt.isSome || deletes)

/-- What a call does to the customers who are there. -/
def KeepsCustomers (call : CustomerCall) (v v' : Db) : Prop :=
  ∀ c row, v.customers.find? c = some row →
    ∃ row', v'.customers.find? c = some row' ∧ Kept (call.deletes c) row row'

section Calls

variable {v : Db}

/-- A call that changes nothing keeps the customers, if whoever it deletes was deleted. -/
theorem keepsCustomers_same {call : CustomerCall}
    (h : ∀ c row, v.customers.find? c = some row → call.deletes c = true →
      row.deletedAt.isSome = true) : KeepsCustomers call v v := by
  intro c row hrow
  refine ⟨row, hrow, rfl, rfl, ?_⟩
  cases hdeletes : call.deletes c with
  | false => rw [Bool.or_false]
  | true => rw [h c row hrow hdeletes, Bool.true_or]

/-- A call that changes the row of one active customer. -/
theorem keepsCustomers_set {call : CustomerCall} {id : IdText} {row new : CustomerRow}
    {hc : new.Checks} (hactive : v.active? id = some row) (hid : new.id = row.id)
    (htaxId : new.taxId = row.taxId)
    (htaxType : new.taxType = row.taxType)
    (hother : ∀ c, id.column? ≠ some c → call.deletes c = false)
    (hdeleted : ∀ c, id.column? = some c → new.deletedAt.isSome = call.deletes c) :
    KeepsCustomers call v (v.setCustomer new hc) := by
  rcases Db.active?_eq_some.mp hactive with ⟨k, hcol, hrow, hnone⟩
  have hk : row.id = k := Table.key_of_find? hrow
  intro c r hr
  rw [Db.setCustomer_find?, hid, hk]
  by_cases hkc : k = c
  · subst hkc
    rw [hrow, Option.some.injEq] at hr
    subst hr
    refine ⟨new, if_pos rfl, htaxId, htaxType, ?_⟩
    rw [hdeleted k hcol, hnone, Option.isSome_none, Bool.false_or]
  · refine ⟨r, (if_neg hkc).trans hr, rfl, rfl, ?_⟩
    rw [hother c (by rw [hcol]; simpa using hkc), Bool.or_false]

/-- A new row keeps those who are there. -/
theorem keepsCustomers_new {call : CustomerCall} {new : CustomerRow} {hc : new.Checks}
    (hnew : v.customers.find? new.id = none) (hdeletes : ∀ c, call.deletes c = false) :
    KeepsCustomers call v (v.setCustomer new hc) := by
  intro c r hr
  have hne : new.id ≠ c := by
    rintro rfl
    rw [hnew] at hr
    cases hr
  refine ⟨r, ?_, rfl, rfl, ?_⟩
  · rw [Db.setCustomer_find?, if_neg hne]
    exact hr
  · rw [hdeletes c, Bool.or_false]

/-- Nobody who is deleted is active. -/
theorem deleted_of_inactive {id : IdText} (hnone : v.active? id = none) {c : Uuid}
    {row : CustomerRow} (hcol : id.column? = some c) (hrow : v.customers.find? c = some row) :
    row.deletedAt.isSome = true := by
  by_contra hdeleted
  have hactive : v.active? id = some row :=
    Db.active?_eq_some.mpr ⟨c, hcol, hrow, by simpa using hdeleted⟩
  rw [hnone] at hactive
  cases hactive

/-- The digits of a text hold no `nul`. -/
theorem textFits_onlyDigits (text : String) : TextFits (String.ofList (onlyDigits text)) := by
  intro hnul
  rw [String.toList_ofList] at hnul
  have hdigit := List.of_mem_filter hnul
  exact absurd hdigit (by decide)

/-- An active customer who has the document. -/
def Db.documentActive (db : Db) (taxId : String) : Bool :=
  (db.customers.rows.find? fun c => c.taxId = taxId ∧ c.deletedAt.isNone).isSome

/-- `CreateCustomer` stores a document that nobody has, or throws: a conflict, unless the
row is refused for its texts. -/
theorem CreateCustomer.execute_ends (input : CreateCustomerInput) :
    (CreateCustomer.execute input).Ends postgres
      (fun customer v' => input.accepted = true ∧ input.Fits ∧ ∃ row, ∃ hc : row.Checks,
        v.customers.find? row.id = none ∧
        (∀ r ∈ v.customers.rows, r.taxId = String.ofList (onlyDigits input.taxId) → r.id = row.id) ∧
        row.taxId = String.ofList (onlyDigits input.taxId) ∧ row.taxType = input.taxType ∧
        row.deletedAt = none ∧ customer = row.toEntity ∧ v' = v.setCustomer row hc)
      (fun failure => input.accepted = true →
        if v.documentActive (String.ofList (onlyDigits input.taxId)) ∨ input.Fits then
          ∃ message, failure = .app (.conflict message)
        else failure = .db .invalidText) v := by
  unfold CreateCustomer.execute CreateCustomerInput.accepted Db.documentActive
  cases validatePhone input.phone with
  | false =>
      intro haccepted
      cases haccepted
  | true =>
      cases htax : validateTaxId (String.ofList (onlyDigits input.taxId)) input.taxType with
      | false =>
          simp only [htax, Bool.not_true, Bool.false_eq_true, if_false]
          intro haccepted
          cases haccepted
      | true =>
          have hfits := textFits_onlyDigits input.taxId
          simp only [htax, Bool.not_true, Bool.false_eq_true, if_false]
          refine ends_sql.mpr ?_
          simp only [exec, if_pos hfits]
          cases v.customers.rows.find? (fun c =>
              c.taxId = String.ofList (onlyDigits input.taxId) ∧ c.deletedAt.isNone) with
          | some r =>
              intro _
              exact ⟨_, rfl⟩
          | none =>
              refine (CustomerRepository.create_ends input hfits).mono ?_ ?_
              · rintro customer v' ⟨hinput, hnew⟩
                exact ⟨rfl, hinput, hnew⟩
              · intro failure hfailure _
                simpa using hfailure

/-- `UpdateCustomer` patches an active customer with texts that fit. -/
theorem UpdateCustomer.execute_ends (h : Registered v) (id : IdText) (data : CustomerPatch) :
    (UpdateCustomer.execute id data).Ends postgres
      (fun _ v' => data.accepted = true ∧ data.taxId = none ∧ data.taxType = none ∧
        ∃ row t, ∃ hc : (data.apply t row).Checks, v.active? id = some row ∧
          v' = v.setCustomer (data.apply t row) hc)
      (fun _ => data.accepted = true → data.Fits → v.active? id = none) v := by
  unfold UpdateCustomer.execute CustomerPatch.accepted
  cases hdocument : data.taxId.isSome || data.taxType.isSome with
  | true =>
      rw [if_pos rfl]
      intro haccepted
      cases haccepted
  | false =>
      rw [if_neg Bool.false_ne_true]
      simp only [Bool.or_eq_false_iff, Option.isSome_eq_false_iff, Option.isNone_iff_eq_none]
        at hdocument
      cases data.phone.any (fun phone => !validatePhone phone) with
      | true =>
          rw [if_pos rfl]
          intro haccepted
          cases haccepted
      | false =>
          rw [if_neg Bool.false_ne_true]
          refine Ends.seq ((CustomerRepository.update_ends h id hdocument.1).mono (fun _ _ hupdated =>
            hupdated) fun _ hunfit _ hfits => absurd hfits hunfit) ?_
          rintro updated v' (⟨rfl, rfl, hnone⟩ | ⟨row, t, hc, hactive, rfl, rfl⟩)
          · intro _ _
            exact hnone
          · exact ⟨rfl, hdocument.1, hdocument.2, row, t, hc, hactive, rfl⟩

/-- `DeleteCustomer` marks an active customer as deleted. -/
theorem DeleteCustomer.execute_ends (h : Registered v) (id : IdText) :
    (DeleteCustomer.execute id).Ends postgres
      (fun _ v' => ∃ row t, ∃ hc : (CustomerPatch.apply { deletedAt := some t } t row).Checks,
        v.active? id = some row ∧
        v' = v.setCustomer (CustomerPatch.apply { deletedAt := some t } t row) hc)
      (fun _ => v.active? id = none) v := by
  unfold DeleteCustomer.execute
  refine Ends.seq ((CustomerRepository.softDelete_ends h id).mono (fun _ _ hdeleted => hdeleted)
    fun _ hno => hno.elim) ?_
  rintro deleted v' (⟨rfl, rfl, hnone⟩ | ⟨row, t, hc, hactive, rfl, rfl⟩)
  · exact hnone
  · exact ⟨row, t, hc, hactive, rfl⟩

/-- A patch of an active customer that leaves the document alone. -/
theorem Registered.patched (h : Registered v) {id : IdText} {row new : CustomerRow}
    (hc : new.Checks) (hactive : v.active? id = some row) (hid : new.id = row.id)
    (htaxId : new.taxId = row.taxId)
    (htaxType : new.taxType = row.taxType) : Registered (v.setCustomer new hc) := by
  rcases Db.active?_eq_some.mp hactive with ⟨c, -, hrow, -⟩
  have hmem := Table.mem_of_find? hrow
  apply h.setCustomer hc
  · rw [htaxId]
    exact h.digits row hmem
  · rw [htaxId, htaxType]
    exact h.valid row hmem
  · intro r hr heq
    rw [htaxId] at heq
    rw [hid]
    exact h.unique r hr row hmem heq

/-- The step: a call keeps the registry, and the customers in it. -/
theorem CustomerCall.ends (h : Registered v) (call : CustomerCall) :
    (program call.op).Ends postgres (fun _ v' => Registered v' ∧ KeepsCustomers call v v')
      (fun _ => KeepsCustomers call v v) v := by
  cases call with
  | create input =>
      have hsame : KeepsCustomers (.create input) v v := by
        apply keepsCustomers_same
        intro c row _ hdeletes
        cases hdeletes
      refine Ends.seq ((CreateCustomer.execute_ends input).mono (fun _ _ hnew => hnew)
        fun _ _ => hsame) ?_
      rintro customer v' ⟨haccepted, -, row, hc, hnew, hfree, htaxId, htaxType, -, -, rfl⟩
      refine ⟨h.setCustomer hc ?_ ?_ ?_, keepsCustomers_new hnew fun _ => rfl⟩
      · rw [htaxId, String.toList_ofList]
        simp [onlyDigits]
      · rw [htaxId, htaxType]
        simp only [CreateCustomerInput.accepted, Bool.and_eq_true] at haccepted
        exact haccepted.2
      · rw [htaxId]
        exact hfree
  | update id data =>
      refine Ends.seq ((UpdateCustomer.execute_ends h id data).mono (fun _ _ hset => hset) ?_) ?_
      · intro failure hnone
        apply keepsCustomers_same
        intro c row hrow hdeletes
        simp only [CustomerCall.deletes, Bool.and_eq_true, decide_eq_true_eq] at hdeletes
        exact deleted_of_inactive (hnone hdeletes.2.1.1 hdeletes.2.1.2) hdeletes.1 hrow
      · rintro customer v' ⟨haccepted, htaxId, htaxType, row, t, hc, hactive, rfl⟩
        have hid : (data.apply t row).taxId = row.taxId := by
          simp [CustomerPatch.apply, htaxId]
        have htype : (data.apply t row).taxType = row.taxType := by
          simp [CustomerPatch.apply, htaxType]
        refine ⟨h.patched hc hactive rfl hid htype, ?_⟩
        refine keepsCustomers_set hactive rfl hid htype ?_ ?_
        · intro c hne
          simp [CustomerCall.deletes, hne]
        · intro c hcol
          rcases Db.active?_eq_some.mp hactive with ⟨k, -, hrow, hnone⟩
          have hfits : data.Fits :=
            (CustomerPatch.apply_checks htaxId (Table.check_of_find? hrow) t).mp hc
          cases hdata : data.deletedAt <;>
            simp [CustomerCall.deletes, hcol, haccepted, hfits, CustomerPatch.apply, hnone, hdata]
  | delete id =>
      refine Ends.seq ((DeleteCustomer.execute_ends h id).mono (fun _ _ hset => hset) ?_) ?_
      · intro failure hnone
        apply keepsCustomers_same
        intro c row hrow hdeletes
        exact deleted_of_inactive hnone (of_decide_eq_true hdeletes) hrow
      · rintro _ v' ⟨row, t, hc, hactive, rfl⟩
        refine ⟨h.patched hc hactive rfl rfl rfl, keepsCustomers_set hactive rfl rfl rfl ?_ ?_⟩
        · intro c hne
          simp [CustomerCall.deletes, hne]
        · intro c hcol
          simp [CustomerCall.deletes, hcol, CustomerPatch.apply]

end Calls

/-! ## Any calls -/

theorem World.callAll_cons (w : World) (call : ℕ × CustomerCall) (calls : List (ℕ × CustomerCall)) :
    w.callAll (call :: calls) = (w.perform call.1 call.2.op).callAll calls := rfl

/-- The run: any calls keep the registry, and the customers in it. -/
theorem World.callAll_keeps {w : World} (h : Registered w.db) (calls : List (ℕ × CustomerCall)) :
    Registered (w.callAll calls).db ∧ ∀ c row, w.db.customers.find? c = some row →
      ∃ row', (w.callAll calls).db.customers.find? c = some row' ∧
        Kept (calls.any fun call => call.2.deletes c) row row' := by
  induction calls generalizing w with
  | nil =>
      refine ⟨h, ?_⟩
      intro c row hrow
      exact ⟨row, hrow, rfl, rfl, by rw [List.any_nil, Bool.or_false]⟩
  | cons call calls ih =>
      rw [World.callAll_cons]
      have hstep : Registered (w.perform call.1 call.2.op).db ∧
          KeepsCustomers call.2 w.db (w.perform call.1 call.2.op).db := by
        rcases World.perform_ends (CustomerCall.ends h call.2) call.1 with
          ⟨_, hkept⟩ | ⟨hsame, _, hkept⟩
        · exact hkept
        · rw [hsame]
          exact ⟨h, hkept⟩
      rcases ih hstep.1 with ⟨hregistered, hrest⟩
      refine ⟨hregistered, ?_⟩
      intro c row hrow
      rcases hstep.2 c row hrow with ⟨row₁, hrow₁, hkept₁⟩
      rcases hrest c row₁ hrow₁ with ⟨row₂, hrow₂, hkept₂⟩
      refine ⟨row₂, hrow₂, hkept₂.taxId.trans hkept₁.taxId, hkept₂.taxType.trans hkept₁.taxType, ?_⟩
      rw [hkept₂.deleted, hkept₁.deleted, Bool.or_assoc, List.any_cons]

/-! ## One document, one customer -/

/-- One of the calls deletes this customer. -/
def deletedBy (calls : List (ℕ × CustomerCall)) (customer : Customer) : Bool :=
  calls.any fun call => customer.id.column?.any fun c => call.2.deletes c

/-- What is promised of a document, written `t`, of a customer who was created, and maybe
deleted, and of creating the customer `again`. -/
structure OneCustomer (w : World) (created : Customer) (deleted : Bool) (t : String)
    (again : CreateCustomerInput) : Prop where
  registered : Registered w.db
  get : ∃ row, w.db.customers.find? row.id = some row ∧ row.id.text = created.id ∧
    row.taxId = created.taxId ∧ ∀ customer, GetCustomerByTaxId.execute t w.db = .ok customer ↔
      deleted = false ∧ customer = row.toEntity
  missed : deleted = true → TextFits t →
    GetCustomerByTaxId.execute t w.db = .error (.app (.notFound "Customer"))
  lookup : created.taxType = .cpf → ∃ name,
    LookupCustomerByCpf.execute t w.db = .ok ⟨created.id, name, !deleted⟩
  second : ∀ now, (∃ message, w.attempt now (program (.createCustomer again))
      = .error (.app (.conflict message))) ∧ w.perform now (.createCustomer again) = w

section Documents

variable {db : Db}

/-- The row under a tax id, if it satisfies `p`. -/
theorem Registered.find?_taxId (h : Registered db) {row : CustomerRow}
    (hrow : row ∈ db.customers.rows) (p : CustomerRow → Bool) :
    db.customers.rows.find? (fun c => decide (c.taxId = row.taxId) && p c)
      = if p row then some row else none := by
  cases hp : p row with
  | false =>
      rw [if_neg Bool.false_ne_true, List.find?_eq_none]
      intro r hr htaken
      simp only [Bool.and_eq_true, decide_eq_true_eq] at htaken
      rw [h.row_eq hr hrow htaken.1, hp] at htaken
      cases htaken.2
  | true =>
      rw [if_pos rfl]
      cases hfind : db.customers.rows.find? (fun c => decide (c.taxId = row.taxId) && p c) with
      | none =>
          have hno := List.find?_eq_none.mp hfind row hrow
          simp [hp] at hno
      | some r =>
          have hr := List.find?_some hfind
          simp only [Bool.and_eq_true, decide_eq_true_eq] at hr
          rw [h.row_eq (List.mem_of_find?_eq_some hfind) hrow hr.1]

/-- A string that is not digits only is the tax id of nobody. -/
theorem Registered.find?_formatted (h : Registered db) {t : String} (ht : onlyDigits t ≠ t.toList)
    (p : CustomerRow → Bool) :
    db.customers.rows.find? (fun c => decide (c.taxId = t) && p c) = none := by
  rw [List.find?_eq_none]
  intro r hr htaken
  simp only [Bool.and_eq_true, decide_eq_true_eq] at htaken
  apply ht
  rw [← htaken.1]
  exact h.digits r hr

/-- The digits of a string of digits. -/
theorem ofList_onlyDigits {t : String} (ht : onlyDigits t = t.toList) :
    String.ofList (onlyDigits t) = t := by
  rw [ht, String.ofList_toList]

/-- The digits of a text alone fit. -/
theorem textFits_of_digits {t : String} (ht : onlyDigits t = t.toList) : TextFits t := by
  rw [← ofList_onlyDigits ht]
  exact textFits_onlyDigits t

/-- The lookup by a stored tax id, of an active customer or a deleted one. -/
theorem Registered.get_stored (h : Registered db) {row : CustomerRow}
    (hrow : row ∈ db.customers.rows) : GetCustomerByTaxId.execute row.taxId db =
      if row.deletedAt = none then .ok row.toEntity else .error (.app (.notFound "Customer")) := by
  rw [GetCustomerByTaxId.execute_eq (textFits_of_digits (h.digits row hrow))]
  simp only [Bool.decide_and, h.find?_taxId hrow]
  cases row.deletedAt <;> simp

/-- The lookup by a string that is not digits only finds nobody. -/
theorem Registered.get_formatted (h : Registered db) {t : String} (ht : onlyDigits t ≠ t.toList) :
    GetCustomerByTaxId.execute t db =
      if TextFits t then .error (.app (.notFound "Customer")) else .error (.db .invalidText) := by
  by_cases hfits : TextFits t
  · rw [GetCustomerByTaxId.execute_eq hfits, if_pos hfits]
    simp only [Bool.decide_and, h.find?_formatted ht]
  · rw [GetCustomerByTaxId.execute_unfit hfits, if_neg hfits]

/-- The lookup by CPF finds a stored document under any spelling, deleted or not. -/
theorem Registered.lookup_stored (h : Registered db) {row : CustomerRow}
    (hrow : row ∈ db.customers.rows) (hcpf : row.taxType = .cpf) {t : String}
    (ht : String.ofList (onlyDigits t) = row.taxId) :
    LookupCustomerByCpf.execute t db = .ok ⟨row.id.text, row.name, row.deletedAt.isNone⟩ := by
  have hvalid : validateCPF row.taxId = true := by
    have hstored := h.valid row hrow
    rw [hcpf] at hstored
    exact hstored
  have hfits : TextFits row.taxId := ht ▸ textFits_onlyDigits t
  have hfind := h.find?_taxId hrow fun _ => true
  simp only [Bool.and_true, if_true] at hfind
  unfold LookupCustomerByCpf.execute CustomerRepository.findByTaxIdIncludingInactive
  simp only [ht, hvalid, Bool.not_true, Bool.false_eq_true, if_false, hfits, if_true, hfind,
    Option.map_some, Bind.bind, Except.bind]
  rfl

/-- Any spelling of a stored document is refused: as a conflict, unless the customer was
deleted and a text does not fit. -/
theorem Registered.second (h : Registered db) {row : CustomerRow} (hrow : row ∈ db.customers.rows)
    {input : CreateCustomerInput} (hdigits : String.ofList (onlyDigits input.taxId) = row.taxId)
    (htype : input.taxType = row.taxType) (hphone : validatePhone input.phone = true) :
    (program (.createCustomer input)).Ends postgres (fun _ _ => False)
      (fun failure => if row.deletedAt = none ∨ input.Fits then
        ∃ message, failure = .app (.conflict message) else failure = .db .invalidText) db := by
  have haccepted : input.accepted = true := by
    rw [CreateCustomerInput.accepted, hphone, hdigits, htype, h.valid row hrow]
    rfl
  have hactive : db.documentActive (String.ofList (onlyDigits input.taxId)) = true ↔
      row.deletedAt = none := by
    have hfind := h.find?_taxId hrow fun c => c.deletedAt.isNone
    unfold Db.documentActive
    simp only [Bool.decide_and, Bool.decide_eq_true, hdigits, hfind]
    cases row.deletedAt <;> simp
  refine Ends.seq ((CreateCustomer.execute_ends input).mono (fun _ _ hnew => hnew) ?_) ?_
  · intro failure hfailure
    simpa only [hactive] using hfailure haccepted
  · rintro customer v' ⟨-, -, new, -, hnew, hfree, -⟩
    -- the id would be that of the row, but it is new
    have hid := hfree row hrow hdigits.symm
    rw [← hid, Table.find?_of_mem hrow] at hnew
    cases hnew

/-- So registering it again is a conflict, unless the customer was deleted and a text does not
fit. -/
theorem Registered.conflict_iff {w : World} (h : Registered w.db) {row : CustomerRow}
    (hrow : row ∈ w.db.customers.rows) {input : CreateCustomerInput}
    (hdigits : String.ofList (onlyDigits input.taxId) = row.taxId)
    (htype : input.taxType = row.taxType) (hphone : validatePhone input.phone = true) :
    (∀ now, (∃ message, w.attempt now (program (.createCustomer input))
        = .error (.app (.conflict message))) ∧ w.perform now (.createCustomer input) = w) ↔
      (row.deletedAt = none ∨ input.Fits) := by
  have hsecond := h.second hrow hdigits htype hphone
  constructor
  · intro hrefused
    by_contra hno
    rcases (hrefused 0).1 with ⟨message, hconflict⟩
    rcases World.attempt_ends hsecond 0 with ⟨_, _, -, hfalse⟩ | ⟨failure, hrun, hfailure⟩
    · exact hfalse.elim
    · rw [if_neg hno] at hfailure
      rw [hrun, hfailure] at hconflict
      cases hconflict
  · intro hcond now
    rcases World.attempt_ends hsecond now with ⟨_, _, -, hfalse⟩ | ⟨failure, hrun, hfailure⟩
    · exact hfalse.elim
    · rw [if_pos hcond] at hfailure
      rcases hfailure with ⟨message, rfl⟩
      exact ⟨⟨message, hrun⟩, World.perform_error hrun⟩

end Documents

/-- What `CreateCustomer` left, when it succeeded. -/
theorem created_row {v w : World} (h : Registered v.db) {input : CreateCustomerInput}
    {created : Customer} {now : ℕ}
    (hcreated : v.attempt now (program (.createCustomer input)) = .ok (.customer created, w)) :
    Registered w.db ∧ ∃ row, w.db.customers.find? row.id = some row ∧ created = row.toEntity ∧
      row.taxId = String.ofList (onlyDigits input.taxId) ∧ row.deletedAt = none := by
  have hkeeps := CustomerCall.ends h (.create input)
  have hends : (program (.createCustomer input)).Ends postgres
      (fun result v' => ∃ row, v'.customers.find? row.id = some row ∧
        result = .customer row.toEntity ∧ row.taxId = String.ofList (onlyDigits input.taxId) ∧
        row.deletedAt = none) (fun _ => True) v.db := by
    refine Ends.seq ((CreateCustomer.execute_ends input).mono (fun _ _ hnew => hnew)
      fun _ _ => trivial) ?_
    rintro customer v' ⟨-, -, row, hc, -, -, htaxId, -, hactive, rfl, rfl⟩
    exact ⟨row, (Db.setCustomer_find? _ _ hc _).trans (if_pos rfl), rfl, htaxId, hactive⟩
  rcases World.attempt_ends hkeeps now with ⟨_, w', hrun, hregistered, -⟩ | ⟨_, hrun, -⟩
  · rcases World.attempt_ends hends now with ⟨result, w'', hrun', row, hrow, hresult, hrest⟩ |
      ⟨_, hrun', -⟩
    · have heq : (Outcome.customer created, w) = (result, w'') :=
        Except.ok.inj (hcreated.symm.trans hrun')
      have heq' : (_, w') = (Outcome.customer created, w) :=
        Except.ok.inj (hrun.symm.trans hcreated)
      cases heq'
      cases heq
      cases hresult
      exact ⟨hregistered, row, hrow, rfl, hrest⟩
    · rw [hcreated] at hrun'
      cases hrun'
  · have hrun : v.attempt now (program (.createCustomer input)) = .error _ := hrun
    rw [hcreated] at hrun
    cases hrun

/-- After any calls, a document is found under any spelling and cannot be registered again,
except that the lookup by tax id finds an active customer under the digits only, and that
registering a deleted one again is an error of the database where a text does not fit. -/
theorem one_document_iff (before after : List (ℕ × CustomerCall)) {input : CreateCustomerInput}
    {created : Customer} {w : World} {now : ℕ}
    (hcreated : (World.callAll {} before).attempt now (program (.createCustomer input))
      = .ok (.customer created, w)) {t : String} (ht : onlyDigits t = onlyDigits input.taxId)
    {again : CreateCustomerInput} (hagain : onlyDigits again.taxId = onlyDigits input.taxId)
    (hsameType : again.taxType = created.taxType) (hphone : validatePhone again.phone = true) :
    OneCustomer (w.callAll after) created (deletedBy after created) t again ↔
      if deletedBy after created then again.Fits else onlyDigits t = t.toList := by
  have hbefore := (World.callAll_keeps (w := {}) .start before).1
  rcases created_row hbefore hcreated with ⟨hregistered, row₀, hrow₀, rfl, htaxId₀, hactive₀⟩
  rcases World.callAll_keeps hregistered after with ⟨hafter, hkeeps⟩
  rcases hkeeps row₀.id row₀ hrow₀ with ⟨row, hrow, hkept⟩
  have hid : row.id = row₀.id := Table.key_of_find? hrow
  have hmem : row ∈ (w.callAll after).db.customers.rows := Table.mem_of_find? hrow
  have hdocument : row.taxId = String.ofList (onlyDigits t) := by
    rw [hkept.taxId, htaxId₀, ht]
  have hdeleted : deletedBy after row₀.toEntity = row.deletedAt.isSome := by
    rw [hkept.deleted, hactive₀, Option.isSome_none, Bool.false_or]
    rfl
  have hconflict := hafter.conflict_iff hmem (by rw [hagain, ← ht, hdocument])
    (hsameType.trans hkept.taxType.symm) hphone
  rw [hdeleted]
  constructor
  · intro hone
    cases hgone : row.deletedAt with
    | some at' =>
        rw [Option.isSome_some, if_pos rfl]
        rcases hconflict.mp hone.second with hnone | hfits
        · rw [hgone] at hnone
          cases hnone
        · exact hfits
    | none =>
        rw [Option.isSome_none, if_neg Bool.false_ne_true]
        by_contra hformatted
        rcases hone.get with ⟨r, -, -, -, hanswer⟩
        have hfound := (hanswer r.toEntity).mpr ⟨by rw [hgone]; rfl, rfl⟩
        rw [hafter.get_formatted hformatted] at hfound
        split at hfound <;> cases hfound
  · intro hcond
    refine ⟨hafter, ⟨row, ?_, ?_, hkept.taxId, ?_⟩, ?_, ?_, ?_⟩
    · rw [hid]
      exact hrow
    · rw [hid]
      rfl
    · intro customer
      by_cases hdigits : onlyDigits t = t.toList
      · rw [show t = row.taxId by rw [hdocument, ofList_onlyDigits hdigits], hafter.get_stored hmem]
        cases row.deletedAt <;> simp [eq_comm]
      · -- such a customer is deleted, and found under no spelling
        have hgone : row.deletedAt.isSome = true := by
          by_contra hactive
          rw [if_neg hactive] at hcond
          exact hdigits hcond
        rw [hafter.get_formatted hdigits, hgone]
        split <;> simp
    · intro hgone hfits
      by_cases hdigits : onlyDigits t = t.toList
      · rw [show t = row.taxId by rw [hdocument, ofList_onlyDigits hdigits], hafter.get_stored hmem,
          if_neg (Option.isSome_iff_ne_none.mp hgone)]
      · rw [hafter.get_formatted hdigits, if_pos hfits]
    · intro hcpf
      refine ⟨row.name, ?_⟩
      rw [hafter.lookup_stored hmem (hkept.taxType.trans hcpf) hdocument.symm, hid]
      cases row.deletedAt <;> rfl
    · apply hconflict.mpr
      cases hgone : row.deletedAt with
      | none => exact .inl rfl
      | some at' =>
          rw [hgone, Option.isSome_some, if_pos rfl] at hcond
          exact .inr hcond

/-! ## A formatted CPF -/

/-- The first customer, registered under a formatted CPF. -/
def firstInput : CreateCustomerInput := ⟨"Ana", "529.982.247-25", .cpf, "ana@mail", "11987654321"⟩

def firstCustomer : Customer :=
  ⟨Uuid.text 0, "Ana", "52998224725", .cpf, "ana@mail", "11987654321", 0, 0, none⟩

theorem first_created : ∃ w, (World.callAll {} []).attempt 0 (program (.createCustomer firstInput))
      = .ok (.customer firstCustomer, w) ∧
    GetCustomerByTaxId.execute "529.982.247-25" w.db = .error (.app (.notFound "Customer")) := by
  have hrun : ∃ p ∈ ((World.callAll {} []).attempt 0
        (program (.createCustomer firstInput))).toOption,
      p.1 = .customer firstCustomer ∧
        p.2.db.customers.rows.find? (fun c => c.taxId = "529.982.247-25" ∧ c.deletedAt.isNone)
          = none := by
    decide +kernel
  cases hattempt : (World.callAll {} []).attempt 0 (program (.createCustomer firstInput)) with
  | error failure =>
      rw [hattempt] at hrun
      rcases hrun with ⟨p, hp, -⟩
      cases hp
  | ok p =>
      rw [hattempt] at hrun
      rcases hrun with ⟨q, hq, hcustomer, hnone⟩
      cases hq
      rcases p with ⟨result, w⟩
      cases hcustomer
      refine ⟨w, rfl, ?_⟩
      rw [GetCustomerByTaxId.execute_eq (by decide), hnone]

/-- After the customer is deleted, the formatted CPF finds what the digits find, and cannot
be registered again. -/
theorem deleted_document_kept : ∃ w, (World.callAll {} []).attempt 0
      (program (.createCustomer firstInput)) = .ok (.customer firstCustomer, w) ∧
    OneCustomer (w.callAll [(1, .delete (Uuid.text 0))]) firstCustomer true "529.982.247-25"
      firstInput := by
  rcases first_created with ⟨w, hcreated, -⟩
  have hone := one_document_iff [] [(1, .delete (Uuid.text 0))] hcreated
    (t := "529.982.247-25") rfl (show onlyDigits firstInput.taxId = _ from rfl) rfl (by decide)
  have hdeleted : deletedBy [(1, .delete (Uuid.text 0))] firstCustomer = true := by
    decide
  rw [hdeleted, if_pos rfl] at hone
  exact ⟨w, hcreated, hone.mpr (by decide)⟩

/-- Before that, the formatted CPF that the customer was registered with finds nobody. -/
theorem formatted_cpf_not_found : ∃ w, (World.callAll {} []).attempt 0
      (program (.createCustomer firstInput)) = .ok (.customer firstCustomer, w) ∧
    GetCustomerByTaxId.execute firstInput.taxId w.db = .error (.app (.notFound "Customer")) ∧
    ¬OneCustomer (w.callAll []) firstCustomer false firstInput.taxId firstInput := by
  rcases first_created with ⟨w, hcreated, hnone⟩
  refine ⟨w, hcreated, hnone, ?_⟩
  intro hone
  rcases hone.get with ⟨row, -, -, -, hanswer⟩
  have hfound : GetCustomerByTaxId.execute "529.982.247-25" w.db = .ok row.toEntity :=
    (hanswer row.toEntity).mpr ⟨rfl, rfl⟩
  rw [hnone] at hfound
  cases hfound

end CarRepairShop
