import CarRepairShop.OperationSpecs
import CarRepairShop.RegistryUpdates

/-! # What an update of the registry can reach

An update passes its checks, finds its row, makes a new row of the body, stores
it and carries out the nested writes: an `UpdateRoute`. The two routes differ in
these parts only, so what is said of one is said of both here: when a request is
refused before its nested writes (`Refused`), and when one that is carried out
leaves what has to stay (`Harmless`). What nested writes do is up to Prisma, so a
body that asks for some is harmless only where it is refused.
-/

namespace CarRepairShop

open Lib Txn

/-! ## Routes -/

/-- The parts of an update. -/
structure UpdateRoute (Row : Type) where
  check : List (String × Json) → Except UpdateError Unit
  found : Option Row
  fields : List String
  relations : List String
  row : List (String × Json) → Row → Except UpdateError Row
  store : Row → Row → Except UpdateError Db
  nested : List (String × Json) → Row → Db → Except UpdateError Db

namespace UpdateRoute

variable {Row : Type}

/-- The body asks for nested writes. -/
def HasRelation (r : UpdateRoute Row) (fields : List (String × Json)) : Prop :=
  ∃ name ∈ r.relations, (fields.lookup name).isSome = true

/-- The request passes every step up to its nested writes: `row` becomes `row'`,
and the tables `d`. -/
structure Accepted (r : UpdateRoute Row) (fields : List (String × Json)) (row row' : Row) (d : Db) :
    Prop where
  checked : r.check fields = .ok ()
  found : r.found = some row
  known : ∀ f ∈ fields, f.1 ∈ r.fields
  columns : r.row fields row = .ok row'
  stored : r.store row row' = .ok d

/-- The body asks for no nested writes. -/
def Plain (r : UpdateRoute Row) (body : Json) : Prop :=
  ∀ fields, body = .obj fields → ¬ r.HasRelation fields

/-- One of the steps before the nested writes refuses the request. -/
inductive Refused (r : UpdateRoute Row) : Json → Prop where
  | noObject {body : Json} (h : ∀ fields, body ≠ .obj fields) : Refused r body
  | check {fields : List (String × Json)} {e : UpdateError} (h : r.check fields = .error e) :
      Refused r (.obj fields)
  | missing {body : Json} (h : r.found = none) : Refused r body
  | unknownField {fields : List (String × Json)} {f : String × Json} (mem : f ∈ fields)
      (h : f.1 ∉ r.fields) : Refused r (.obj fields)
  | badColumn {fields : List (String × Json)} {row : Row} {e : UpdateError}
      (found : r.found = some row) (h : r.row fields row = .error e) : Refused r (.obj fields)
  | constraint {fields : List (String × Json)} {row row' : Row} {e : UpdateError}
      (found : r.found = some row) (columns : r.row fields row = .ok row')
      (h : r.store row row' = .error e) : Refused r (.obj fields)

/-- The body asks for no nested writes, and of the columns that have to stay for
what they have. -/
inductive Harmless (r : UpdateRoute Row) (keeps : List (String × Json) → Row → Prop) :
    Json → Prop where
  | columns {fields : List (String × Json)} {row : Row} (found : r.found = some row)
      (noRelation : ¬ r.HasRelation fields) (kept : keeps fields row) :
      Harmless r keeps (.obj fields)

/-- What a result has to be for a route to have produced it. -/
def Produces (r : UpdateRoute Row) (body : Json) (result : Except UpdateError Db) : Prop :=
  ∀ db', result = .ok db' ↔ ∃ fields row row' d, body = .obj fields ∧ r.Accepted fields row row' d ∧
    r.nested fields row' d = .ok db'

variable {r : UpdateRoute Row} {body : Json} {result : Except UpdateError Db}

/-- A request that no step before the nested writes refuses gets to them. -/
theorem accepted_of_not_refused (h : ¬ r.Refused body) :
    ∃ fields row row' d, body = .obj fields ∧ r.Accepted fields row row' d := by
  obtain ⟨fields, rfl⟩ : ∃ fields, body = .obj fields := by
    by_contra hno
    exact h (.noObject fun fields heq => hno ⟨fields, heq⟩)
  obtain ⟨row, hfound⟩ : ∃ row, r.found = some row := by
    by_contra hno
    exact h (.missing (Option.eq_none_iff_forall_ne_some.mpr fun row heq => hno ⟨row, heq⟩))
  have hknown : ∀ f ∈ fields, f.1 ∈ r.fields := by
    intro f hf
    by_contra hno
    exact h (.unknownField hf hno)
  cases hcheck : r.check fields with
  | error e => exact absurd (.check hcheck) h
  | ok u =>
  cases hcolumns : r.row fields row with
  | error e => exact absurd (.badColumn hfound hcolumns) h
  | ok row' =>
  cases hstored : r.store row row' with
  | error e => exact absurd (.constraint hfound hcolumns hstored) h
  | ok d => exact ⟨fields, row, row', d, rfl, hcheck, hfound, hknown, hcolumns, hstored⟩

/-- A request that gets to its nested writes was not refused before. -/
theorem Accepted.not_refused {fields : List (String × Json)} {row row' : Row} {d : Db}
    (hacc : r.Accepted fields row row' d) : ¬ r.Refused (.obj fields) := by
  intro hrefused
  cases hrefused with
  | noObject hno => exact hno fields rfl
  | check hcheck =>
      rw [hacc.checked] at hcheck
      cases hcheck
  | missing hnone =>
      rw [hacc.found] at hnone
      cases hnone
  | unknownField hf hno => exact hno (hacc.known _ hf)
  | badColumn hfound hbad =>
      obtain rfl := Option.some.inj (hacc.found.symm.trans hfound)
      rw [hacc.columns] at hbad
      cases hbad
  | constraint hfound hcolumns hbad =>
      obtain rfl := Option.some.inj (hacc.found.symm.trans hfound)
      obtain rfl := Except.ok.inj (hacc.columns.symm.trans hcolumns)
      rw [hacc.stored] at hbad
      cases hbad

end UpdateRoute

/-- The tables after a request; one that throws changes nothing. -/
def Db.after (db : Db) : Except UpdateError Db → Db
  | .ok db' => db'
  | .error _ => db

section Frame

variable {Row : Type} {r : UpdateRoute Row} {body : Json} {result : Except UpdateError Db} {db : Db}
  {keeps : List (String × Json) → Row → Prop} {F : Db → Prop}

/-- Without nested writes the tables are those that the columns leave. -/
theorem UpdateRoute.Produces.plain (h : r.Produces body result)
    (hplain : ∀ fields row d, ¬ r.HasRelation fields → r.nested fields row d = .ok d)
    {fields : List (String × Json)} {row row' : Row} {d : Db} (hbody : body = .obj fields)
    (hacc : r.Accepted fields row row' d) (hno : ¬ r.HasRelation fields) : db.after result = d := by
  rw [(h d).mpr ⟨fields, row, row', d, hbody, hacc, hplain fields row' d hno⟩]
  rfl

/-- What has to stay does stay when the request is refused, or asks for nothing
that has to stay. -/
theorem UpdateRoute.Produces.frame_of (h : r.Produces body result) (hself : F db)
    (hplain : ∀ fields row d, ¬ r.HasRelation fields → r.nested fields row d = .ok d)
    (hcolumns : ∀ fields row row' d, r.Accepted fields row row' d → (F d ↔ keeps fields row))
    (hcond : r.Refused body ∨ r.Harmless keeps body) : F (db.after result) := by
  by_cases hrefused : r.Refused body
  · cases hres : result with
    | error e => exact hself
    | ok db' =>
        obtain ⟨fields, row, row', d, rfl, hacc, -⟩ := (h db').mp hres
        exact absurd hrefused hacc.not_refused
  · obtain ⟨fields, row, row', d, rfl, hacc⟩ := UpdateRoute.accepted_of_not_refused hrefused
    cases hcond.resolve_left hrefused with
    | columns hfound hno hkept =>
        obtain rfl := Option.some.inj (hacc.found.symm.trans hfound)
        rw [h.plain hplain rfl hacc hno]
        exact (hcolumns fields _ row' d hacc).mpr hkept

/-- For a body without nested writes, that is exactly when it stays. -/
theorem UpdateRoute.Produces.frame_iff (h : r.Produces body result) (hself : F db)
    (hplain : ∀ fields row d, ¬ r.HasRelation fields → r.nested fields row d = .ok d)
    (hcolumns : ∀ fields row row' d, r.Accepted fields row row' d → (F d ↔ keeps fields row))
    (hbody : r.Plain body) : F (db.after result) ↔ r.Refused body ∨ r.Harmless keeps body := by
  refine ⟨fun hF => ?_, h.frame_of hself hplain hcolumns⟩
  by_cases hrefused : r.Refused body
  · exact .inl hrefused
  · obtain ⟨fields, row, row', d, rfl, hacc⟩ := UpdateRoute.accepted_of_not_refused hrefused
    have hno := hbody fields rfl
    rw [h.plain hplain rfl hacc hno] at hF
    exact .inr (.columns hacc.found hno ((hcolumns fields row row' d hacc).mp hF))

end Frame

/-! ## What has to stay -/

/-- The body leaves the column alone, or asks for the value it has. -/
def Keeps {α : Type} (fields : List (String × Json)) (name : String)
    (update : Json → α → Except UpdateError α) (old : α) : Prop :=
  ∀ v, fields.lookup name = some v → update v old = .ok old

theorem column_eq_iff {α : Type} {fields : List (String × Json)} {name : String}
    {update : Json → α → Except UpdateError α} {old : α} :
    column fields name update old = .ok old ↔ Keeps fields name update old := by
  unfold column Keeps
  cases fields.lookup name with
  | none => simp
  | some v => simp

/-- The tables agree on everything but items and customers. -/
structure SameRest (db db' : Db) : Prop where
  orders : ∀ o, db'.orders.find? o = db.orders.find? o
  services : ∀ s, db'.services.find? s = db.services.find? s
  vehicles : ∀ v, db'.vehicles.find? v = db.vehicles.find? v
  outbox : db'.outbox = db.outbox
  processed : ∀ m, db'.processed.find? m = db.processed.find? m

/-- The columns of an item that an update leaves. -/
def ItemRow.kept (r : ItemRow) : Uuid × ℤ := (r.id, r.reservedQuantity)

/-- At most the name, the price and the stock of item `id` changed. -/
structure ItemFrame (id : IdText) (db db' : Db) : Prop where
  item : ∀ i, id.column? = some i →
    (db'.items.find? i).map ItemRow.kept = (db.items.find? i).map ItemRow.kept
  items : ∀ i, id.column? ≠ some i → db'.items.find? i = db.items.find? i
  customers : ∀ c, db'.customers.find? c = db.customers.find? c
  rest : SameRest db db'

/-- The columns of a customer that an update leaves. -/
def CustomerRow.kept (r : CustomerRow) : Uuid × String × TaxType × ℕ × Option ℕ :=
  (r.id, r.taxId, r.taxType, r.createdAt, r.deletedAt)

/-- At most the name, the email and the phone of customer `id` changed, and the
time of its last update. -/
structure CustomerFrame (id : IdText) (db db' : Db) : Prop where
  customer : ∀ c, id.column? = some c →
    (db'.customers.find? c).map CustomerRow.kept = (db.customers.find? c).map CustomerRow.kept
  customers : ∀ c, id.column? ≠ some c → db'.customers.find? c = db.customers.find? c
  items : ∀ i, db'.items.find? i = db.items.find? i
  rest : SameRest db db'

theorem SameRest.refl (db : Db) : SameRest db db :=
  ⟨fun _ => rfl, fun _ => rfl, fun _ => rfl, rfl, fun _ => rfl⟩

theorem ItemFrame.refl (id : IdText) (db : Db) : ItemFrame id db db :=
  ⟨fun _ _ => rfl, fun _ _ => rfl, fun _ => rfl, .refl db⟩

theorem CustomerFrame.refl (id : IdText) (db : Db) : CustomerFrame id db db :=
  ⟨fun _ _ => rfl, fun _ _ => rfl, fun _ => rfl, .refl db⟩

theorem mapError_ok {ε ε' α : Type} {f : ε → ε'} {x : Except ε α} {a : α} :
    x.mapError f = .ok a ↔ x = .ok a := by
  cases x <;> simp [Except.mapError]

variable {p : Platform} {id : IdText} {body : Json} {db : Db}

/-! ## Items -/

/-- The parts of `PUT /items/:id`. -/
def itemRoute (p : Platform) (id : IdText) (db : Db) : UpdateRoute ItemRow where
  check fields := UpdateItem.checkBody p (.obj fields)
  found := id.column?.bind fun key => db.items.find? key
  fields := itemFields
  relations := ["serviceOrders"]
  row := p.itemRow
  store old row := (db.storeItemAs old row).mapError .failed
  nested fields row d := p.itemRelations fields row.id d

theorem Platform.itemUpdate_ok_iff {key : Uuid} {data : Json} {db' : Db} :
    p.itemUpdate key data db = .ok db' ↔
      ∃ fields row row' d, data = .obj fields ∧ db.items.find? key = some row ∧
        (∀ f ∈ fields, f.1 ∈ itemFields) ∧ p.itemRow fields row = .ok row' ∧
        (db.storeItemAs row row').mapError UpdateError.failed = .ok d ∧
        p.itemRelations fields row'.id d = .ok db' := by
  constructor
  · intro h
    unfold Platform.itemUpdate at h
    split at h
    · next fields =>
      split at h
      · next hknown =>
        split at h
        · cases h
        · next row hrow =>
          obtain ⟨row', hcolumns, h⟩ := bind_ok h
          obtain ⟨d, hstored, h⟩ := bind_ok h
          exact ⟨fields, row, row', d, rfl, hrow, by simpa using hknown, hcolumns, hstored, h⟩
      · cases h
    · cases h
  · rintro ⟨fields, row, row', d, rfl, hrow, hknown, hcolumns, hstored, h⟩
    have hall : fields.all (fun f => itemFields.contains f.1) = true := by simpa using hknown
    simp only [Platform.itemUpdate, hall, hrow, hcolumns, hstored, Bind.bind, Except.bind, if_true]
    exact h

theorem itemRoute_produces :
    (itemRoute p id db).Produces body (ItemController.update p id body db) := by
  intro db'
  constructor
  · intro h
    have hexec : UpdateItem.executeBody p id body db = .ok db' := by
      unfold ItemController.update at h
      split at h
      · exact h
      · exact h
      · cases h
    obtain ⟨u, hcheck, h⟩ := bind_ok hexec
    obtain ⟨updated, hrepo, h⟩ := bind_ok h
    unfold ItemRepository.updateBody at hrepo
    split at hrepo
    · cases hrepo
      cases h
    · next key hkey =>
      split at hrepo
      · cases hrepo
        cases h
      · obtain ⟨d', hupdate, rfl⟩ := map_ok hrepo
        cases h
        obtain ⟨fields, row, row', d, rfl, hrow, hknown, hcolumns, hstored, hnested⟩ :=
          Platform.itemUpdate_ok_iff.mp hupdate
        have hfound : (itemRoute p id db).found = some row := by simp [itemRoute, hkey, hrow]
        exact ⟨fields, row, row', d, rfl, ⟨hcheck, hfound, hknown, hcolumns, hstored⟩, hnested⟩
  · rintro ⟨fields, row, row', d, rfl, ⟨hcheck, hfound, hknown, hcolumns, hstored⟩, hnested⟩
    obtain ⟨key, hkey, hrow⟩ := Option.bind_eq_some_iff.mp hfound
    have hupdate : p.itemUpdate key (.obj fields) db = .ok db' :=
      Platform.itemUpdate_ok_iff.mpr ⟨fields, row, row', d, rfl, hrow, hknown, hcolumns, hstored,
        hnested⟩
    have hcheck : UpdateItem.checkBody p (.obj fields) = .ok () := hcheck
    simp only [ItemController.update, UpdateItem.executeBody, hcheck, ItemRepository.updateBody, hkey,
      hrow, hupdate, Except.map, Bind.bind, Except.bind]

theorem Platform.itemRow_ok {fields : List (String × Json)} {row row' : ItemRow}
    (h : p.itemRow fields row = .ok row') :
    column fields "id" (setTo (readText p.uuid)) row.id = .ok row'.id ∧
    column fields "reservedQuantity" intUpdate row.reservedQuantity = .ok row'.reservedQuantity := by
  obtain ⟨i, hi, h⟩ := bind_ok h
  obtain ⟨name, -, h⟩ := bind_ok h
  obtain ⟨price, -, h⟩ := bind_ok h
  obtain ⟨stock, -, h⟩ := bind_ok h
  obtain ⟨reserved, hreserved, h⟩ := bind_ok h
  cases h
  exact ⟨hi, hreserved⟩

theorem storeItemAs_same {row row' : ItemRow} {d : Db} (hid : row'.id = row.id)
    (h : db.storeItemAs row row' = .ok d) :
    ∃ hc, d = { db with items := db.items.put row' hc } := by
  rw [Db.storeItemAs, if_pos hid] at h
  obtain ⟨ws, hws, rfl⟩ := map_ok h
  obtain ⟨hc, rfl⟩ := storeItem_ok hws
  exact ⟨hc, rfl⟩

/-- What holds of each write made for an element holds of all that are made for a list. -/
theorem forall_mem_mapM {α : Type} {f : α → Except Failure (List Write)} {P : Write → Prop}
    (hf : ∀ a ws, f a = .ok ws → ∀ w ∈ ws, P w) {l : List α} {wss : List (List Write)}
    (h : l.mapM f = .ok wss) : ∀ w ∈ wss.flatten, P w := by
  induction l generalizing wss with
  | nil =>
      cases h
      simp
  | cons a rest ih =>
      rw [List.mapM_cons] at h
      obtain ⟨ws, hws, h⟩ := bind_ok h
      obtain ⟨wss', hrest, h⟩ := bind_ok h
      cases h
      intro w hw
      rw [List.flatten_cons, List.mem_append] at hw
      rcases hw with hw | hw
      · exact hf a ws hws w hw
      · exact ih hrest w hw

theorem storeOrder_item? {row : OrderRow} {ws : List Write} (h : storeOrder row = .ok ws) (i : Uuid) :
    ∀ w ∈ ws, w.item? i = none := by
  obtain ⟨hc, rfl⟩ := storeOrder_ok h
  intro w hw
  obtain rfl := List.mem_singleton.mp hw
  rfl

theorem storeOrder_customer? {row : OrderRow} {ws : List Write} (h : storeOrder row = .ok ws)
    (c : Uuid) : ∀ w ∈ ws, w.customer? c = none := by
  obtain ⟨hc, rfl⟩ := storeOrder_ok h
  intro w hw
  obtain rfl := List.mem_singleton.mp hw
  rfl

theorem storeVehicle_customer? {d : Db} {row : VehicleRow} {ws : List Write}
    (h : storeVehicle d row = .ok ws) (c : Uuid) : ∀ w ∈ ws, w.customer? c = none := by
  obtain ⟨hc, rfl⟩ := storeVehicle_ok h
  intro w hw
  obtain rfl := List.mem_singleton.mp hw
  rfl

/-- An item stored under another id is gone from its own. -/
theorem storeItemAs_moved {row row' : ItemRow} {d : Db} (hid : row'.id ≠ row.id)
    (h : db.storeItemAs row row' = .ok d) : d.items.find? row.id = none := by
  rw [Db.storeItemAs, if_neg hid] at h
  split at h
  · cases h
  · obtain ⟨stored, hstored, h⟩ := bind_ok h
    obtain ⟨orders, horders, h⟩ := bind_ok h
    cases h
    obtain ⟨hc, rfl⟩ := storeItem_ok hstored
    have hnone : lastItem ([.putItem row' hc] ++ orders.flatten) row.id = none := by
      apply lastOf_eq_none
      intro w hw
      rcases List.mem_append.mp hw with hw | hw
      · obtain rfl := List.mem_singleton.mp hw
        simp [Write.item?, hid]
      · exact forall_mem_mapM (fun o ws hws => storeOrder_item? hws row.id) horders w hw
    rw [applyAll_items, hnone]
    simp

/-- What the columns of an accepted body may ask for. -/
def ItemKeeps (p : Platform) (fields : List (String × Json)) (row : ItemRow) : Prop :=
  Keeps fields "id" (setTo (readText p.uuid)) row.id ∧
    Keeps fields "reservedQuantity" intUpdate row.reservedQuantity

/-- The columns that are written leave the item exactly when the body asks for
the id and the reserved units it has. -/
theorem itemRoute_columns_iff {fields : List (String × Json)} {row row' : ItemRow} {d : Db}
    (h : (itemRoute p id db).Accepted fields row row' d) :
    ItemFrame id db d ↔ ItemKeeps p fields row := by
  obtain ⟨hid, hreserved⟩ := Platform.itemRow_ok h.columns
  obtain ⟨key, hkey, hrow⟩ := Option.bind_eq_some_iff.mp h.found
  have hstored : db.storeItemAs row row' = .ok d := mapError_ok.mp h.stored
  have hrowid : row.id = key := item_id hrow
  rw [ItemKeeps, ← column_eq_iff, ← column_eq_iff, hid, hreserved, Except.ok.injEq,
    Except.ok.injEq]
  constructor
  · intro hframe
    have hitem := hframe.item key hkey
    by_cases hsame : row'.id = row.id
    · obtain ⟨hc, rfl⟩ := storeItemAs_same hsame hstored
      rw [hrow] at hitem
      simp [Table.find?_put, hsame.trans hrowid, ItemRow.kept] at hitem
      exact ⟨hsame, hitem.2⟩
    · have hgone := storeItemAs_moved hsame hstored
      rw [hrowid] at hgone
      rw [hrow, hgone] at hitem
      cases hitem
  · rintro ⟨hsame, hkept⟩
    obtain ⟨hc, rfl⟩ := storeItemAs_same hsame hstored
    refine ⟨?_, ?_, fun _ => rfl, ⟨fun _ => rfl, fun _ => rfl, fun _ => rfl, rfl, fun _ => rfl⟩⟩
    · intro i hi
      obtain rfl := Option.some.inj (hkey.symm.trans hi)
      simp [Table.find?_put, hsame.trans hrowid, hrow, ItemRow.kept, hkept, hrowid]
    · intro i hi
      have hne : row'.id ≠ i := by
        rintro rfl
        exact hi (by rw [hkey, hsame, hrowid])
      simp [Table.find?_put, hne]

theorem itemRoute_plain (fields : List (String × Json)) (row : ItemRow) (d : Db)
    (hno : ¬ (itemRoute p id db).HasRelation fields) :
    (itemRoute p id db).nested fields row d = .ok d := by
  cases hv : fields.lookup "serviceOrders" with
  | none => simp [itemRoute, Platform.itemRelations, hv]
  | some v => exact absurd ⟨"serviceOrders", by simp [itemRoute], by simp [hv]⟩ hno

theorem itemUpdate_frame (h : (itemRoute p id db).Refused body ∨
    (itemRoute p id db).Harmless (ItemKeeps p) body) :
    ItemFrame id db (db.after (ItemController.update p id body db)) :=
  itemRoute_produces.frame_of (.refl id db) itemRoute_plain
    (fun _ _ _ _ => itemRoute_columns_iff) h

/-! ## Customers -/

/-- The parts of `PUT /customers/:id`. -/
def customerRoute (p : Platform) (id : IdText) (now : ℕ) (db : Db) : UpdateRoute CustomerRow where
  check fields := UpdateCustomer.checkBody (.obj fields)
  found := id.column?.bind fun key =>
    (db.customers.find? key).filter fun c => c.deletedAt.isNone
  fields := customerFields
  relations := ["vehicles", "serviceOrders"]
  row fields row := p.customerRow fields now row
  store old row := (db.storeCustomerAs old row).mapError
    fun failure => .failed (translatingUniqueViolation failure)
  nested fields row d := p.customerRelations fields row.id d

theorem Platform.customerUpdate_ok_iff {key now : ℕ} {data : Json} {db' : Db} :
    p.customerUpdate key data now db = .ok db' ↔
      ∃ fields row row' d, data = .obj fields ∧ db.customers.find? key = some row ∧
        (∀ f ∈ fields, f.1 ∈ customerFields) ∧ p.customerRow fields now row = .ok row' ∧
        (db.storeCustomerAs row row').mapError
          (fun failure => UpdateError.failed (translatingUniqueViolation failure)) = .ok d ∧
        p.customerRelations fields row'.id d = .ok db' := by
  constructor
  · intro h
    unfold Platform.customerUpdate at h
    split at h
    · next fields =>
      split at h
      · next hknown =>
        split at h
        · cases h
        · next row hrow =>
          obtain ⟨row', hcolumns, h⟩ := bind_ok h
          obtain ⟨d, hstored, h⟩ := bind_ok h
          exact ⟨fields, row, row', d, rfl, hrow, by simpa using hknown, hcolumns, hstored, h⟩
      · cases h
    · cases h
  · rintro ⟨fields, row, row', d, rfl, hrow, hknown, hcolumns, hstored, h⟩
    have hall : fields.all (fun f => customerFields.contains f.1) = true := by simpa using hknown
    simp only [Platform.customerUpdate, hall, hrow, hcolumns, hstored, Bind.bind, Except.bind,
      if_true]
    exact h

theorem customerRoute_produces {now : ℕ} :
    (customerRoute p id now db).Produces body (CustomerController.update p id body now db) := by
  intro db'
  constructor
  · intro h
    have hexec : UpdateCustomer.executeBody p id body now db = .ok db' := by
      unfold CustomerController.update at h
      split at h
      · exact h
      · exact h
      · cases h
    obtain ⟨u, hcheck, h⟩ := bind_ok hexec
    obtain ⟨updated, hrepo, h⟩ := bind_ok h
    unfold CustomerRepository.updateBody at hrepo
    split at hrepo
    · cases hrepo
      cases h
    · next key hkey =>
      split at hrepo
      · cases hrepo
        cases h
      · next active hactive =>
        obtain ⟨d', hupdate, rfl⟩ := map_ok hrepo
        cases h
        obtain ⟨fields, row, row', d, rfl, hrow, hknown, hcolumns, hstored, hnested⟩ :=
          Platform.customerUpdate_ok_iff.mp hupdate
        have hfound : (customerRoute p id now db).found = some row := by
          rw [hrow] at hactive
          have hsame : row = active := (Option.filter_eq_some_iff.mp hactive).1 |> Option.some.inj
          subst hsame
          simp only [customerRoute, hkey, Option.bind_some, hrow]
          exact hactive
        exact ⟨fields, row, row', d, rfl, ⟨hcheck, hfound, hknown, hcolumns, hstored⟩, hnested⟩
  · rintro ⟨fields, row, row', d, rfl, ⟨hcheck, hfound, hknown, hcolumns, hstored⟩, hnested⟩
    obtain ⟨key, hkey, hactive⟩ := Option.bind_eq_some_iff.mp hfound
    have hrow : db.customers.find? key = some row := (Option.filter_eq_some_iff.mp hactive).1
    have hupdate : p.customerUpdate key (.obj fields) now db = .ok db' :=
      Platform.customerUpdate_ok_iff.mpr ⟨fields, row, row', d, rfl, hrow, hknown, hcolumns, hstored,
        hnested⟩
    have hcheck : UpdateCustomer.checkBody (.obj fields) = .ok () := hcheck
    simp only [CustomerController.update, UpdateCustomer.executeBody, hcheck,
      CustomerRepository.updateBody, hkey, hactive, hupdate, Except.map, Bind.bind, Except.bind]

theorem Platform.customerRow_ok {fields : List (String × Json)} {now : ℕ} {row row' : CustomerRow}
    (h : p.customerRow fields now row = .ok row') :
    column fields "id" (setTo (readText p.uuid)) row.id = .ok row'.id ∧
    column fields "taxId" (setTo textValue) row.taxId = .ok row'.taxId ∧
    column fields "taxType" (setTo taxTypeValue) row.taxType = .ok row'.taxType ∧
    column fields "createdAt" (setTo (readText p.dateTime)) row.createdAt = .ok row'.createdAt ∧
    column fields "deletedAt" (setTo (nullable (readText p.dateTime))) row.deletedAt =
      .ok row'.deletedAt := by
  obtain ⟨i, hi, h⟩ := bind_ok h
  obtain ⟨name, -, h⟩ := bind_ok h
  obtain ⟨taxId, htaxId, h⟩ := bind_ok h
  obtain ⟨taxType, htaxType, h⟩ := bind_ok h
  obtain ⟨email, -, h⟩ := bind_ok h
  obtain ⟨phone, -, h⟩ := bind_ok h
  obtain ⟨createdAt, hcreated, h⟩ := bind_ok h
  obtain ⟨updatedAt, -, h⟩ := bind_ok h
  obtain ⟨deletedAt, hdeleted, h⟩ := bind_ok h
  cases h
  exact ⟨hi, htaxId, htaxType, hcreated, hdeleted⟩

/-- A body that passes the checks has no tax fields. -/
theorem UpdateCustomer.checkBody_ok {fields : List (String × Json)} {u : Unit}
    (h : checkBody (.obj fields) = .ok u) :
    fields.lookup "taxId" = none ∧ fields.lookup "taxType" = none := by
  unfold checkBody at h
  split at h
  · cases h
  · next hno =>
    rw [Bool.or_eq_true, not_or, Option.not_isSome_iff_eq_none, Option.not_isSome_iff_eq_none] at hno
    exact hno

theorem storeCustomerAs_same {row row' : CustomerRow} {d : Db} (hid : row'.id = row.id)
    (h : db.storeCustomerAs row row' = .ok d) :
    ∃ hc, d = { db with customers := db.customers.put row' hc } := by
  rw [Db.storeCustomerAs, if_pos hid] at h
  obtain ⟨ws, hws, rfl⟩ := map_ok h
  obtain ⟨hc, rfl⟩ := storeCustomer_ok hws
  exact ⟨hc, rfl⟩

/-- A customer stored under another id is gone from their own. -/
theorem storeCustomerAs_moved {row row' : CustomerRow} {d : Db} (hid : row'.id ≠ row.id)
    (h : db.storeCustomerAs row row' = .ok d) : d.customers.find? row.id = none := by
  rw [Db.storeCustomerAs, if_neg hid] at h
  split at h
  · cases h
  · obtain ⟨stored, hstored, h⟩ := bind_ok h
    obtain ⟨vehicles, hvehicles, h⟩ := bind_ok h
    obtain ⟨orders, horders, h⟩ := bind_ok h
    cases h
    obtain ⟨hc, rfl⟩ := storeCustomer_ok hstored
    -- what follows the new id are vehicles and orders, so no customer comes back
    have hnone : lastCustomer (vehicles.flatten ++ orders.flatten) row.id = none := by
      apply lastOf_eq_none
      intro w hw
      rcases List.mem_append.mp hw with hw | hw
      · exact forall_mem_mapM (fun v ws hws => storeVehicle_customer? hws row.id) hvehicles w hw
      · exact forall_mem_mapM (fun o ws hws => storeOrder_customer? hws row.id) horders w hw
    rw [applyAll_customers, hnone, applyAll_customers]
    simp [lastOf, Write.customer?, hid]

/-- What the columns of an accepted body may ask for. The tax fields were refused. -/
structure CustomerKeeps (p : Platform) (fields : List (String × Json)) (row : CustomerRow) : Prop where
  id : Keeps fields "id" (setTo (readText p.uuid)) row.id
  createdAt : Keeps fields "createdAt" (setTo (readText p.dateTime)) row.createdAt
  deletedAt : Keeps fields "deletedAt" (setTo (nullable (readText p.dateTime))) row.deletedAt

/-- The columns that are written leave the customer exactly when the body asks
for the id and the two times they have. -/
theorem customerRoute_columns_iff {now : ℕ} {fields : List (String × Json)} {row row' : CustomerRow}
    {d : Db} (h : (customerRoute p id now db).Accepted fields row row' d) :
    CustomerFrame id db d ↔ CustomerKeeps p fields row := by
  obtain ⟨hid, htaxId, htaxType, hcreated, hdeleted⟩ := Platform.customerRow_ok h.columns
  obtain ⟨hnoId, hnoType⟩ := UpdateCustomer.checkBody_ok h.checked
  -- the checks let no tax field through
  have htaxId : row'.taxId = row.taxId := by simpa [column, hnoId, eq_comm] using htaxId
  have htaxType : row'.taxType = row.taxType := by simpa [column, hnoType, eq_comm] using htaxType
  obtain ⟨key, hkey, hactive⟩ := Option.bind_eq_some_iff.mp h.found
  have hrow : db.customers.find? key = some row := (Option.filter_eq_some_iff.mp hactive).1
  have hstored : db.storeCustomerAs row row' = .ok d := mapError_ok.mp h.stored
  have hrowid : row.id = key := Table.key_of_find? hrow
  have hkeeps : CustomerKeeps p fields row ↔ row'.id = row.id ∧ row'.createdAt = row.createdAt ∧
      row'.deletedAt = row.deletedAt := by
    constructor
    · rintro ⟨ha, hb, hc⟩
      rw [← column_eq_iff, hid] at ha
      rw [← column_eq_iff, hcreated] at hb
      rw [← column_eq_iff, hdeleted] at hc
      exact ⟨Except.ok.inj ha, Except.ok.inj hb, Except.ok.inj hc⟩
    · rintro ⟨ha, hb, hc⟩
      rw [ha] at hid
      rw [hb] at hcreated
      rw [hc] at hdeleted
      exact ⟨column_eq_iff.mp hid, column_eq_iff.mp hcreated, column_eq_iff.mp hdeleted⟩
  rw [hkeeps]
  constructor
  · intro hframe
    have hcustomer := hframe.customer key hkey
    by_cases hsame : row'.id = row.id
    · obtain ⟨hc, rfl⟩ := storeCustomerAs_same hsame hstored
      rw [hrow] at hcustomer
      simp [Table.find?_put, hsame.trans hrowid, CustomerRow.kept] at hcustomer
      exact ⟨hsame, hcustomer.2.2.2⟩
    -- under another id the customer is gone from the one that was asked for
    · have hgone := storeCustomerAs_moved hsame hstored
      rw [hrowid] at hgone
      rw [hrow, hgone] at hcustomer
      cases hcustomer
  · rintro ⟨hsame, hcreated', hdeleted'⟩
    obtain ⟨hc, rfl⟩ := storeCustomerAs_same hsame hstored
    refine ⟨?_, ?_, fun _ => rfl, ⟨fun _ => rfl, fun _ => rfl, fun _ => rfl, rfl, fun _ => rfl⟩⟩
    · intro c hc
      obtain rfl := Option.some.inj (hkey.symm.trans hc)
      simp [Table.find?_put, hsame.trans hrowid, hrow, CustomerRow.kept, hrowid, htaxId, htaxType,
        hcreated', hdeleted']
    · intro c hc
      have hne : row'.id ≠ c := by
        rintro rfl
        exact hc (by rw [hkey, hsame, hrowid])
      simp [Table.find?_put, hne]

theorem customerRoute_plain {now : ℕ} (fields : List (String × Json)) (row : CustomerRow) (d : Db)
    (hno : ¬ (customerRoute p id now db).HasRelation fields) :
    (customerRoute p id now db).nested fields row d = .ok d := by
  -- without the two relations nothing nested is written
  have hnone : ∀ name ∈ ["vehicles", "serviceOrders"], fields.lookup name = none := by
    intro name hname
    by_contra hne
    exact hno ⟨name, hname, Option.isSome_iff_ne_none.mpr hne⟩
  have hvehicles := hnone "vehicles" (by simp)
  have horders := hnone "serviceOrders" (by simp)
  simp [customerRoute, Platform.customerRelations, hvehicles, horders, Bind.bind, Except.bind]

theorem customerUpdate_frame {now : ℕ} (h : (customerRoute p id now db).Refused body ∨
    (customerRoute p id now db).Harmless (CustomerKeeps p) body) :
    CustomerFrame id db (db.after (CustomerController.update p id body now db)) :=
  customerRoute_produces.frame_of (.refl id db) customerRoute_plain
    (fun _ _ _ _ => customerRoute_columns_iff) h

/-! ## Both updates -/

theorem lookup_of_others {fields : List (String × Json)} {names : List String} {name : String}
    (h : ∀ f ∈ fields, f.1 ∈ names) (hname : name ∉ names) : fields.lookup name = none := by
  rw [List.lookup_eq_none_iff]
  intro f hf
  rw [bne_iff_ne]
  intro heq
  rw [heq] at hname
  exact hname (h f hf)

/-- A body with documented fields only leaves the ledger. -/
theorem documented_item_update {fields : List (String × Json)}
    (h : ∀ f ∈ fields, f.1 ∈ ["name", "price", "stockQuantity"]) :
    ItemFrame id db (db.after (ItemController.update p id (.obj fields) db)) := by
  apply itemUpdate_frame
  by_cases hrefused : (itemRoute p id db).Refused (.obj fields)
  · exact .inl hrefused
  · obtain ⟨fields', row, row', d, hbody, hacc⟩ := UpdateRoute.accepted_of_not_refused hrefused
    obtain rfl := Json.obj.inj hbody
    -- a documented name is none of those that reach the ledger
    refine .inr (.columns hacc.found ?_ ⟨?_, ?_⟩)
    · rintro ⟨name, hname, hsome⟩
      obtain rfl := List.mem_singleton.mp hname
      simp [lookup_of_others h (by decide : "serviceOrders" ∉ _)] at hsome
    · intro v hv
      simp [lookup_of_others h (by decide : "id" ∉ _)] at hv
    · intro v hv
      simp [lookup_of_others h (by decide : "reservedQuantity" ∉ _)] at hv

theorem documented_customer_update {now : ℕ} {fields : List (String × Json)}
    (h : ∀ f ∈ fields, f.1 ∈ ["name", "email", "phone"]) :
    CustomerFrame id db (db.after (CustomerController.update p id (.obj fields) now db)) := by
  apply customerUpdate_frame
  by_cases hrefused : (customerRoute p id now db).Refused (.obj fields)
  · exact .inl hrefused
  · obtain ⟨fields', row, row', d, hbody, hacc⟩ := UpdateRoute.accepted_of_not_refused hrefused
    obtain rfl := Json.obj.inj hbody
    refine .inr (.columns hacc.found ?_ ⟨?_, ?_, ?_⟩)
    · rintro ⟨name, hname, hsome⟩
      have hout : name ∉ ["name", "email", "phone"] := by
        rcases List.mem_pair.mp hname with rfl | rfl <;> decide
      simp [lookup_of_others h hout] at hsome
    · intro v hv
      simp [lookup_of_others h (by decide : "id" ∉ _)] at hv
    · intro v hv
      simp [lookup_of_others h (by decide : "createdAt" ∉ _)] at hv
    · intro v hv
      simp [lookup_of_others h (by decide : "deletedAt" ∉ _)] at hv

/-- The body of an update with the declared fields. -/
def UpdateItemInput.toBody (data : UpdateItemInput) : Json :=
  .obj ((data.name.map fun name => ("name", Json.str name)).toList ++
    (data.price.map fun price => ("price", Json.num (.finite price))).toList ++
    (data.stockQuantity.map fun n => ("stockQuantity", Json.num (.finite n))).toList)

/-- A field that may be absent, in front of the others. -/
theorem lookup_optional {α : Type} (x : Option α) (k name : String) (f : α → Json)
    (rest : List (String × Json)) :
    ((x.map fun a => (k, f a)).toList ++ rest).lookup name =
      if name = k then (x.map f).or (rest.lookup name) else rest.lookup name := by
  cases x with
  | none => simp
  | some a =>
      by_cases h : name = k
      · simp [h]
      · have hbeq : (name == k) = false := by simpa using h
        simp [List.lookup_cons, h, hbeq]

theorem UpdateItemInput.field?_toBody (data : UpdateItemInput) (name : String) :
    data.toBody.field? name =
      if name = "name" then data.name.map Json.str
      else if name = "price" then data.price.map fun price => .num (.finite price)
      else if name = "stockQuantity" then data.stockQuantity.map fun n => .num (.finite n)
      else none := by
  have hlast : ∀ x : Option ℚ,
      (x.map fun n => ("stockQuantity", Json.num (.finite n))).toList.lookup name =
        if name = "stockQuantity" then x.map fun n => .num (.finite n) else none := by
    intro x
    simpa using lookup_optional x "stockQuantity" name (fun n => Json.num (.finite n)) []
  unfold toBody Json.field?
  simp only [List.append_assoc]
  rw [lookup_optional, lookup_optional, hlast]
  -- the three names differ, so at most one of the fields answers
  by_cases h₁ : name = "name"
  · simp [h₁]
  by_cases h₂ : name = "price"
  · simp [h₂]
  simp [h₁, h₂]

theorem Platform.itemRow_toBody (data : UpdateItemInput) {fields : List (String × Json)}
    (hfields : data.toBody = .obj fields) (row : ItemRow)
    (hstock : ∀ n ∈ data.stockQuantity, -maxInteger - 1 ≤ n ∧ n ≤ maxInteger) :
    p.itemRow fields row = .ok (ItemPatch.apply
      { name := data.name, price := data.price, stockQuantity := data.stockQuantity } row) := by
  have hlookup : ∀ name, fields.lookup name = data.toBody.field? name := by
    intro name
    rw [hfields]
    rfl
  obtain ⟨a, b, c⟩ := data
  simp only [Platform.itemRow, column, hlookup, UpdateItemInput.field?_toBody]
  cases a <;> cases b <;> cases c <;>
    simp_all [ItemPatch.apply, setTo, setOperand, textValue, Platform.decimalUpdate, Platform.decimalValue,
      intUpdate, wholeNumber, Bind.bind, Except.bind, Except.map]

/-- The checks of the route on declared fields are those of the operation. -/
theorem UpdateItem.checkBody_toBody (data : UpdateItemInput) :
    checkBody p data.toBody =
      if data.price.any (· < 0) then
        .error (.failed (.app (.validation "Price cannot be negative")))
      else if data.stockQuantity.any (· < 0) then
        .error (.failed (.app (.validation "Stock quantity cannot be negative")))
      else .ok () := by
  obtain ⟨name, price, stock⟩ := data
  simp only [checkBody, UpdateItemInput.field?_toBody]
  cases price <;> cases stock <;> simp [Platform.negative]

theorem Platform.itemUpdate_toBody {key : Uuid} {row : ItemRow} (data : UpdateItemInput)
    (hstock : ∀ n ∈ data.stockQuantity, -maxInteger - 1 ≤ n ∧ n ≤ maxInteger)
    (hrow : db.items.find? key = some row) :
    p.itemUpdate key data.toBody db = ((storeItem (ItemPatch.apply
      { name := data.name, price := data.price, stockQuantity := data.stockQuantity } row)).map
        (postgres.applyAll db)).mapError .failed := by
  obtain ⟨fields, hfields⟩ : ∃ fields, data.toBody = .obj fields := ⟨_, rfl⟩
  have hknown : fields.all (fun f => itemFields.contains f.1) = true := by
    cases hfields
    obtain ⟨a, b, c⟩ := data
    cases a <;> cases b <;> cases c <;> rfl
  have hrelation : fields.lookup "serviceOrders" = none := by
    have hfield := data.field?_toBody "serviceOrders"
    rw [hfields] at hfield
    exact hfield
  rw [hfields]
  simp only [Platform.itemUpdate, hknown, if_true, hrow, Platform.itemRow_toBody data hfields row hstock,
    Platform.itemRelations, hrelation, Db.storeItemAs, Bind.bind, Except.bind]
  have hid : ∀ patch : ItemPatch, (patch.apply row).id = row.id := fun _ => rfl
  rw [if_pos (hid _)]
  cases storeItem _ <;> rfl

/-- With declared fields in range, the route changes the tables as the
operation does that is given these fields. -/
theorem ItemController.update_declared (w : World) (now : ℕ) (data : UpdateItemInput)
    (hstock : ∀ n ∈ data.stockQuantity, n ≤ maxInteger) :
    w.db.after (ItemController.update p id data.toBody w.db) =
      (w.perform now (.updateItem id data)).db := by
  have hroute : ItemController.update p id data.toBody w.db =
      UpdateItem.executeBody p id data.toBody w.db := rfl
  rw [hroute, UpdateItem.executeBody, UpdateItem.checkBody_toBody]
  unfold World.perform World.attempt
  simp only [program, returning, UpdateItem.execute]
  by_cases hprice : data.price.any (· < 0) = true
  · simp only [hprice, if_true]
    rfl
  by_cases hstock' : data.stockQuantity.any (· < 0) = true
  · simp only [hprice, hstock', if_true]
    rfl
  simp only [hprice, hstock', Bool.false_eq_true, if_false, Bind.bind, Except.bind, ItemRepository.updateBody,
    ItemRepository.update]
  cases hkey : id.column? with
  | none => rfl
  | some key =>
      have hrange : ∀ n ∈ data.stockQuantity, -maxInteger - 1 ≤ n ∧ n ≤ maxInteger := by
        intro n hn
        have hnonneg : 0 ≤ n := by
          by_contra hneg
          exact hstock' ((Option.any_eq_true _ _).mpr ⟨n, hn, by simpa using hneg⟩)
        exact ⟨by simp only [maxInteger]; omega, hstock n hn⟩
      cases hrow : w.db.items.find? key with
      | none =>
          have hread : postgres.exec (.findItem key) (postgres.view ({} : ShopTx) w.db) =
              .ok (none, []) := by
            rw [← hrow]
            rfl
          simp only [sql, Prog.query, Prog.bind, Prog.run, hread, hrow]
          rfl
      | some row =>
          have hread : postgres.exec (.findItem key) (postgres.view ({} : ShopTx) w.db) =
              .ok (some row, []) := by
            rw [← hrow]
            rfl
          have hupdate : ∀ patch, postgres.exec (.updateItem key patch)
              (postgres.view (Tx.record ({} : ShopTx) (.findItem key) (some row) []) w.db) =
                (storeItem (patch.apply row)).map (patch.apply row, ·) := by
            intro patch
            change exec (.updateItem key patch) w.db = _
            simp only [exec, hrow]
          simp only [sql, Prog.query, Prog.bind, Prog.run, hread, hupdate, hrow,
            Platform.itemUpdate_toBody data hrange hrow]
          cases hstored : storeItem (ItemPatch.apply
            { name := data.name, price := data.price, stockQuantity := data.stockQuantity } row) with
          | error failure => rfl
          | ok ws => rfl

/-- For every body: an update of an item leaves its id, its reserved units and
all else but its name, price and stock, when the request is refused before its
nested writes or asks for none and of the columns for nothing more; and only
then, unless the body has a relation field. So does an update of a customer. -/
theorem registry_updates_keep_ledger_iff (p : Platform) (id : IdText) (body : Json) (now : ℕ)
    (db : Db) :
    ((itemRoute p id db).Refused body ∨ (itemRoute p id db).Harmless (ItemKeeps p) body →
      ItemFrame id db (db.after (ItemController.update p id body db))) ∧
    ((itemRoute p id db).Plain body →
      (ItemFrame id db (db.after (ItemController.update p id body db)) ↔
        (itemRoute p id db).Refused body ∨ (itemRoute p id db).Harmless (ItemKeeps p) body)) ∧
    ((customerRoute p id now db).Refused body ∨
        (customerRoute p id now db).Harmless (CustomerKeeps p) body →
      CustomerFrame id db (db.after (CustomerController.update p id body now db))) ∧
    ((customerRoute p id now db).Plain body →
      (CustomerFrame id db (db.after (CustomerController.update p id body now db)) ↔
        (customerRoute p id now db).Refused body ∨
          (customerRoute p id now db).Harmless (CustomerKeeps p) body)) :=
  ⟨itemUpdate_frame,
    itemRoute_produces.frame_iff (.refl id db) itemRoute_plain fun _ _ _ _ => itemRoute_columns_iff,
    customerUpdate_frame,
    customerRoute_produces.frame_iff (.refl id db) customerRoute_plain
      fun _ _ _ _ => customerRoute_columns_iff⟩

/-- A platform for bodies that hold numbers only. -/
def numbersOnly : Platform where
  number _ := none
  decimal _ := none
  uuid _ := none
  dateTime _ := none
  nested _ _ _ _ := .error .refusedArgument

/-- A body that sets the reserved units of an item: two units are reserved by
an order that is open, and none afterwards. -/
theorem reservation_overwritten : ∃ s row,
    ShopSys.start.play postgres program .none openingMoves = some s ∧
    s.db.items.find? 2 = some row ∧ row.reservedQuantity = 2 ∧
    (s.db.after (ItemController.update numbersOnly (Uuid.text 2)
        (.obj [("reservedQuantity", .num (.finite 0))]) s.db)).items.find? 2 =
      some { row with reservedQuantity := 0 } ∧
    ¬ ItemFrame (Uuid.text 2) s.db (s.db.after (ItemController.update numbersOnly (Uuid.text 2)
        (.obj [("reservedQuantity", .num (.finite 0))]) s.db)) := by
  have hplay : ∃ s ∈ ShopSys.start.play postgres program .none openingMoves,
      ∃ row ∈ s.db.items.find? 2, row.reservedQuantity = 2 ∧
        (s.db.after (ItemController.update numbersOnly (Uuid.text 2)
          (.obj [("reservedQuantity", .num (.finite 0))]) s.db)).items.find? 2 =
            some { row with reservedQuantity := 0 } := by
    decide +kernel
  obtain ⟨s, hs, row, hrow, hreserved, hafter⟩ := hplay
  refine ⟨s, row, hs, hrow, hreserved, hafter, ?_⟩
  intro hframe
  have hitem := hframe.item 2 rfl
  rw [hafter, show s.db.items.find? 2 = some row from hrow] at hitem
  simp [ItemRow.kept, hreserved] at hitem

end CarRepairShop
